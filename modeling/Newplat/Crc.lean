import Newplat.Base.Gf2
import Newplat.Hosts

/-! The check sums of utils.c. The register of either holds the remainder of the data, with an
all-ones start, by one polynomial; the check bytes are its bits in the order they are shifted out. -/
namespace Newplat

open Base Polynomial

def crcBit (crc16 : Word 2) : Word 2 :=
  let tmp := crc16 &&& 0x0001
  let crc16 := crc16 >>> 1
  if tmp ≠ 0 then crc16 ^^^ 0xa001 else crc16

def crcByte (crc16 : Word 2) (byte : UInt8) : Word 2 :=
  crcBit^[8] (byte.toBitVec.setWidth 16 ^^^ crc16)

/-- The rounds that are left of the outer loop, with `data` moved `i` bytes on. -/
def crcLoop (data : Bytes) (i : Nat) (crc16 : Word 2) : Nat → Checked (Word 2)
  | 0 => .ok crc16
  | n + 1 => do
    let byte ← readByte data i
    crcLoop data (i + 1) (crcByte crc16 byte) n

def crcLe16 (data : Bytes) (len : Int) : Checked (Word 2) := do
  let crc16 ← crcLoop data 0 0xffff len.toNat
  return ((crc16 &&& 0x00ff) <<< 8) ||| ((crc16 &&& 0xff00) >>> 8)

def crcBe16 (data : Bytes) (len : Int) : Checked (Word 2) := do
  let crc16 ← crcLoop data 0 0xffff len.toNat
  return crc16

/-- The register after all of the data. -/
def crcRegister (data : Bytes) : Word 2 := data.foldl crcByte 0xffff

/-- The least significant bit of each byte first. -/
def dataBits (data : Bytes) : List Bool := data.flatMap fun byte => bits byte.toBitVec

def taps : Word 2 := 0xa001

theorem crcLoop_run (before data after : Bytes) (crc16 : Word 2) :
    crcLoop (before ++ data ++ after) before.length crc16 data.length =
      .ok (data.foldl crcByte crc16) := by
  induction data generalizing before crc16 with
  | nil => rfl
  | cons byte data ih =>
    have here : readByte (before ++ byte :: data ++ after) before.length = .ok byte := by
      rw [readByte_at rfl (by simp)]
      simp
    have rest := ih (before ++ [byte]) (crcByte crc16 byte)
    simp only [List.append_assoc, List.length_append, List.length_cons, List.length_nil, Nat.zero_add,
      List.cons_append, List.nil_append] at rest here ⊢
    simp only [crcLoop, here, ok_bind, rest, List.foldl_cons]

theorem crcBe16_register (data after : Bytes) :
    crcBe16 (data ++ after) data.length = .ok (crcRegister data) := by
  have run := crcLoop_run [] data after 0xffff
  simp only [List.nil_append, List.length_nil] at run
  simp only [crcBe16, Int.toNat_natCast, run]
  rfl

theorem swapped_bytes (crc16 : Word 2) :
    ((crc16 &&& 0x00ff) <<< 8) ||| ((crc16 &&& 0xff00) >>> 8) = bswap crc16 := by
  have low : crc16.toNat &&& 255 = crc16.toNat % 256 := Nat.and_two_pow_sub_one_eq_mod crc16.toNat 8
  have high : (crc16.toNat &&& 65280) >>> 8 = crc16.toNat / 256 % 256 := by
    rw [Nat.shiftRight_and_distrib, Nat.shiftRight_eq_div_pow]
    exact Nat.and_two_pow_sub_one_eq_mod _ 8
  have whole : crc16.toNat < 65536 := crc16.isLt
  have joined := Nat.shiftLeft_add_eq_or_of_lt (i := 8) (b := crc16.toNat / 256 % 256) (by omega)
    (crc16.toNat % 256)
  apply BitVec.eq_of_toNat_eq
  simp [bswap, loadWord, storeWord, ByteOrder.arrange, littleBytes, littleValue, low, high]
  have shifted : (crc16.toNat % 256) <<< 8 = 256 * (crc16.toNat % 256) := by
    rw [Nat.shiftLeft_eq]
    omega
  rw [Nat.mod_eq_of_lt (by omega), ← joined, shifted]
  omega

theorem crcLe16_register (data after : Bytes) :
    crcLe16 (data ++ after) data.length = .ok (bswap (crcRegister data)) := by
  have run := crcLoop_run [] data after 0xffff
  simp only [List.nil_append, List.length_nil] at run
  simp only [crcLe16, Int.toNat_natCast, run, ok_bind, swapped_bytes]
  rfl

theorem crcBit_shiftStep (crc16 : Word 2) : crcBit crc16 = shiftStep taps crc16 := by
  have low : crc16 &&& 0x0001 ≠ 0 ↔ crc16.getLsbD 0 = true := by
    have bit : crc16 &&& 0x0001 = (BitVec.ofBool (crc16.getLsbD 0)).setWidth 16 :=
      BitVec.and_one_eq_setWidth_ofBool_getLsbD
    rw [bit]
    cases crc16.getLsbD 0 <;> decide
  simp only [crcBit, shiftStep, low, taps]

theorem crcByte_poly (crc16 : Word 2) (byte : UInt8) :
    generator taps ∣ poly (bits (crcByte crc16 byte)) +
      (X ^ 8 * poly (bits crc16) + X ^ 16 * poly (bits byte.toBitVec)) := by
  have steps := shiftSteps_poly taps (by decide) 8 (byte.toBitVec.setWidth 16 ^^^ crc16)
  have entered := @bits_setWidth 8 8 byte.toBitVec
  have same : crcBit = shiftStep taps := funext crcBit_shiftStep
  rw [bits_poly_xor, entered] at steps
  have sum : poly (bits (crcByte crc16 byte)) +
      (X ^ 8 * poly (bits crc16) + X ^ 16 * poly (bits byte.toBitVec)) =
      poly (bits ((shiftStep taps)^[8] (byte.toBitVec.setWidth 16 ^^^ crc16))) +
        X ^ 8 * (poly (bits byte.toBitVec) * X ^ 8 + poly (bits crc16)) := by
    rw [crcByte, same]
    ring
  rw [sum]
  exact steps

theorem dataBits_length (data : Bytes) : (dataBits data).length = 8 * data.length := by
  induction data with
  | nil => rfl
  | cons byte data ih =>
    simp only [dataBits, List.flatMap_cons, List.length_append, bits_length, List.length_cons] at ih ⊢
    omega

/-- What the outer loop makes of a register and the data, modulo the polynomial. -/
theorem register_poly (crc16 : Word 2) (data : Bytes) :
    generator taps ∣ poly (bits (data.foldl crcByte crc16)) +
      (X ^ 16 * poly (dataBits data) + X ^ (8 * data.length) * poly (bits crc16)) := by
  induction data generalizing crc16 with
  | nil => simp [dataBits, poly, CharTwo.add_self_eq_zero]
  | cons byte data ih =>
    have first := Dvd.dvd.mul_left (crcByte_poly crc16 byte) (X ^ (8 * data.length))
    have rest := ih (crcByte crc16 byte)
    have twice := CharTwo.add_self_eq_zero (X ^ (8 * data.length) * poly (bits (crcByte crc16 byte)))
    have split : poly (dataBits (byte :: data)) =
        poly (bits byte.toBitVec) * X ^ (8 * data.length) + poly (dataBits data) := by
      rw [← dataBits_length data, ← poly_append]
      rfl
    have sum := dvd_add rest first
    have same : poly (bits ((byte :: data).foldl crcByte crc16)) +
        (X ^ 16 * poly (dataBits (byte :: data)) + X ^ (8 * (byte :: data).length) * poly (bits crc16)) =
        poly (bits (data.foldl crcByte (crcByte crc16 byte))) +
          (X ^ 16 * poly (dataBits data) + X ^ (8 * data.length) * poly (bits (crcByte crc16 byte))) +
        X ^ (8 * data.length) * (poly (bits (crcByte crc16 byte)) +
          (X ^ 8 * poly (bits crc16) + X ^ 16 * poly (bits byte.toBitVec))) := by
      rw [split, List.foldl_cons, List.length_cons]
      linear_combination -twice
    rw [same]
    exact sum

theorem generator_taps : generator taps = X ^ 16 + X ^ 15 + X ^ 2 + 1 := by
  have list : bits taps = [true, false, false, false, false, false, false, false, false, false, false,
      false, false, true, false, true] := by decide
  rw [generator, list]
  simp [poly, coefficient, add_assoc]

theorem start_ones : poly (bits (0xffff : Word 2)) = ∑ i ∈ Finset.range 16, X ^ i := by
  have list : bits (0xffff : Word 2) = List.replicate 16 true := by decide
  rw [list, poly_ones]

theorem crc_remainder (data after : Bytes) : ∃ crc : Word 2,
    crcBe16 (data ++ after) data.length = .ok crc ∧
    crcLe16 (data ++ after) data.length = .ok (bswap crc) ∧
    poly (bits crc) = (X ^ 16 * poly (dataBits data) +
      X ^ (8 * data.length) * ∑ i ∈ Finset.range 16, X ^ i) %ₘ (X ^ 16 + X ^ 15 + X ^ 2 + 1) := by
  refine ⟨crcRegister data, crcBe16_register data after, crcLe16_register data after, ?_⟩
  have same := register_poly 0xffff data
  rw [start_ones] at same
  rw [← generator_taps]
  exact register_remainder taps same

example : crcBe16 (CString.ascii "123456789") 9 = .ok 0x4b37 := by decide +kernel

theorem generator_unit : IsCoprime X (generator taps) := by
  rw [generator_taps]
  refine ⟨X ^ 15 + X ^ 14 + X, 1, ?_⟩
  have twice := CharTwo.add_self_eq_zero (X ^ 16 + X ^ 15 + X ^ 2 : (ZMod 2)[X])
  linear_combination twice

/-- The bytes of a value, least significant first, are its bits in the order of a register. -/
theorem dataBits_word (v : Word 2) : dataBits (bytesOf .little v) = bits v := by
  have bytes : bytesOf .little v = littleBytes 2 v.toNat := (littleBytes_byteAt 2 v.toNat).symm
  have low : (UInt8.ofNat (v.toNat % 256)).toBitVec = v.setWidth 8 := by
    apply BitVec.eq_of_toNat_eq
    simp
  have high : (UInt8.ofNat (v.toNat / 256 % 256)).toBitVec = (v >>> 8).setWidth 8 := by
    apply BitVec.eq_of_toNat_eq
    simp [Nat.shiftRight_eq_div_pow]
  have halves := @bits_append 8 8 v
  rw [bytes, halves, ← low, ← high]
  simp [dataBits, littleBytes]

theorem bytes_word (a b : UInt8) : bytesOf .little (loadWord .little 2 [a, b]) = [a, b] := by
  have stored : storeWord .little (loadWord .little 2 [a, b]) = [a, b] := storeWord_loadWord .little rfl
  rw [← storeWord_bytesOf, stored]

/-- Two more bytes leave nothing in the register exactly when they are what it held. -/
theorem register_cleared (data : Bytes) (a b : UInt8) :
    crcRegister (data ++ [a, b]) = 0 ↔ bytesOf .little (crcRegister data) = [a, b] := by
  have steps := register_poly (crcRegister data) [a, b]
  have word := dataBits_word (loadWord .little 2 [a, b])
  rw [bytes_word] at word
  have joined : (crcRegister (data ++ [a, b])) = [a, b].foldl crcByte (crcRegister data) :=
    List.foldl_append
  rw [← joined, word] at steps
  constructor
  · intro cleared
    have zero : poly (bits (0 : Word 2)) = 0 := poly_zeros 16
    rw [cleared, zero, zero_add, List.length_cons, List.length_singleton, ← mul_add] at steps
    have held := registers_same taps (generator_unit.symm.pow_right.dvd_of_dvd_mul_left steps)
    rw [← held, bytes_word]
  · intro held
    have same : loadWord .little 2 [a, b] = crcRegister data := by
      rw [← held, ← storeWord_bytesOf, loadWord_storeWord]
    have twice := CharTwo.add_self_eq_zero (X ^ 16 * poly (bits (crcRegister data)))
    rw [same, List.length_cons, List.length_singleton, twice, add_zero] at steps
    have zero : poly (bits (0 : Word 2)) = 0 := poly_zeros 16
    apply registers_same taps
    rw [zero, add_zero]
    exact steps

theorem pack16 (host order : ByteOrder) (mem : Bytes) (p : Nat) (val : Word 2) :
    pack host order .w16 mem p val = (do
      let mem ← write mem p (bytesOf order val)
      return (mem, 2)) := pack_bytesOf host order .w16 mem p val

theorem pack16_written (host : ByteOrder) (val : Word 2) (a b : UInt8) :
    (∀ mem p, pack host .little .w16 mem p val = (do
      let mem ← write mem p [a, b]
      return (mem, 2))) ↔ bytesOf .little val = [a, b] := by
  have size : (bytesOf .little val).length = 2 := by simp [bytesOf, leastFirst]
  constructor
  · intro written
    have here := (pack16 host .little [0, 0] 0 val).symm.trans (written [0, 0] 0)
    have packed : write [0, 0] 0 (bytesOf .little val) = .ok (bytesOf .little val) := by
      rw [write_start (by simp [size]), size]
      simp
    have asked : write [0, 0] 0 [a, b] = .ok [a, b] := write_start (by simp)
    simpa [packed, asked] using here
  · intro held mem p
    rw [← held]
    exact pack16 host .little mem p val

theorem crc_check_bytes (host : ByteOrder) (data : Bytes) (a b : UInt8) :
    (crcBe16 (data ++ [a, b]) (data.length + 2) = .ok 0 ↔ ∀ mem p, (do
      let crc ← crcBe16 data data.length
      pack host .little .w16 mem p crc) = (do
      let mem ← write mem p [a, b]
      return (mem, 2))) ∧
    ∀ mem p, (do
      let crc ← crcBe16 data data.length
      pack host .little .w16 mem p crc) = (do
      let crc ← crcLe16 data data.length
      pack host .big .w16 mem p crc) := by
  have value := crcBe16_register data []
  have framed := crcBe16_register (data ++ [a, b]) []
  have swapped := crcLe16_register data []
  rw [List.append_nil] at value framed swapped
  simp only [value, swapped, ok_bind]
  constructor
  · have length : ((data.length : Int) + 2) = ((data ++ [a, b]).length : Nat) := by simp
    rw [length, framed]
    simp only [Except.ok.injEq, register_cleared]
    exact (pack16_written host (crcRegister data) a b).symm
  · intro mem p
    have order : bytesOf .big (bswap (crcRegister data)) = bytesOf .little (crcRegister data) := by
      rw [← storeWord_bytesOf, storeWord_bswap, storeWord_bytesOf]
      rfl
    have packed := pack16 host .big mem p (bswap (crcRegister data))
    rw [order] at packed
    exact (pack16 host .little mem p (crcRegister data)).trans packed.symm

end Newplat
