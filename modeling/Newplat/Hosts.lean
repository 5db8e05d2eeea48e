import Newplat.Wire

/-! The two branches of utils.c against each other. What either leaves in memory on its own
host is the same, and so is what either reads. -/
namespace Newplat

open Base

inductive Width where
  | w16
  | w32
  | w64
  deriving DecidableEq

def Width.size : Width → Nat
  | .w16 => 2
  | .w32 => 4
  | .w64 => 8

/-- `pack_beN` or `pack_leN`, of the branch that the host compiles. -/
def pack : ByteOrder → ByteOrder → (w : Width) → Bytes → Nat → Word w.size → Checked (Bytes × Nat)
  | .big, .big, .w16 => BigHost.packBe16
  | .big, .big, .w32 => BigHost.packBe32
  | .big, .big, .w64 => BigHost.packBe64
  | .big, .little, .w16 => BigHost.packLe16
  | .big, .little, .w32 => BigHost.packLe32
  | .big, .little, .w64 => BigHost.packLe64
  | .little, .big, .w16 => LittleHost.packBe16
  | .little, .big, .w32 => LittleHost.packBe32
  | .little, .big, .w64 => LittleHost.packBe64
  | .little, .little, .w16 => LittleHost.packLe16
  | .little, .little, .w32 => LittleHost.packLe32
  | .little, .little, .w64 => LittleHost.packLe64

def unpack : ByteOrder → ByteOrder → (w : Width) → Bytes → Nat → Checked (Word w.size × Nat)
  | .big, .big, .w16 => BigHost.unpackBe16
  | .big, .big, .w32 => BigHost.unpackBe32
  | .big, .big, .w64 => BigHost.unpackBe64
  | .big, .little, .w16 => BigHost.unpackLe16
  | .big, .little, .w32 => BigHost.unpackLe32
  | .big, .little, .w64 => BigHost.unpackLe64
  | .little, .big, .w16 => LittleHost.unpackBe16
  | .little, .big, .w32 => LittleHost.unpackBe32
  | .little, .big, .w64 => LittleHost.unpackBe64
  | .little, .little, .w16 => LittleHost.unpackLe16
  | .little, .little, .w32 => LittleHost.unpackLe32
  | .little, .little, .w64 => LittleHost.unpackLe64

/-- The byte of weight `256 ^ i` of a value. -/
def byteAt (v i : Nat) : UInt8 := UInt8.ofNat (v / 256 ^ i % 256)

def leastFirst {n : Nat} (v : Word n) : Bytes := (List.range n).map fun i => byteAt v.toNat i

def mostFirst {n : Nat} (v : Word n) : Bytes := (List.range n).map fun i => byteAt v.toNat (n - 1 - i)

def bytesOf : ByteOrder → {n : Nat} → Word n → Bytes
  | .little => leastFirst
  | .big => mostFirst

theorem littleBytes_byteAt (n v : Nat) : littleBytes n v = (List.range n).map (byteAt v) := by
  induction n generalizing v with
  | zero => rfl
  | succ n ih =>
    have shifted : byteAt (v / 256) = byteAt v ∘ Nat.succ := by
      funext i
      simp [byteAt, Nat.div_div_eq_div_mul, Nat.pow_succ, Nat.mul_comm]
    simp [littleBytes, ih, shifted, List.range_succ_eq_map, byteAt]

theorem storeWord_bytesOf (o : ByteOrder) {n : Nat} (v : Word n) : storeWord o v = bytesOf o v := by
  cases o with
  | little => exact littleBytes_byteAt n v.toNat
  | big =>
    simp only [storeWord, ByteOrder.arrange, littleBytes_byteAt, bytesOf, mostFirst]
    apply List.ext_getElem
    · simp
    · simp

theorem read_size {xs bs : Bytes} {off : Int} {n : Nat} (reads : Base.read xs off n = .ok bs) :
    bs.length = n := by
  unfold Base.read at reads
  split at reads
  · cases reads
    simp
    omega
  · cases reads

theorem packWord_plain (o : ByteOrder) {n : Nat} (mem : Bytes) (p : Nat) (val : Word n) :
    packWord o id mem p val = (do
      let mem ← write mem p (bytesOf o val)
      return (mem, n)) := by
  rw [packWord, id, storeWord_bytesOf]

theorem packWord_swapped (o : ByteOrder) {n : Nat} (mem : Bytes) (p : Nat) (val : Word n) :
    packWord o bswap mem p val = (do
      let mem ← write mem p (bytesOf o.other val)
      return (mem, n)) := by
  rw [packWord, storeWord_bswap, storeWord_bytesOf]

/-- On either host a word is packed as its bytes in the order asked for. -/
theorem pack_bytesOf (host order : ByteOrder) (w : Width) (mem : Bytes) (p : Nat) (val : Word w.size) :
    pack host order w mem p val = (do
      let mem ← write mem p (bytesOf order val)
      return (mem, w.size)) := by
  cases host with
  | big =>
    cases order with
    | big => cases w <;> exact packWord_plain .big mem p val
    | little => cases w <;> exact packWord_swapped .big mem p val
  | little =>
    cases order with
    | big => cases w <;> exact packWord_swapped .little mem p val
    | little => cases w <;> exact packWord_plain .little mem p val

theorem unpackWord_swapped (o : ByteOrder) (n : Nat) (mem : Bytes) (p : Nat) :
    unpackWord o.other n bswap mem p = unpackWord o n id mem p := by
  unfold unpackWord
  cases reads : Base.read mem p n with
  | error e => rfl
  | ok bs =>
    have twice : o.other.other = o := by cases o <;> rfl
    simp only [ok_bind, id, bswap_loadWord o.other (read_size reads), twice]

/-- The wire format does not depend on the host: the bytes packed are the value's, most
significant first or least significant first, and the same value is read from any bytes. -/
theorem wire_host_independent (order : ByteOrder) (w : Width) (mem : Bytes) (p : Nat) :
    (∀ val, pack .big order w mem p val = pack .little order w mem p val) ∧
    (∀ host val, pack host order w mem p val = (do
      let mem ← write mem p (bytesOf order val)
      return (mem, w.size))) ∧
    unpack .big order w mem p = unpack .little order w mem p := by
  refine ⟨?_, ?_, ?_⟩
  · intro val
    rw [pack_bytesOf, pack_bytesOf]
  · intro host val
    exact pack_bytesOf host order w mem p val
  · cases order with
    | little => cases w <;> exact unpackWord_swapped .little _ mem p
    | big => cases w <;> exact (unpackWord_swapped .big _ mem p).symm

end Newplat
