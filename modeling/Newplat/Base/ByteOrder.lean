import Newplat.Base.Memory

/-! Words of whole bytes and the two ways a host lays them out in memory. -/
namespace Newplat.Base

abbrev Word (n : Nat) := BitVec (8 * n)

inductive ByteOrder where
  | little
  | big
  deriving DecidableEq, Repr

def littleBytes : Nat → Nat → Bytes
  | 0, _ => []
  | n + 1, v => UInt8.ofNat (v % 256) :: littleBytes n (v / 256)

def littleValue : Bytes → Nat
  | [] => 0
  | b :: bs => b.toNat + 256 * littleValue bs

theorem littleBytes_length (n v : Nat) : (littleBytes n v).length = n := by
  induction n generalizing v with
  | zero => rfl
  | succ n ih => rw [littleBytes, List.length_cons, ih]

theorem littleValue_bound (bs : Bytes) : littleValue bs < 256 ^ bs.length := by
  induction bs with
  | nil => exact Nat.one_pos
  | cons b bs ih =>
    have byte := b.toNat_lt
    rw [littleValue, List.length_cons, Nat.pow_succ]
    omega

theorem littleValue_littleBytes {n v : Nat} (bounded : v < 256 ^ n) :
    littleValue (littleBytes n v) = v := by
  induction n generalizing v with
  | zero =>
    have zero : v = 0 := by simpa using bounded
    subst v
    rfl
  | succ n ih =>
    have small : v / 256 < 256 ^ n := by
      rw [Nat.pow_succ] at bounded
      exact Nat.div_lt_of_lt_mul (by omega)
    have low : (UInt8.ofNat (v % 256)).toNat = v % 256 := by
      rw [UInt8.toNat_ofNat']
      omega
    rw [littleBytes, littleValue, ih small, low]
    omega

theorem littleBytes_littleValue (bs : Bytes) : littleBytes bs.length (littleValue bs) = bs := by
  induction bs with
  | nil => rfl
  | cons b bs ih =>
    have byte := b.toNat_lt
    have low : (b.toNat + 256 * littleValue bs) % 256 = b.toNat := by omega
    have high : (b.toNat + 256 * littleValue bs) / 256 = littleValue bs := by omega
    rw [List.length_cons, littleValue, littleBytes, low, high, ih, UInt8.ofNat_toNat]

theorem littleValue_append (xs ys : Bytes) :
    littleValue (xs ++ ys) = littleValue xs + 256 ^ xs.length * littleValue ys := by
  induction xs with
  | nil => simp [littleValue]
  | cons x xs ih =>
    rw [List.cons_append, littleValue, ih, littleValue, List.length_cons, Nat.pow_succ]
    grind

theorem littleValue_zero {bs : Bytes} (zero : littleValue bs = 0) : ∀ b ∈ bs, b = 0 := by
  induction bs with
  | nil => simp
  | cons b bs ih =>
    rw [littleValue] at zero
    have first : b.toNat = 0 := by omega
    have later := ih (by omega)
    simpa using ⟨UInt8.toNat_inj.mp first, later⟩

theorem littleValue_zeros (n : Nat) : littleValue (List.replicate n 0) = 0 := by
  induction n with
  | zero => rfl
  | succ n ih =>
    rw [List.replicate_succ, littleValue, ih]
    rfl

def ByteOrder.arrange (o : ByteOrder) (bs : Bytes) : Bytes :=
  match o with
  | .little => bs
  | .big => bs.reverse

theorem arrange_arrange (o : ByteOrder) (bs : Bytes) : o.arrange (o.arrange bs) = bs := by
  cases o with
  | little => rfl
  | big => exact List.reverse_reverse bs

theorem arrange_length (o : ByteOrder) (bs : Bytes) : (o.arrange bs).length = bs.length := by
  cases o with
  | little => rfl
  | big => exact List.length_reverse

def storeWord (o : ByteOrder) {n : Nat} (v : Word n) : Bytes := o.arrange (littleBytes n v.toNat)

def loadWord (o : ByteOrder) (n : Nat) (bs : Bytes) : Word n :=
  BitVec.ofNat (8 * n) (littleValue (o.arrange bs))

/-- `bswap_16`, `bswap_32` and `bswap_64`: the bytes in reverse order. -/
def bswap {n : Nat} (v : Word n) : Word n := loadWord .little n (storeWord .big v)

theorem word_bound {n : Nat} (v : Word n) : v.toNat < 256 ^ n := by
  have bound : v.toNat < 2 ^ (8 * n) := v.isLt
  rwa [Nat.pow_mul] at bound

theorem storeWord_length (o : ByteOrder) {n : Nat} (v : Word n) : (storeWord o v).length = n := by
  rw [storeWord, arrange_length, littleBytes_length]

theorem loadWord_storeWord (o : ByteOrder) {n : Nat} (v : Word n) : loadWord o n (storeWord o v) = v := by
  rw [loadWord, storeWord, arrange_arrange, littleValue_littleBytes (word_bound v)]
  apply BitVec.eq_of_toNat_eq
  rw [BitVec.toNat_ofNat, Nat.mod_eq_of_lt v.isLt]

theorem storeWord_loadWord (o : ByteOrder) {n : Nat} {bs : Bytes} (size : bs.length = n) :
    storeWord o (loadWord o n bs) = bs := by
  subst size
  have bound : littleValue (o.arrange bs) < 2 ^ (8 * bs.length) := by
    have small := littleValue_bound (o.arrange bs)
    have byte : 256 = 2 ^ 8 := rfl
    rwa [arrange_length, byte, ← Nat.pow_mul] at small
  have bytes := littleBytes_littleValue (o.arrange bs)
  rw [arrange_length] at bytes
  rw [storeWord, loadWord, BitVec.toNat_ofNat, Nat.mod_eq_of_lt bound, bytes, arrange_arrange]

def ByteOrder.other : ByteOrder → ByteOrder
  | .little => .big
  | .big => .little

/-- Swapping the bytes first is storing in the other order. -/
theorem storeWord_bswap (o : ByteOrder) {n : Nat} (v : Word n) :
    storeWord o (bswap v) = storeWord o.other v := by
  have swapped : littleBytes n (bswap v).toNat = (littleBytes n v.toNat).reverse :=
    storeWord_loadWord .little (storeWord_length .big v)
  cases o with
  | little => exact swapped
  | big =>
    have back : (littleBytes n (bswap v).toNat).reverse = littleBytes n v.toNat := by
      rw [swapped, List.reverse_reverse]
    exact back

theorem bswap_inj {n : Nat} {v w : Word n} (same : bswap v = bswap w) : v = w := by
  have stored := congrArg (storeWord .little) same
  rw [storeWord_bswap, storeWord_bswap] at stored
  have loaded := congrArg (loadWord (ByteOrder.other .little) n) stored
  rwa [loadWord_storeWord, loadWord_storeWord] at loaded

/-- Swapping the bytes after a load is loading in the other order. -/
theorem bswap_loadWord (o : ByteOrder) {n : Nat} {bs : Bytes} (size : bs.length = n) :
    bswap (loadWord o n bs) = loadWord o.other n bs := by
  have twice : o.other.other = o := by cases o <;> rfl
  have same : storeWord o.other (bswap (loadWord o n bs)) = bs := by
    rw [storeWord_bswap, twice, storeWord_loadWord o size]
  have unique := loadWord_storeWord o.other (bswap (loadWord o n bs))
  rw [same] at unique
  exact unique.symm

end Newplat.Base
