import Newplat.Base.Memory

/-! The decimal text of a number: its bytes are digits, and reading them gives the number. -/
namespace Newplat.Base

/-- `n` in decimal. -/
def numeral (n : Nat) : Bytes := (Nat.toDigits 10 n).map fun c => UInt8.ofNat c.toNat

theorem digit_toNat {c : Char} (digit : c.isDigit = true) : (UInt8.ofNat c.toNat).toNat = c.toNat := by
  obtain ⟨-, high⟩ := Char.isDigit_iff_toNat.mp digit
  have nine : '9'.toNat = 57 := rfl
  rw [UInt8.toNat_ofNat']
  omega

theorem numeral_digits {n : Nat} {b : UInt8} (member : b ∈ numeral n) : 48 ≤ b ∧ b ≤ 57 := by
  obtain ⟨c, char, rfl⟩ := List.mem_map.mp member
  have digit : c.isDigit = true := Nat.isDigit_of_mem_toDigits (b := 10) (by decide) (by decide) char
  rw [UInt8.le_iff_toNat_le, UInt8.le_iff_toNat_le, digit_toNat digit]
  exact Char.isDigit_iff_toNat.mp digit

theorem digits_value (cs : List Char) (digits : ∀ c ∈ cs, c.isDigit = true) (start : Nat) :
    (cs.map fun c => UInt8.ofNat c.toNat).foldl (fun n b => 10 * n + (b.toNat - 48)) start =
      Nat.ofDigitChars 10 cs start := by
  induction cs generalizing start with
  | nil => simp
  | cons c cs ih =>
    have first := digit_toNat (digits c List.mem_cons_self)
    rw [List.map_cons, List.foldl_cons, first, ih fun c member => digits c (List.mem_cons_of_mem _ member),
      Nat.ofDigitChars_cons]
    rfl

theorem numeral_value (n : Nat) :
    (numeral n).foldl (fun n b => 10 * n + (b.toNat - 48)) 0 = n := by
  rw [numeral, digits_value _ fun c => Nat.isDigit_of_mem_toDigits (by decide) (by decide),
    Nat.ofDigitChars_ten_toDigits]

theorem numeral_length {n k : Nat} (positive : 0 < k) : (numeral n).length ≤ k ↔ n < 10 ^ k := by
  rw [numeral, List.length_map, Nat.length_toDigits_le_iff (by decide) positive]

theorem ascii_int (v : Int) : CString.ascii (toString v) =
    if 0 ≤ v then numeral v.toNat else 45 :: numeral (-v).toNat := by
  rw [Int.toString_eq_repr, Int.repr_eq_if]
  split
  · rw [CString.ascii, Nat.toList_repr, numeral]
  · rw [CString.ascii, String.toList_append, Nat.toList_repr]
    rfl

theorem numeral_takeWhile (n : Nat) : (numeral n).takeWhile (fun b => 48 ≤ b ∧ b ≤ 57) = numeral n := by
  rw [List.takeWhile_eq_self_iff]
  intro b member
  exact decide_eq_true (numeral_digits member)

def digitBytes (ds : List (Fin 10)) : Bytes := ds.map fun d => UInt8.ofNat (48 + d.val)

/-- The number digits spell, the first one most significant. -/
def spelled (ds : List (Fin 10)) : Nat := Nat.ofDigits 10 (ds.reverse.map Fin.val)

theorem digitByte_toNat (d : Fin 10) : (UInt8.ofNat (48 + d.val)).toNat = 48 + d.val := by
  rw [UInt8.toNat_ofNat']
  omega

theorem digitBytes_digits {ds : List (Fin 10)} {b : UInt8} (member : b ∈ digitBytes ds) : 48 ≤ b ∧ b ≤ 57 := by
  obtain ⟨d, _, rfl⟩ := List.mem_map.mp member
  have low : (48 : UInt8).toNat = 48 := rfl
  have high : (57 : UInt8).toNat = 57 := rfl
  rw [UInt8.le_iff_toNat_le, UInt8.le_iff_toNat_le, digitByte_toNat, low, high]
  omega

theorem digitBytes_value (ds : List (Fin 10)) :
    (digitBytes ds).foldl (fun n b => 10 * n + (b.toNat - 48)) 0 = spelled ds := by
  induction ds using List.reverseRecOn with
  | nil => rfl
  | append_singleton ds d ih =>
    simp only [digitBytes, spelled] at ih
    simp only [digitBytes, spelled, List.map_append, List.foldl_append, ih, List.map_cons, List.map_nil,
      List.foldl_cons, List.foldl_nil, digitByte_toNat, List.reverse_append, List.reverse_cons, List.reverse_nil,
      List.nil_append, List.singleton_append, Nat.ofDigits_cons]
    omega

theorem spelled_bound (ds : List (Fin 10)) : spelled ds < 10 ^ ds.length := by
  have digits : ∀ x ∈ ds.reverse.map Fin.val, x < 10 := by
    intro x member
    obtain ⟨d, _, rfl⟩ := List.mem_map.mp member
    exact d.isLt
  have bound := Nat.ofDigits_lt_base_pow_length (by decide) digits
  rwa [List.length_map, List.length_reverse] at bound

/-- The last `k` decimal digits of a number, zeros in front. -/
def fixedWidth : Nat → Nat → Bytes
  | 0, _ => []
  | k + 1, n => fixedWidth k (n / 10) ++ [UInt8.ofNat (48 + n % 10)]

theorem fixedWidth_length (k n : Nat) : (fixedWidth k n).length = k := by
  induction k generalizing n with
  | zero => rfl
  | succ k ih => rw [fixedWidth, List.length_append, ih, List.length_singleton]

theorem fixedWidth_inj {k m n : Nat} (small : m < 10 ^ k) (small' : n < 10 ^ k)
    (same : fixedWidth k m = fixedWidth k n) : m = n := by
  induction k generalizing m n with
  | zero =>
    rw [Nat.pow_zero] at small small'
    omega
  | succ k ih =>
    rw [Nat.pow_succ] at small small'
    obtain ⟨front, last⟩ := List.append_inj same (by rw [fixedWidth_length, fixedWidth_length])
    have tens : m / 10 = n / 10 := ih (by omega) (by omega) front
    have bytes := congrArg UInt8.toNat (List.cons.inj last).1
    rw [UInt8.toNat_ofNat', UInt8.toNat_ofNat'] at bytes
    omega

end Newplat.Base
