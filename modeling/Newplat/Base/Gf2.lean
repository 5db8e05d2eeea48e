import Mathlib.Algebra.CharP.Two
import Mathlib.Algebra.Polynomial.Div
import Mathlib.Algebra.Polynomial.Monic
import Mathlib.Algebra.Polynomial.RingDivision
import Mathlib.Algebra.Field.ZMod
import Mathlib.RingTheory.AdjoinRoot
import Mathlib.RingTheory.Coprime.Lemmas
import Mathlib.RingTheory.Polynomial.DegreeLT
import Mathlib.Tactic.LinearCombination

/-! Bits as polynomials over the two-element field, and the shift register that divides them.
A register's bit 0 stands for its highest power. -/
namespace Newplat.Base

open Polynomial

def coefficient (b : Bool) : ZMod 2 := if b then 1 else 0

/-- The highest power first. -/
noncomputable def poly : List Bool → (ZMod 2)[X]
  | [] => 0
  | b :: bs => C (coefficient b) * X ^ bs.length + poly bs

def bits {w : Nat} (r : BitVec w) : List Bool := List.ofFn fun i : Fin w => r.getLsbD i

/-- The positions at which two lists of bits differ. -/
def differences (as bs : List Bool) : Finset Nat :=
  (Finset.range as.length).filter fun i => as[i]? ≠ bs[i]?

/-- Two lists of one length, taken apart together. -/
theorem pairs_induction {α β : Type} {motive : (as : List α) → (bs : List β) → as.length = bs.length → Prop}
    (nil : motive [] [] rfl)
    (cons : ∀ a as b bs (rest : as.length = bs.length), motive as bs rest →
      motive (a :: as) (b :: bs) (congrArg Nat.succ rest))
    (as : List α) (bs : List β) (size : as.length = bs.length) : motive as bs size := by
  induction as generalizing bs with
  | nil =>
    cases bs with
    | nil => exact nil
    | cons b bs => cases size
  | cons a as ih =>
    cases bs with
    | nil => cases size
    | cons b bs =>
      have rest : as.length = bs.length := Nat.succ.inj size
      exact cons a as b bs rest (ih bs rest)

theorem coefficient_xor (a b : Bool) : coefficient (a ^^ b) = coefficient a + coefficient b := by
  cases a <;> cases b <;> decide

theorem coefficient_same {a b : Bool} : coefficient a = coefficient b ↔ a = b := by
  cases a <;> cases b <;> decide

@[simp] theorem bits_length {w : Nat} (r : BitVec w) : (bits r).length = w := by
  simp [bits]

@[simp] theorem bits_getElem {w i : Nat} (r : BitVec w) (inside : i < (bits r).length) :
    (bits r)[i] = r.getLsbD i := by
  simp only [bits, List.getElem_ofFn]

theorem bits_inj {w : Nat} {r s : BitVec w} (same : bits r = bits s) : r = s := by
  apply BitVec.eq_of_getLsbD_eq
  intro i inside
  have here : (bits r)[i]? = (bits s)[i]? := by rw [same]
  simpa [bits, inside] using here

theorem poly_append (as bs : List Bool) : poly (as ++ bs) = poly as * X ^ bs.length + poly bs := by
  induction as with
  | nil => simp [poly]
  | cons a as ih =>
    simp only [List.cons_append, poly, ih, List.length_append, pow_add]
    ring

theorem poly_zeros (n : Nat) : poly (List.replicate n false) = 0 := by
  induction n with
  | zero => rfl
  | succ n ih => simp [List.replicate_succ, poly, ih, coefficient]

theorem poly_ones (n : Nat) : poly (List.replicate n true) = ∑ i ∈ Finset.range n, X ^ i := by
  induction n with
  | zero => rfl
  | succ n ih => simp [List.replicate_succ, poly, ih, coefficient, Finset.sum_range_succ, add_comm]

theorem poly_degree (bs : List Bool) : (poly bs).degree < bs.length := by
  induction bs with
  | nil => simp [poly]
  | cons b bs ih =>
    have head : (C (coefficient b) * X ^ bs.length).degree ≤ (bs.length : WithBot ℕ) :=
      degree_C_mul_X_pow_le _ _
    have longer : (bs.length : WithBot ℕ) < ((b :: bs).length : ℕ) := by
      rw [List.length_cons]
      exact_mod_cast Nat.lt_succ_self bs.length
    exact lt_of_le_of_lt (degree_add_le _ _) (max_lt (lt_of_le_of_lt head longer) (ih.trans longer))

theorem poly_xor {as bs : List Bool} (size : as.length = bs.length) :
    poly (List.zipWith xor as bs) = poly as + poly bs := by
  induction as, bs, size using pairs_induction with
  | nil => simp [poly]
  | cons a as b bs rest ih =>
    simp only [List.zipWith_cons_cons, poly, ih, coefficient_xor, C_add, List.length_zipWith, rest, min_self]
    ring

theorem bits_xor {w : Nat} (r s : BitVec w) : bits (r ^^^ s) = List.zipWith xor (bits r) (bits s) := by
  apply List.ext_getElem
  · simp
  · simp

theorem bits_poly_xor {w : Nat} (r s : BitVec w) :
    poly (bits (r ^^^ s)) = poly (bits r) + poly (bits s) := by
  rw [bits_xor, poly_xor (by simp)]

theorem same_iff_sum_zero {p q : (ZMod 2)[X]} : p = q ↔ p + q = 0 := by
  rw [← sub_eq_zero, CharTwo.sub_eq_add]

/-- A difference of two lists is the sum of the powers at the positions where they differ. -/
theorem poly_differences {as bs : List Bool} (size : as.length = bs.length) :
    poly as + poly bs = ∑ i ∈ differences as bs, X ^ (as.length - 1 - i) := by
  induction as, bs, size using pairs_induction with
  | nil => simp [poly, differences]
  | cons a as b bs rest ih =>
    have tail : ∑ i ∈ differences as bs, (X : (ZMod 2)[X]) ^ (as.length - 1 - i) =
        ∑ i ∈ (Finset.range as.length).filter fun i => (a :: as)[i + 1]? ≠ (b :: bs)[i + 1]?,
          X ^ ((a :: as).length - 1 - (i + 1)) := by
      simp only [differences, List.getElem?_cons_succ, List.length_cons]
      apply Finset.sum_congr rfl
      intro i _
      congr 1
      omega
    have head : C (coefficient a) * X ^ as.length + C (coefficient b) * X ^ bs.length =
        if (a :: as)[0]? ≠ (b :: bs)[0]? then (X : (ZMod 2)[X]) ^ as.length else 0 := by
      rw [← rest, ← add_mul, ← C_add, ← coefficient_xor]
      cases a <;> cases b <;> simp [coefficient]
    have apart : poly (a :: as) + poly (b :: bs) =
        (C (coefficient a) * X ^ as.length + C (coefficient b) * X ^ bs.length) +
          (poly as + poly bs) := by
      simp only [poly]
      ring
    have split : ∑ i ∈ differences (a :: as) (b :: bs), (X : (ZMod 2)[X]) ^ ((a :: as).length - 1 - i) =
        (∑ i ∈ (Finset.range as.length).filter fun i => (a :: as)[i + 1]? ≠ (b :: bs)[i + 1]?,
          X ^ ((a :: as).length - 1 - (i + 1))) +
        if (a :: as)[0]? ≠ (b :: bs)[0]? then X ^ as.length else 0 := by
      rw [differences, List.length_cons, Finset.sum_filter, Finset.sum_range_succ', Finset.sum_filter]
      rfl
    rw [apart, ih, head, tail, split, add_comm]

theorem differences_bound {as bs : List Bool} {i : Nat} (differs : i ∈ differences as bs) :
    i < as.length :=
  Finset.mem_range.mp (Finset.mem_filter.mp differs).1

theorem poly_inj {as bs : List Bool} (size : as.length = bs.length) (same : poly as = poly bs) : as = bs := by
  induction as, bs, size using pairs_induction with
  | nil => rfl
  | cons a as b bs rest ih =>
    have top {c : Bool} {cs : List Bool} : (poly (c :: cs)).coeff cs.length = coefficient c := by
      have below : (poly cs).coeff cs.length = 0 := coeff_eq_zero_of_degree_lt (poly_degree cs)
      simp [poly, below]
    have heads : coefficient a = coefficient b := by
      rw [← @top a as, ← @top b bs, same, rest]
    have letters := coefficient_same.mp heads
    subst letters
    have tails : poly as = poly bs := by simpa [poly, rest] using same
    rw [ih tails]

/-- A register that shifts towards bit 0 and puts its taps in when a set bit falls out. -/
def shiftStep {w : Nat} (taps r : BitVec w) : BitVec w :=
  if r.getLsbD 0 then (r >>> 1) ^^^ taps else r >>> 1

noncomputable def generator {w : Nat} (taps : BitVec w) : (ZMod 2)[X] := X ^ w + poly (bits taps)

section Register

variable {w : Nat} (taps : BitVec w)

theorem bits_degree (r : BitVec w) : (poly (bits r)).degree < w := by
  simpa using poly_degree (bits r)

theorem generator_monic : (generator taps).Monic :=
  monic_X_pow_add (bits_degree taps)

theorem generator_degree : (generator taps).degree = w := by
  have leading : (poly (bits taps)).degree < (X ^ w : (ZMod 2)[X]).degree := by
    rw [degree_X_pow]
    exact bits_degree taps
  rw [generator, degree_add_eq_left_of_degree_lt leading, degree_X_pow]

/-- A shift multiplies by the variable, less the power that falls out at the top. -/
theorem bits_shift (r : BitVec (w + 1)) :
    poly (bits (r >>> 1)) = X * poly (bits r) + C (coefficient (r.getLsbD 0)) * X ^ (w + 1) := by
  have out : bits r = r.getLsbD 0 :: List.ofFn fun i : Fin w => r.getLsbD (i + 1) := by
    simp [bits, List.ofFn_succ]
  have entered : bits (r >>> 1) = (List.ofFn fun i : Fin w => r.getLsbD (i + 1)) ++ [false] := by
    apply List.ext_getElem
    · simp
    · intro i inside _
      rw [bits_getElem, BitVec.getLsbD_ushiftRight, List.getElem_append]
      split
      · rw [List.getElem_ofFn]
        exact congrArg r.getLsbD (Nat.add_comm 1 i)
      · rename_i last
        have top : w + 1 ≤ 1 + i := by
          simp at last
          omega
        simp [BitVec.getLsbD_of_ge r (1 + i) top]
  have twice := CharTwo.add_self_eq_zero (C (coefficient (r.getLsbD 0)) * X ^ (w + 1) : (ZMod 2)[X])
  rw [entered, out, poly_append]
  simp only [poly, List.length_ofFn, List.length_cons, List.length_nil, coefficient, Bool.false_eq_true,
    if_false, C_0] at twice ⊢
  linear_combination -twice

/-- Modulo the generator, a step multiplies by the variable. -/
theorem shiftStep_poly (wide : 0 < w) (r : BitVec w) :
    generator taps ∣ poly (bits (shiftStep taps r)) + X * poly (bits r) := by
  obtain ⟨w, rfl⟩ := Nat.exists_eq_succ_of_ne_zero wide.ne'
  have twice := CharTwo.add_self_eq_zero (X * poly (bits r))
  have shifted := bits_shift r
  cases low : r.getLsbD 0 with
  | false =>
    simp only [low, coefficient, Bool.false_eq_true, if_false, C_0] at shifted
    have none : poly (bits (shiftStep taps r)) + X * poly (bits r) = 0 := by
      simp only [shiftStep, low, Bool.false_eq_true, if_false, shifted]
      linear_combination twice
    rw [none]
    exact dvd_zero _
  | true =>
    simp only [low, coefficient, if_true, C_1] at shifted
    have once : poly (bits (shiftStep taps r)) + X * poly (bits r) = generator taps := by
      simp only [shiftStep, low, if_true, bits_poly_xor, shifted, generator, Nat.succ_eq_add_one]
      linear_combination twice
    rw [once]

theorem shiftSteps_poly (wide : 0 < w) (n : Nat) (r : BitVec w) :
    generator taps ∣ poly (bits ((shiftStep taps)^[n] r)) + X ^ n * poly (bits r) := by
  induction n generalizing r with
  | zero => simp [CharTwo.add_self_eq_zero]
  | succ n ih =>
    have first := Dvd.dvd.mul_left (shiftStep_poly taps wide r) (X ^ n)
    have rest := ih (shiftStep taps r)
    have twice := CharTwo.add_self_eq_zero (X ^ n * poly (bits (shiftStep taps r)))
    have sum : poly (bits ((shiftStep taps)^[n + 1] r)) + X ^ (n + 1) * poly (bits r) =
        (poly (bits ((shiftStep taps)^[n] (shiftStep taps r))) +
          X ^ n * poly (bits (shiftStep taps r))) +
        X ^ n * (poly (bits (shiftStep taps r)) + X * poly (bits r)) := by
      rw [Function.iterate_succ_apply]
      linear_combination -twice
    rw [sum]
    exact dvd_add rest first

theorem bits_setWidth {n k : Nat} (b : BitVec n) : poly (bits (b.setWidth (n + k))) = poly (bits b) * X ^ k := by
  have padded : bits (b.setWidth (n + k)) = bits b ++ List.replicate k false := by
    apply List.ext_getElem
    · simp
    · intro i inside _
      rw [bits_getElem, BitVec.getLsbD_setWidth, List.getElem_append]
      split
      · rename_i low
        simp at low
        simp
        omega
      · rename_i high
        simp at high
        simp [BitVec.getLsbD_of_ge b i high]
  rw [padded, poly_append, poly_zeros]
  simp

theorem bits_append {n k : Nat} (r : BitVec (n + k)) :
    bits r = bits (r.setWidth n) ++ bits ((r >>> n).setWidth k) := by
  apply List.ext_getElem
  · simp
  · intro i inside _
    have whole : i < n + k := by simpa using inside
    rw [bits_getElem, List.getElem_append]
    split
    · rename_i low
      have first : i < n := by simpa using low
      rw [bits_getElem, BitVec.getLsbD_setWidth, decide_eq_true first, Bool.true_and]
    · rename_i high
      have second : i - n < k := by
        simp at high
        omega
      have back : n + (i - n) = i := by
        simp at high
        omega
      rw [bits_getElem, BitVec.getLsbD_setWidth, BitVec.getLsbD_ushiftRight, bits_length,
        decide_eq_true second, Bool.true_and, back]

/-- What a register holds is determined by its class modulo the generator. -/
theorem register_remainder {r : BitVec w} {p : (ZMod 2)[X]} (same : generator taps ∣ poly (bits r) + p) :
    poly (bits r) = p %ₘ generator taps := by
  obtain ⟨q, quotient⟩ := same
  have small : (poly (bits r)).degree < (generator taps).degree := by
    rw [generator_degree]
    exact bits_degree r
  have twice := CharTwo.add_self_eq_zero (poly (bits r))
  have whole : poly (bits r) + generator taps * q = p := by linear_combination twice - quotient
  exact (div_modByMonic_unique q _ (generator_monic taps) ⟨whole, small⟩).2.symm

theorem registers_same {r s : BitVec w} (same : generator taps ∣ poly (bits r) + poly (bits s)) : r = s := by
  have small : (poly (bits s)).degree < (generator taps).degree := by
    rw [generator_degree]
    exact bits_degree s
  have remainder := register_remainder taps same
  rw [(modByMonic_eq_self_iff (generator_monic taps)).mpr small] at remainder
  exact bits_inj (poly_inj (by simp) remainder)

end Register

/-! Which differences a divisor finds. -/
section Errors

variable {g : (ZMod 2)[X]} {as bs : List Bool}

/-- The lowest power of a difference can be taken out. -/
theorem differences_shifted (size : as.length = bs.length) {k : Nat}
    (above : ∀ i ∈ differences as bs, k ≤ as.length - 1 - i) :
    poly as + poly bs = X ^ k * ∑ i ∈ differences as bs, X ^ (as.length - 1 - i - k) := by
  rw [poly_differences size, Finset.mul_sum]
  apply Finset.sum_congr rfl
  intro i differs
  have enough := above i differs
  rw [← pow_add]
  congr 1
  omega

theorem divides_shifted (unit : IsCoprime X g) (size : as.length = bs.length) {k : Nat}
    (above : ∀ i ∈ differences as bs, k ≤ as.length - 1 - i) :
    g ∣ poly as + poly bs ↔ g ∣ ∑ i ∈ differences as bs, X ^ (as.length - 1 - i - k) := by
  rw [differences_shifted size above]
  constructor
  · exact (unit.symm.pow_right).dvd_of_dvd_mul_left
  · exact fun rest => Dvd.dvd.mul_left rest _

theorem same_of_sum (size : as.length = bs.length) (none : poly as + poly bs = 0) : as = bs :=
  poly_inj size (same_iff_sum_zero.mpr none)

/-- No multiple of a divisor with `w` powers below its leading one fits in `w` positions. -/
theorem burst_found (unit : IsCoprime X g) (size : as.length = bs.length) {start : Nat}
    {w : Nat} (degree : g.degree = w) (window : ∀ i ∈ differences as bs, start ≤ i ∧ i < start + w)
    (divides : g ∣ poly as + poly bs) : as = bs := by
  have above : ∀ i ∈ differences as bs, as.length - start - w ≤ as.length - 1 - i := by
    intro i differs
    have inside := window i differs
    have bound := differences_bound differs
    omega
  have low : (∑ i ∈ differences as bs, (X : (ZMod 2)[X]) ^
      (as.length - 1 - i - (as.length - start - w))).degree < g.degree := by
    rw [degree, ← mem_degreeLT]
    apply Submodule.sum_mem
    intro i differs
    have inside := window i differs
    have bound := differences_bound differs
    rw [mem_degreeLT, degree_X_pow]
    exact_mod_cast (by omega : as.length - 1 - i - (as.length - start - w) < w)
  have zero := eq_zero_of_dvd_of_degree_lt ((divides_shifted unit size above).mp divides) low
  apply same_of_sum size
  rw [differences_shifted size above, zero, mul_zero]

theorem odd_found (parity : X + 1 ∣ g) (size : as.length = bs.length)
    (odd : Odd (differences as bs).card) : ¬ g ∣ poly as + poly bs := by
  intro divides
  obtain ⟨q, quotient⟩ := parity.trans divides
  have value := congrArg (eval 1) quotient
  rw [poly_differences size] at value
  simp [eval_finsetSum, CharTwo.add_self_eq_zero] at value
  rw [ZMod.natCast_eq_zero_iff_even] at value
  exact (Nat.not_even_iff_odd.mpr odd) value

theorem pair_found (unit : IsCoprime X g) (size : as.length = bs.length) {i j n : Nat} (before : i < j)
    (pair : differences as bs = {i, j}) (close : j - i < n)
    (order : ∀ d, 0 < d → d < n → ¬ g ∣ X ^ d + 1) : ¬ g ∣ poly as + poly bs := by
  intro divides
  have bound : j < as.length := differences_bound (by rw [pair]; simp)
  have above : ∀ x ∈ differences as bs, as.length - 1 - j ≤ as.length - 1 - x := by
    intro x differs
    rw [pair] at differs
    simp at differs
    omega
  have rest := (divides_shifted unit size above).mp divides
  have apart : as.length - 1 - i - (as.length - 1 - j) = j - i := by omega
  rw [pair, Finset.sum_pair before.ne, apart, Nat.sub_self, pow_zero] at rest
  exact order (j - i) (by omega) close rest

/-- A power below the order of the variable is not one. -/
theorem powers_apart {n : Nat} (order : orderOf (AdjoinRoot.root g) = n) {d : Nat} (some : 0 < d) (below : d < n) :
    ¬ g ∣ X ^ d + 1 := by
  intro divides
  rw [← CharTwo.sub_eq_add, ← AdjoinRoot.mk_eq_mk, map_pow, AdjoinRoot.mk_X, map_one] at divides
  have again := orderOf_dvd_of_pow_eq_one divides
  exact absurd (Nat.le_of_dvd some again) (by omega)

end Errors

end Newplat.Base
