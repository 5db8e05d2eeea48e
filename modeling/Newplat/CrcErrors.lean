import Newplat.Crc

/-! Which transmission errors the check sum finds. The errors that pass are the multiples of the
polynomial, which has the factor x + 1 and a factor modulo which x has the order 32767. -/
namespace Newplat

open Base Polynomial

/-- The check sums of two frames of one length agree when their difference is a multiple. -/
theorem register_collides {x y : Bytes} (size : x.length = y.length)
    (same : crcRegister x = crcRegister y) : generator taps ∣ poly (dataBits x) + poly (dataBits y) := by
  have first := register_poly 0xffff x
  have second := register_poly 0xffff y
  have registers : x.foldl crcByte 0xffff = y.foldl crcByte 0xffff := same
  have sum := dvd_add first second
  have twice := CharTwo.add_self_eq_zero (poly (bits (y.foldl crcByte 0xffff)))
  have start := CharTwo.add_self_eq_zero (X ^ (8 * y.length) * poly (bits (0xffff : Word 2)))
  rw [registers, size] at sum
  have shifted : generator taps ∣ X ^ 16 * (poly (dataBits x) + poly (dataBits y)) := by
    convert sum using 1
    linear_combination -twice - start
  exact generator_unit.symm.pow_right.dvd_of_dvd_mul_left shifted

theorem dataBits_inj {x y : Bytes} (size : x.length = y.length) (same : dataBits x = dataBits y) : x = y := by
  induction x, y, size using pairs_induction with
  | nil => rfl
  | cons a x b y rest ih =>
    simp only [dataBits, List.flatMap_cons] at same
    obtain ⟨heads, tails⟩ := List.append_inj same (by simp)
    have byte : a = b := UInt8.toBitVec_inj.mp (bits_inj heads)
    rw [byte, ih tails]

theorem crcBe16_differs {x y : Bytes} (differ : crcRegister x ≠ crcRegister y) :
    crcBe16 x x.length ≠ crcBe16 y y.length := by
  have first := crcBe16_register x []
  have second := crcBe16_register y []
  rw [List.append_nil] at first second
  rw [first, second]
  simpa using differ

theorem crcLe16_differs {x y : Bytes} (differ : crcRegister x ≠ crcRegister y) :
    crcLe16 x x.length ≠ crcLe16 y y.length := by
  have first := crcLe16_register x []
  have second := crcLe16_register y []
  rw [List.append_nil] at first second
  rw [first, second]
  intro same
  exact differ (bswap_inj (Except.ok.inj same))

theorem crc_burst {x y : Bytes} {start : Nat} (size : x.length = y.length) (differ : x ≠ y)
    (burst : ∀ i ∈ differences (dataBits x) (dataBits y), start ≤ i ∧ i < start + 16) :
    crcBe16 x x.length ≠ crcBe16 y y.length ∧ crcLe16 x x.length ≠ crcLe16 y y.length := by
  have registers : crcRegister x ≠ crcRegister y := by
    intro same
    have lengths : (dataBits x).length = (dataBits y).length := by simp [dataBits_length, size]
    have found := burst_found generator_unit lengths (generator_degree taps) burst
      (register_collides size same)
    exact differ (dataBits_inj size found)
  exact ⟨crcBe16_differs registers, crcLe16_differs registers⟩

theorem crc_burst_straddling :
    crcBe16 [0x80, 0xff, 0x7f, 1] 4 ≠ crcBe16 [0, 0, 0, 1] 4 ∧
    crcLe16 [0x80, 0xff, 0x7f, 1] 4 ≠ crcLe16 [0, 0, 0, 1] 4 :=
  @crc_burst [0x80, 0xff, 0x7f, 1] [0, 0, 0, 1] 7 rfl (by decide) (by decide)

section Order

noncomputable def orderFactor : (ZMod 2)[X] := X ^ 15 + X + 1

theorem generator_factors : generator taps = (X + 1) * orderFactor := by
  have twice := CharTwo.add_self_eq_zero (X : (ZMod 2)[X])
  rw [generator_taps, orderFactor]
  linear_combination -twice

theorem orderFactor_degree : orderFactor.degree = 15 := by
  unfold orderFactor
  compute_degree!

theorem orderFactor_nonzero {l : List Bool} (short : l.length ≤ 15) (some : true ∈ l) :
    AdjoinRoot.mk orderFactor (poly l) ≠ 0 := by
  rw [Ne, AdjoinRoot.mk_eq_zero]
  intro divides
  have small : (poly l).degree < orderFactor.degree := by
    rw [orderFactor_degree]
    exact lt_of_lt_of_le (poly_degree l) (by exact_mod_cast short)
  have zero := eq_zero_of_dvd_of_degree_lt divides small
  have zeros : l = List.replicate l.length false :=
    poly_inj (by simp) (by rw [zero, poly_zeros])
  rw [zeros] at some
  exact absurd (List.eq_of_mem_replicate some) (by decide)

variable {R : Type} [CommRing R] {x : R}

/-- The powers that repeated squaring gives. -/
theorem squares (two : (2 : R) = 0) (reduced : x ^ 15 + x + 1 = 0) :
    x ^ 32 = x ^ 4 + x ^ 2 ∧ x ^ 64 = x ^ 8 + x ^ 4 ∧ x ^ 256 = x ^ 4 + x ∧ x ^ 512 = x ^ 8 + x ^ 2 ∧
    x ^ 1024 = x ^ 4 + x ^ 2 + x ∧ x ^ 4096 = x ^ 8 + x ^ 4 + x ^ 2 + x ∧ x ^ 32768 = x := by
  have at16 : x ^ 16 = x ^ 2 + x := by linear_combination x * reduced - (x ^ 2 + x) * two
  have at32 : x ^ 32 = x ^ 4 + x ^ 2 := by
    linear_combination (x ^ 16 + x ^ 2 + x) * at16 + x ^ 3 * two
  have at64 : x ^ 64 = x ^ 8 + x ^ 4 := by
    linear_combination (x ^ 32 + x ^ 4 + x ^ 2) * at32 + x ^ 6 * two
  have at128 : x ^ 128 = x ^ 8 + x ^ 2 + x := by
    linear_combination (x ^ 64 + x ^ 8 + x ^ 4) * at64 + at16 + x ^ 12 * two
  have at256 : x ^ 256 = x ^ 4 + x := by
    linear_combination (x ^ 128 + x ^ 8 + x ^ 2 + x) * at128 + at16 + (x ^ 10 + x ^ 9 + x ^ 3 + x ^ 2) * two
  have at512 : x ^ 512 = x ^ 8 + x ^ 2 := by
    linear_combination (x ^ 256 + x ^ 4 + x) * at256 + x ^ 5 * two
  have at1024 : x ^ 1024 = x ^ 4 + x ^ 2 + x := by
    linear_combination (x ^ 512 + x ^ 8 + x ^ 2) * at512 + at16 + x ^ 10 * two
  have at2048 : x ^ 2048 = x ^ 8 + x ^ 4 + x ^ 2 := by
    linear_combination (x ^ 1024 + x ^ 4 + x ^ 2 + x) * at1024 + (x ^ 6 + x ^ 5 + x ^ 3) * two
  have at4096 : x ^ 4096 = x ^ 8 + x ^ 4 + x ^ 2 + x := by
    linear_combination (x ^ 2048 + x ^ 8 + x ^ 4 + x ^ 2) * at2048 + at16 + (x ^ 12 + x ^ 10 + x ^ 6) * two
  have at8192 : x ^ 8192 = x ^ 8 + x ^ 4 + x := by
    linear_combination (x ^ 4096 + x ^ 8 + x ^ 4 + x ^ 2 + x) * at4096 + at16 +
      (x ^ 12 + x ^ 10 + x ^ 9 + x ^ 6 + x ^ 5 + x ^ 3 + x ^ 2) * two
  have at16384 : x ^ 16384 = x ^ 8 + x := by
    linear_combination (x ^ 8192 + x ^ 8 + x ^ 4 + x) * at8192 + at16 +
      (x ^ 12 + x ^ 9 + x ^ 5 + x ^ 2) * two
  have at32768 : x ^ 32768 = x := by
    linear_combination (x ^ 16384 + x ^ 8 + x) * at16384 + at16 + (x ^ 9 + x ^ 2) * two
  exact ⟨at32, at64, at256, at512, at1024, at4096, at32768⟩

/-! What a smaller order would leave of the powers. -/

theorem power_217 (two : (2 : R) = 0) (reduced : x ^ 15 + x + 1 = 0) (one : x ^ 217 = 1) :
    x ^ 11 + x ^ 9 + x ^ 4 + x = 0 := by
  obtain ⟨at32, _, at256, _⟩ := squares two reduced
  linear_combination x ^ 39 * one - at256 + x ^ 7 * at32 + (x ^ 11 + x ^ 9) * two

theorem power_1057 (two : (2 : R) = 0) (reduced : x ^ 15 + x + 1 = 0) (one : x ^ 1057 = 1) :
    x ^ 9 + x ^ 6 + x ^ 5 + x ^ 4 + 1 = 0 := by
  obtain ⟨at32, _, _, _, at1024, _⟩ := squares two reduced
  linear_combination one - x ^ 33 * at1024 - (x ^ 4 + x ^ 2 + x) * x * at32 + (1 - x ^ 7) * two

theorem power_4681 (two : (2 : R) = 0) (reduced : x ^ 15 + x + 1 = 0) (one : x ^ 4681 = 1) :
    x ^ 12 + x ^ 10 + x ^ 9 + x ^ 5 + x ^ 4 + x + 1 = 0 := by
  obtain ⟨_, at64, _, at512, _, at4096, _⟩ := squares two reduced
  have product : x ^ 4681 = (x ^ 8 + x ^ 4 + x ^ 2 + x) * (x ^ 8 + x ^ 2) * (x ^ 8 + x ^ 4) * x ^ 9 := by
    rw [← at4096, ← at512, ← at64]
    ring
  have quotient := congrArg
    (· * (x ^ 18 + x ^ 11 + x ^ 10 + x ^ 8 + x ^ 7 + x ^ 6 + x ^ 5 + x ^ 3 + x ^ 2 + x)) reduced
  linear_combination one - product - quotient + (1 - x ^ 29 - x ^ 27 - x ^ 23 + x ^ 18 + x ^ 12 + x ^ 11 +
    x ^ 10 + x ^ 9 + x ^ 8 + x ^ 7 + x ^ 6 + x ^ 5 + x ^ 4 + x ^ 3 + x ^ 2 + x) * two

theorem root_reduced :
    AdjoinRoot.root orderFactor ^ 15 + AdjoinRoot.root orderFactor + 1 = 0 := by
  have zero : AdjoinRoot.mk orderFactor (X ^ 15 + X + 1) = 0 := AdjoinRoot.mk_self
  rwa [map_add, map_add, map_pow, AdjoinRoot.mk_X, map_one] at zero

theorem root_two : (2 : AdjoinRoot orderFactor) = 0 := by
  have two : (2 : (ZMod 2)[X]) = 0 := CharTwo.two_eq_zero
  rw [← map_ofNat (AdjoinRoot.mk orderFactor) 2, two, map_zero]

theorem power_217_ne : AdjoinRoot.root orderFactor ^ 217 ≠ 1 := by
  intro one
  have low := power_217 root_two root_reduced one
  apply @orderFactor_nonzero [true, false, true, false, false, false, false, true, false, false, true, false]
    (by decide) (by decide)
  simpa [poly, coefficient, add_assoc] using low

theorem power_1057_ne : AdjoinRoot.root orderFactor ^ 1057 ≠ 1 := by
  intro one
  have low := power_1057 root_two root_reduced one
  apply @orderFactor_nonzero [true, false, false, true, true, true, false, false, false, true]
    (by decide) (by decide)
  simpa [poly, coefficient, add_assoc] using low

theorem power_4681_ne : AdjoinRoot.root orderFactor ^ 4681 ≠ 1 := by
  intro one
  have low := power_4681 root_two root_reduced one
  apply @orderFactor_nonzero [true, false, true, true, false, false, false, true, true, false, false, true, true]
    (by decide) (by decide)
  simpa [poly, coefficient, add_assoc] using low

theorem root_power : AdjoinRoot.root orderFactor ^ 32767 = 1 := by
  obtain ⟨_, _, _, _, _, _, at32768⟩ := squares root_two root_reduced
  have reduced := root_reduced
  generalize AdjoinRoot.root orderFactor = x at *
  -- the root is a unit, with the inverse that its equation gives
  have inverse : x * (x ^ 14 + 1) = 1 := by linear_combination reduced - root_two
  linear_combination (x ^ 14 + 1) * at32768 + (1 - x ^ 32767) * inverse

theorem root_order : orderOf (AdjoinRoot.root orderFactor) = 32767 := by
  apply orderOf_eq_of_pow_and_pow_div_prime (by decide) root_power
  intro p prime divides
  have factors : p ∣ 7 * 31 * 151 := divides
  have cases : p = 7 ∨ p = 31 ∨ p = 151 := by
    rw [prime.dvd_mul, prime.dvd_mul, Nat.prime_dvd_prime_iff_eq prime (by norm_num),
      Nat.prime_dvd_prime_iff_eq prime (by norm_num), Nat.prime_dvd_prime_iff_eq prime (by norm_num)] at factors
    omega
  obtain rfl | rfl | rfl := cases
  · exact power_4681_ne
  · exact power_1057_ne
  · exact power_217_ne

end Order

theorem generator_parity : X + 1 ∣ generator taps := ⟨orderFactor, generator_factors⟩

theorem generator_order {d : Nat} (positive : 0 < d) (below : d < 32767) : ¬ generator taps ∣ X ^ d + 1 := by
  intro divides
  have factor : orderFactor ∣ generator taps := ⟨X + 1, by rw [generator_factors, mul_comm]⟩
  exact powers_apart root_order positive below (factor.trans divides)

theorem register_odd {x y : Bytes} (size : x.length = y.length)
    (odd : Odd (differences (dataBits x) (dataBits y)).card) : crcRegister x ≠ crcRegister y := by
  intro same
  have lengths : (dataBits x).length = (dataBits y).length := by simp [dataBits_length, size]
  exact odd_found generator_parity lengths odd (register_collides size same)

theorem register_pair {x y : Bytes} (size : x.length = y.length) {i j : Nat} (before : i < j)
    (close : j - i < 32767) (pair : differences (dataBits x) (dataBits y) = {i, j}) :
    crcRegister x ≠ crcRegister y := by
  intro same
  have lengths : (dataBits x).length = (dataBits y).length := by simp [dataBits_length, size]
  exact pair_found generator_unit lengths before pair close (fun d => generator_order)
    (register_collides size same)

theorem register_few {x y : Bytes} (size : x.length = y.length) (short : 8 * x.length ≤ 32767)
    (some : 0 < (differences (dataBits x) (dataBits y)).card)
    (few : (differences (dataBits x) (dataBits y)).card ≤ 3) : crcRegister x ≠ crcRegister y := by
  have count : Odd (differences (dataBits x) (dataBits y)).card ∨
      (differences (dataBits x) (dataBits y)).card = 2 := by
    rw [Nat.odd_iff]
    omega
  cases count with
  | inl odd => exact register_odd size odd
  | inr two =>
    obtain ⟨i, j, apart, pair⟩ := Finset.card_eq_two.mp two
    have inside : ∀ k ∈ differences (dataBits x) (dataBits y), k < 32767 := by
      intro k differs
      have bound := differences_bound differs
      rw [dataBits_length] at bound
      omega
    have first := inside i (by simp [pair])
    have second := inside j (by simp [pair])
    obtain before | after := Nat.lt_or_gt_of_ne apart
    · exact register_pair size before (by omega) pair
    · rw [Finset.pair_comm] at pair
      exact register_pair size after (by omega) pair

theorem crc_few_bits {x y : Bytes} (size : x.length = y.length) :
    (Odd (differences (dataBits x) (dataBits y)).card → crcBe16 x x.length ≠ crcBe16 y y.length) ∧
    (∀ i j, i < j → j - i < 32767 → differences (dataBits x) (dataBits y) = {i, j} →
      crcBe16 x x.length ≠ crcBe16 y y.length) ∧
    (8 * x.length ≤ 32767 → 0 < (differences (dataBits x) (dataBits y)).card →
      (differences (dataBits x) (dataBits y)).card ≤ 3 → crcBe16 x x.length ≠ crcBe16 y y.length) := by
  refine ⟨?_, ?_, ?_⟩
  · intro odd
    exact crcBe16_differs (register_odd size odd)
  · intro i j before close pair
    exact crcBe16_differs (register_pair size before close pair)
  · intro short some few
    exact crcBe16_differs (register_few size short some few)

theorem crc_few_bits_met :
    crcBe16 [1, 2, 4] 3 ≠ crcBe16 [0, 0, 0] 3 ∧ crcBe16 [0x80, 1] 2 ≠ crcBe16 [0, 0] 2 ∧
    crcBe16 [0, 3] 2 ≠ crcBe16 [0, 0] 2 :=
  ⟨(@crc_few_bits [1, 2, 4] [0, 0, 0] rfl).1 (by decide),
    (@crc_few_bits [0x80, 1] [0, 0] rfl).2.1 7 8 (by decide) (by decide) (by decide),
    (@crc_few_bits [0, 3] [0, 0] rfl).2.2 (by decide) (by decide) (by decide)⟩

end Newplat
