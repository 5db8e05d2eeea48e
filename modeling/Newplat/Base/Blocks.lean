import Newplat.Base.Memory

/-! Blockwise encryption and length-byte padding. A block cipher under one key is a
permutation of blocks of a fixed size; electronic codebook mode applies it to each
complete block of a byte list on its own. -/
namespace Newplat.Base.Blocks

section Codebook

variable {α : Type} {n : Nat}

def split (n : Nat) : Nat → List α → List (Vector α n)
  | 0, _ => []
  | k + 1, xs =>
    if h : n ≤ xs.length then ⟨(xs.take n).toArray, by simp [h]⟩ :: split n k (xs.drop n) else []

def join (bs : List (Vector α n)) : List α := bs.flatMap Vector.toList

def codebook (π : Equiv.Perm (Vector α n)) (xs : List α) : List α :=
  join ((split n (xs.length / n) xs).map π)

theorem join_cons (b : Vector α n) (bs : List (Vector α n)) :
    join (b :: bs) = b.toList ++ join bs := List.flatMap_cons

theorem join_length (bs : List (Vector α n)) : (join bs).length = n * bs.length := by
  induction bs with
  | nil => rfl
  | cons b bs ih =>
    rw [join_cons, List.length_append, ih, Vector.length_toList, List.length_cons, Nat.mul_succ,
      Nat.add_comm]

theorem split_join (bs : List (Vector α n)) (tail : List α) :
    split n bs.length (join bs ++ tail) = bs := by
  induction bs with
  | nil => rfl
  | cons b bs ih =>
    have len : b.toList.length = n := Vector.length_toList
    have fits : n ≤ (b.toList ++ (join bs ++ tail)).length := by
      rw [List.length_append, len]
      omega
    have head : (b.toList ++ (join bs ++ tail)).take n = b.toList := by
      rw [List.take_append_of_le_length (Nat.le_of_eq len.symm),
        List.take_of_length_le (Nat.le_of_eq len)]
    have rest : (b.toList ++ (join bs ++ tail)).drop n = join bs ++ tail := by
      rw [List.drop_append_of_le_length (Nat.le_of_eq len.symm),
        List.drop_of_length_le (Nat.le_of_eq len), List.nil_append]
    rw [join_cons, List.append_assoc, List.length_cons, split, dif_pos fits]
    congr 1
    · exact Vector.toList_inj.mp head
    · rw [rest, ih]

theorem exists_join {xs : List α} {k : Nat} (whole : xs.length = n * k) :
    ∃ bs : List (Vector α n), bs.length = k ∧ join bs = xs := by
  induction k generalizing xs with
  | zero => exact ⟨[], rfl, by simpa [join] using
      (List.length_eq_zero_iff.mp (by simpa using whole)).symm⟩
  | succ k ih =>
    rw [Nat.mul_succ] at whole
    have fewer : (xs.drop n).length = n * k := by
      rw [List.length_drop]
      omega
    obtain ⟨bs, hlen, hjoin⟩ := ih fewer
    have size : (xs.take n).toArray.size = n := by
      simp only [List.size_toArray, List.length_take]
      omega
    refine ⟨⟨(xs.take n).toArray, size⟩ :: bs, by simp [hlen], ?_⟩
    rw [join_cons, hjoin]
    exact List.take_append_drop n xs

theorem codebook_join (π : Equiv.Perm (Vector α n)) (positive : 0 < n) (bs : List (Vector α n))
    {tail : List α} (short : tail.length < n) :
    codebook π (join bs ++ tail) = join (bs.map π) := by
  have count : (join bs ++ tail).length / n = bs.length := by
    rw [List.length_append, join_length, Nat.mul_add_div positive, Nat.div_eq_of_lt short]
    rfl
  rw [codebook, count, split_join]

theorem codebook_joined (π : Equiv.Perm (Vector α n)) (positive : 0 < n) (bs : List (Vector α n)) :
    codebook π (join bs) = join (bs.map π) := by
  have h : codebook π (join bs ++ []) = join (bs.map π) := codebook_join π positive bs positive
  rwa [List.append_nil] at h

section Whole

variable {π : Equiv.Perm (Vector α n)} {xs : List α} {k : Nat}

theorem codebook_length (positive : 0 < n) (whole : xs.length = n * k) :
    (codebook π xs).length = n * k := by
  obtain ⟨bs, hlen, rfl⟩ := exists_join whole
  rw [codebook_joined π positive, join_length, List.length_map, hlen]

theorem codebook_inverse (positive : 0 < n) (whole : xs.length = n * k) :
    codebook π.symm (codebook π xs) = xs := by
  obtain ⟨bs, -, rfl⟩ := exists_join whole
  have undone : (bs.map π).map π.symm = bs := by simp
  rw [codebook_joined π positive, codebook_joined π.symm positive, undone]

theorem codebook_append (positive : 0 < n) (whole : xs.length = n * k) {ys : List α} {l : Nat}
    (whole' : ys.length = n * l) : codebook π (xs ++ ys) = codebook π xs ++ codebook π ys := by
  obtain ⟨bs, -, rfl⟩ := exists_join whole
  obtain ⟨cs, -, rfl⟩ := exists_join whole'
  have joined (as ds : List (Vector α n)) : join as ++ join ds = join (as ++ ds) :=
    List.flatMap_append.symm
  simp only [joined, codebook_joined π positive, List.map_append]

end Whole

end Codebook

/-- The padding length for blocks of 16 bytes: between 1 and 16, never 0. -/
def padLength (n : Nat) : Nat := 16 - n % 16

def addPadding (xs : Bytes) : Bytes :=
  xs ++ List.replicate (padLength xs.length) (UInt8.ofNat (padLength xs.length))

/-- Strict removal: the last byte `v` is in 1..16 and the last `v` bytes all equal it. -/
def removePadding (xs : Bytes) : Option Bytes := do
  let v ← xs.getLast?
  let k := v.toNat
  if 1 ≤ k ∧ k ≤ 16 ∧ k ≤ xs.length ∧ xs.drop (xs.length - k) = List.replicate k v then
    some (xs.take (xs.length - k))
  else none

theorem padLength_bounds (n : Nat) : 1 ≤ padLength n ∧ padLength n ≤ 16 := by
  unfold padLength
  omega

theorem addPadding_length (xs : Bytes) : (addPadding xs).length = 16 * (xs.length / 16 + 1) := by
  simp only [addPadding, padLength, List.length_append, List.length_replicate]
  omega

theorem removePadding_addPadding (xs : Bytes) : removePadding (addPadding xs) = some xs := by
  obtain ⟨low, high⟩ := padLength_bounds xs.length
  have value : (UInt8.ofNat (padLength xs.length)).toNat = padLength xs.length := by
    simp only [UInt8.toNat_ofNat']
    omega
  have last : (addPadding xs).getLast? = some (UInt8.ofNat (padLength xs.length)) := by
    rw [addPadding, List.getLast?_append, List.getLast?_replicate, if_neg (by omega)]
    rfl
  have front : (addPadding xs).length - padLength xs.length = xs.length := by
    simp [addPadding]
  have fits : padLength xs.length ≤ (addPadding xs).length := by
    simp [addPadding]
  simp only [removePadding, last, Option.bind_eq_bind, Option.bind_some, value, front]
  rw [if_pos ⟨low, high, fits, by simp [addPadding]⟩]
  simp [addPadding]

end Newplat.Base.Blocks
