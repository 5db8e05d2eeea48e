import Newplat.Wire

/-! What `pack_str` puts on the wire of a C string. The field is cleared and then filled from
the whole of the caller's buffer, so what lies behind the terminator goes along. -/
namespace Newplat

open Base

/-- The string cut to the field, and zeros to fill it up. -/
def zeroFilled (s : CString) (len : Nat) : Bytes := s.bytes.take len ++ List.replicate (len - s.length) 0

/-- The field holds just the string, and unpacking gives it back when it is shorter. -/
def FieldHolds (s : CString) (len : Nat) (mem : Bytes) (p : Nat) : Prop :=
  (mem.drop p).take len = zeroFilled s len ∧
  (s.length < len → ∀ str, len ≤ str.length →
    ∃ back, unpackStr mem p str len = .ok (back, len) ∧ cstr back = .ok s)

/-- Packing two buffers of one string writes the same fields, and each holds just the string. -/
def PacksAlike (s : CString) (len : Nat) (str str' mem mem' : Bytes) (p p' : Nat) : Prop :=
  ∃ packed packed', packStr mem p str len = .ok (packed, len) ∧ packStr mem' p' str' len = .ok (packed', len) ∧
    (packed.drop p).take len = (packed'.drop p').take len ∧
    FieldHolds s len packed p ∧ FieldHolds s len packed' p'

/-- Behind the string the buffer holds zeros, as far as the field reaches. -/
def ZerosBehind (s : CString) (len : Nat) (str : Bytes) : Prop := ∀ b ∈ (str.take len).drop s.length, b = 0

section Packing

variable {s : CString} {len p : Nat} {str mem : Bytes}

theorem zeros_behind_iff (string : cstr str = .ok s) (enough : len ≤ str.length) :
    str.take len = zeroFilled s len ↔ ZerosBehind s len str := by
  obtain ⟨rest, rfl⟩ := cstr_split string
  have behind : ((s.bytes ++ 0 :: rest).take len).drop s.length = (0 :: rest).take (len - s.length) := by
    rw [List.drop_take, CString.length, List.drop_left]
  have size : ((0 :: rest).take (len - s.length)).length = len - s.length := by
    simp only [List.length_append, List.length_cons, CString.length] at enough ⊢
    rw [List.length_take, List.length_cons]
    omega
  rw [ZerosBehind, behind, zeroFilled, List.take_append, List.append_cancel_left_eq, List.eq_replicate_iff]
  exact and_iff_right size

/-- The field is what the buffer starts with, zero or not. -/
theorem packStr_field (enough : len ≤ str.length) (room : p + len ≤ mem.length) :
    ∃ packed, packStr mem p str len = .ok (packed, len) ∧ p + len ≤ packed.length ∧
      (packed.drop p).take len = str.take len := by
  have size : (str.take len).length = len := by
    rw [List.length_take]
    omega
  have fits : p + (str.take len).length ≤ mem.length := by rwa [size]
  refine ⟨splice mem p (str.take len), packStr_writes enough room, ?_, ?_⟩
  · rwa [splice_length fits]
  · rw [splice_from fits, List.take_left' size]

/-- A shorter string ends inside the field, and with it what is unpacked. -/
theorem unpackStr_back {packed : Bytes} (string : cstr str = .ok s) (shorter : s.length < len)
    (room : p + len ≤ packed.length) (field : (packed.drop p).take len = str.take len) {out : Bytes}
    (enough : len ≤ out.length) :
    ∃ back, unpackStr packed p out len = .ok (back, len) ∧ cstr back = .ok s := by
  obtain ⟨rest, rfl⟩ := cstr_split string
  obtain ⟨more, length⟩ := Nat.exists_eq_add_of_lt shorter
  have front : (s.bytes ++ 0 :: rest).take len = s.bytes ++ 0 :: rest.take more := by
    have left : len - s.bytes.length = more + 1 := by
      simp only [CString.length] at length
      omega
    have whole : s.bytes.take len = s.bytes := List.take_of_length_le (Nat.le_of_lt shorter)
    rw [List.take_append, whole, left, List.take_succ_cons]
  refine ⟨_, unpackStr_writes enough room, ?_⟩
  rw [field, front, List.append_assoc]
  exact cstr_terminated s _

theorem fieldHolds_iff {packed : Bytes} (string : cstr str = .ok s) (enough : len ≤ str.length)
    (room : p + len ≤ packed.length) (field : (packed.drop p).take len = str.take len) :
    FieldHolds s len packed p ↔ ZerosBehind s len str := by
  rw [FieldHolds, field, zeros_behind_iff string enough]
  apply and_iff_left
  intro shorter out fits
  exact unpackStr_back string shorter room field fits

end Packing

/-- Two buffers of one string are packed alike, and as the string, exactly when both hold only
zeros behind it. -/
theorem packs_alike_iff {s : CString} {len p p' : Nat} {str str' mem mem' : Bytes}
    (string : cstr str = .ok s) (string' : cstr str' = .ok s) (enough : len ≤ str.length)
    (enough' : len ≤ str'.length) (room : p + len ≤ mem.length) (room' : p' + len ≤ mem'.length) :
    PacksAlike s len str str' mem mem' p p' ↔ ZerosBehind s len str ∧ ZerosBehind s len str' := by
  obtain ⟨packed, packs, inside, field⟩ := packStr_field enough room
  obtain ⟨packed', packs', inside', field'⟩ := packStr_field enough' room'
  have holds := fieldHolds_iff string enough inside field
  have holds' := fieldHolds_iff string' enough' inside' field'
  constructor
  · rintro ⟨q, q', run, run', _, first, second⟩
    rw [packs] at run
    rw [packs'] at run'
    cases run
    cases run'
    exact ⟨holds.mp first, holds'.mp second⟩
  · rintro ⟨zeros, zeros'⟩
    refine ⟨packed, packed', packs, packs', ?_, holds.mpr zeros, holds'.mpr zeros'⟩
    rw [field, field', (zeros_behind_iff string enough).mpr zeros, (zeros_behind_iff string' enough').mpr zeros']

def shortSerial : CString := ⟨[97, 98, 99], by decide⟩

theorem padded_serials_alike : PacksAlike shortSerial 6 [97, 98, 99, 0, 0, 0] [97, 98, 99, 0, 0, 0, 9]
    (List.replicate 8 255) (List.replicate 8 0) 1 2 :=
  (packs_alike_iff rfl rfl (by decide) (by decide) (by decide) (by decide)).mpr
    ⟨by simp [ZerosBehind, shortSerial, CString.length], by simp [ZerosBehind, shortSerial, CString.length]⟩

/-- The end of an older, longer string goes onto the wire. -/
theorem stale_bytes_packed :
    packStr (List.replicate 6 0) 0 [97, 98, 99, 0, 54, 52] 6 = .ok ([97, 98, 99, 0, 54, 52], 6) ∧
    packStr (List.replicate 6 0) 0 [97, 98, 99, 0, 0, 0] 6 = .ok ([97, 98, 99, 0, 0, 0], 6) ∧
    ¬ PacksAlike shortSerial 6 [97, 98, 99, 0, 54, 52] [97, 98, 99, 0, 0, 0]
      (List.replicate 6 0) (List.replicate 6 0) 0 0 := by
  have stale : packStr (List.replicate 6 0) 0 [97, 98, 99, 0, 54, 52] 6 = .ok ([97, 98, 99, 0, 54, 52], 6) := rfl
  refine ⟨stale, rfl, ?_⟩
  rintro ⟨packed, _, run, _, _, holds, _⟩
  rw [stale] at run
  cases run
  exact absurd holds.1 (by decide)

end Newplat
