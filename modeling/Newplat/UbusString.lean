import Newplat.ServUbus

/-! Runs of `ubus_get_string`. Its buffer and the buffer's recorded size outlive each call,
and the size is a plain `char`: what one call answers depends on every string before it. -/
namespace Newplat

open Base

/-- The string attribute a call finds, if it finds one. -/
def foundString (a : BusAnswer) (param : CString) : Option CString :=
  match ubusGetOption a param with
  | some ⟨_, .string value⟩ => some value
  | _ => none

/-- What a caller expects: the complete value of a non-empty string, NULL otherwise. -/
def expectedString (a : BusAnswer) (param : CString) : Option CString :=
  (foundString a param).filter (fun value => 0 < value.length)

abbrev StringCall := BusAnswer × CString

def runStrings (t : Target) (fresh : Nat → Nat → UInt8) (k : Nat) (st : StringStatics) :
    List StringCall → Checked (List (Option CString))
  | [] => .ok []
  | (a, param) :: calls => do
    let (answer, st) ← ubusGetString t (fresh k) st a param
    let answers ← runStrings t fresh (k + 1) st calls
    return answer :: answers

/-- Every call of the run returns, inside its buffer, with what its caller expects. -/
def StringsFaithful (t : Target) (fresh : Nat → Nat → UInt8) (k : Nat) (st : StringStatics)
    (calls : List StringCall) : Prop :=
  runStrings t fresh k st calls = .ok (calls.map fun c => expectedString c.1 c.2)

/-- The recorded size is the size of the buffer, and still fits an unsigned `char`. -/
def StringsReady (st : StringStatics) : Prop :=
  128 ≤ st.size ∧ st.size ≤ 255 ∧ ∀ ret, st.ret = some ret → (ret.length : Int) = st.size

def Short (c : StringCall) : Prop := ∀ value, foundString c.1 c.2 = some value → value.length ≤ 254

section Unsigned

variable {t : Target}

theorem sizeT_small (t : Target) {x : Int} (low : 0 ≤ x) (high : x < 2 ^ 32) :
    t.sizeT x = x.toNat := by
  have wide : (2 : Int) ^ 32 ≤ 2 ^ t.addressBits := by
    unfold Target.addressBits
    split <;> decide
  rw [Target.sizeT, Int.emod_eq_of_lt low (by omega)]

theorem grants_small (t : Target) {n : Nat} (small : n ≤ 2 ^ 31) : t.grants n = true := by
  have half : 2 ^ 31 ≤ 2 ^ (t.addressBits - 1) := by
    unfold Target.addressBits
    split <;> decide
  exact decide_eq_true (small.trans half)

theorem start_ready (unsigned : t.charSigned = false) : StringsReady (.start t) := by
  have size : (StringStatics.start t).size = 128 := by
    simp [StringStatics.start, Target.toChar, unsigned]
  refine ⟨by omega, by omega, ?_⟩
  intro ret none
  cases none

theorem allocRet_ready {st : StringStatics} (ready : StringsReady st) (fresh : Nat → UInt8) :
    ∃ ret : Bytes, allocRet t fresh st = .ok ret ∧ ret.length = st.size.toNat := by
  obtain ⟨low, high, buffer⟩ := ready
  have small : t.sizeT st.size = st.size.toNat := sizeT_small t (by omega) (by omega)
  cases old : st.ret with
  | some ret =>
    have size := buffer ret old
    exact ⟨ret, by rw [allocRet, old], by omega⟩
  | none =>
    have granted : t.grants (t.sizeT st.size) = true := by
      rw [small]
      exact grants_small t (by omega)
    refine ⟨(List.range (t.sizeT st.size)).map fresh, ?_, ?_⟩
    · rw [allocRet, old]
      exact if_pos granted
    · rw [List.length_map, List.length_range, small]

/-- Up to the growth test every call is the same: a buffer of zeros of the recorded size. -/
theorem ubusGetString_cleared {st : StringStatics} (ready : StringsReady st) (fresh : Nat → UInt8)
    (a : BusAnswer) (param : CString) :
    ubusGetString t fresh st a param = (do
      let zeros := List.replicate st.size.toNat (0 : UInt8)
      let (ret, size) ←
        match foundString a param with
        | some value => storeString t fresh zeros st.size value
        | none => .ok (zeros, st.size)
      let s ← cstr ret
      return (if 0 < s.length then some s else none, ⟨some ret, size⟩)) := by
  obtain ⟨ret, alloc, len⟩ := allocRet_ready (t := t) ready fresh
  obtain ⟨low, high, -⟩ := ready
  have small : t.sizeT st.size = st.size.toNat := sizeT_small t (by omega) (by omega)
  have cleared : memset ret 0 0 (t.sizeT st.size) = .ok (List.replicate st.size.toNat 0) :=
    memset_whole 0 len (by rw [small])
  simp only [ubusGetString, alloc, ok_bind, cleared, foundString]
  cases option : ubusGetOption a param with
  | none => rfl
  | some attr =>
    obtain ⟨name, value⟩ := attr
    cases value <;> rfl

theorem toChar_unsigned (unsigned : t.charSigned = false) (x : Int) : t.toChar x = x % 256 := by
  simp [Target.toChar, unsigned]

theorem storeString_short (unsigned : t.charSigned = false) (fresh : Nat → UInt8) {size : Int}
    (low : 128 ≤ size) (high : size ≤ 255) {value : CString} (positive : 0 < value.length)
    (short : value.length ≤ 254) :
    ∃ ret size', storeString t fresh (List.replicate size.toNat 0) size value = .ok (ret, size') ∧
      cstr ret = .ok value ∧ 128 ≤ size' ∧ size' ≤ 255 ∧ (ret.length : Int) = size' := by
  have small : t.sizeT size = size.toNat := sizeT_small t (by omega) (by omega)
  have whole : value.bytes.length = value.length := rfl
  by_cases grows : size.toNat ≤ value.length
  · have next : t.toChar (value.length + 1) = (value.length + 1 : Nat) := by
      rw [toChar_unsigned unsigned]
      omega
    have granted : t.grants (value.length + 1) = true := grants_small t (by omega)
    have count : t.sizeT (value.length + 1 : Nat) = value.length + 1 := by
      rw [sizeT_small t (by omega) (by omega)]
      rfl
    have copied := strncpy_whole value
      (regrow_length fresh (List.replicate size.toNat 0) (value.length + 1))
    rw [List.take_of_length_le (by omega), Nat.add_sub_cancel_left] at copied
    refine ⟨_, (value.length + 1 : Nat), ?_, cstr_padded value Nat.one_pos, by omega, by omega, ?_⟩
    · simp only [storeString, if_pos positive, small, if_pos grows, granted, if_true, ok_bind,
        next, count, copied]
      rfl
    · rw [List.length_append, List.length_replicate, whole]
  · have copied := strncpy_whole value (List.length_replicate (n := size.toNat) (a := (0 : UInt8)))
    rw [List.take_of_length_le (by omega)] at copied
    refine ⟨_, size, ?_, cstr_padded value (Nat.sub_pos_of_lt (Nat.lt_of_not_le grows)), low, high, ?_⟩
    · simp only [storeString, if_pos positive, small, if_neg grows, ok_bind, copied]
      rfl
    · rw [List.length_append, List.length_replicate, whole]
      omega

theorem ubusGetString_short (unsigned : t.charSigned = false) {st : StringStatics}
    (ready : StringsReady st) (fresh : Nat → UInt8) {a : BusAnswer} {param : CString}
    (short : Short (a, param)) :
    ∃ st', ubusGetString t fresh st a param = .ok (expectedString a param, st') ∧ StringsReady st' := by
  have cleared := ubusGetString_cleared (t := t) ready fresh a param
  obtain ⟨low, high, -⟩ := ready
  have blank : cstr (List.replicate st.size.toNat 0) = .ok CString.empty :=
    cstr_padded CString.empty (by omega)
  have zeros : ((List.replicate st.size.toNat (0 : UInt8)).length : Int) = st.size := by
    rw [List.length_replicate]
    omega
  have kept : StringsReady ⟨some (List.replicate st.size.toNat 0), st.size⟩ := by
    refine ⟨low, high, ?_⟩
    rintro ret ⟨rfl⟩
    exact zeros
  cases found : foundString a param with
  | none =>
    refine ⟨_, ?_, kept⟩
    rw [cleared, found, expectedString, found]
    simp only [ok_bind, blank]
    rfl
  | some value =>
    by_cases positive : 0 < value.length
    · obtain ⟨ret, size, stored, string, low', high', len⟩ :=
        storeString_short unsigned fresh low high positive (short value found)
      refine ⟨⟨some ret, size⟩, ?_, low', high', ?_⟩
      · rw [cleared, found, expectedString, found]
        simp only [stored, ok_bind, string, if_pos positive]
        simp [Option.filter, positive]
      · rintro other ⟨rfl⟩
        exact len
    · refine ⟨_, ?_, kept⟩
      rw [cleared, found, expectedString, found]
      simp only [storeString, if_neg positive, ok_bind, blank]
      simp [Option.filter, positive]
      rfl

/-- A longer string leaves a size that wrapped: what comes back is cut, or nothing. -/
theorem ubusGetString_long (unsigned : t.charSigned = false) {st : StringStatics}
    (ready : StringsReady st) {a : BusAnswer} {param : CString} {value : CString}
    (found : foundString a param = some value) (long : 255 ≤ value.length) (st' : StringStatics) :
    ubusGetString t (fun _ => 0) st a param ≠ .ok (expectedString a param, st') := by
  have cleared := ubusGetString_cleared (t := t) ready (fun _ => 0) a param
  obtain ⟨low, high, -⟩ := ready
  have small : t.sizeT st.size = st.size.toNat := sizeT_small t (by omega) (by omega)
  have positive : 0 < value.length := by omega
  have grows : st.size.toNat ≤ value.length := by omega
  have whole : value.bytes.length = value.length := rfl
  have wanted : expectedString a param = some value := by
    rw [expectedString, found]
    simp [Option.filter, positive]
  intro returns
  rw [cleared, found] at returns
  cases granted : t.grants (value.length + 1) with
  | false =>
    simp only [storeString, if_pos positive, small, if_pos grows, granted] at returns
    cases returns
  | true =>
    have wraps : t.toChar (value.length + 1) = ((value.length + 1) % 256 : Nat) := by
      rw [toChar_unsigned unsigned]
      omega
    have count : t.sizeT ((value.length + 1) % 256 : Nat) = (value.length + 1) % 256 := by
      rw [sizeT_small t (by omega) (by omega)]
      rfl
    have grown : regrow (fun _ => 0) (List.replicate st.size.toNat 0) (value.length + 1) =
        List.replicate (value.length + 1) (0 : UInt8) := by
      rw [regrow, List.length_replicate, List.take_replicate, List.map_const', List.length_range,
        List.replicate_append_replicate]
      congr 1
      omega
    have cut : (value.truncate ((value.length + 1) % 256)).bytes.length = (value.length + 1) % 256 := by
      rw [CString.truncate_bytes, List.length_take]
      omega
    have copied : strncpy (List.replicate (value.length + 1) 0) value ((value.length + 1) % 256) =
        .ok ((value.truncate ((value.length + 1) % 256)).bytes ++
          List.replicate (value.length + 1 - (value.length + 1) % 256) 0) := by
      have none : (value.length + 1) % 256 - value.length = 0 := by omega
      rw [strncpy, none, List.replicate_zero, List.append_nil, ← CString.truncate_bytes,
        write_start (by rw [cut, List.length_replicate]; omega), cut, List.drop_replicate]
    have room : 0 < value.length + 1 - (value.length + 1) % 256 := by omega
    have string := cstr_padded (value.truncate ((value.length + 1) % 256)) room
    simp only [storeString, if_pos positive, small, if_pos grows, granted, if_true, ok_bind, wraps, count,
      grown, copied, pure_ok, string, wanted] at returns
    have answer := (Prod.mk.inj (Except.ok.inj returns)).1
    split at answer
    · have same := congrArg CString.length (Option.some.inj answer)
      rw [CString.length, cut] at same
      omega
    · cases answer

theorem runStrings_short (unsigned : t.charSigned = false) (fresh : Nat → Nat → UInt8)
    {calls : List StringCall} (short : ∀ c ∈ calls, Short c) (k : Nat) {st : StringStatics}
    (ready : StringsReady st) : StringsFaithful t fresh k st calls := by
  induction calls generalizing k st with
  | nil => rfl
  | cons c calls ih =>
    obtain ⟨a, param⟩ := c
    obtain ⟨st', call, ready'⟩ :=
      ubusGetString_short unsigned ready (fresh k) (short (a, param) List.mem_cons_self)
    have rest : runStrings t fresh (k + 1) st' calls = .ok _ :=
      ih (fun c hc => short c (List.mem_cons_of_mem _ hc)) (k + 1) ready'
    simp only [StringsFaithful, runStrings, call, ok_bind, rest]
    rfl

/-- Over fresh memory of zeros a faithful run has met no string of 255 bytes or more. -/
theorem runStrings_faithful (unsigned : t.charSigned = false) {calls : List StringCall} (k : Nat)
    {st : StringStatics} (ready : StringsReady st)
    (faithful : StringsFaithful t (fun _ _ => 0) k st calls) : ∀ c ∈ calls, Short c := by
  induction calls generalizing k st with
  | nil =>
    intro c none
    cases none
  | cons c calls ih =>
    obtain ⟨a, param⟩ := c
    have here : Short (a, param) := by
      intro value found
      by_contra long
      cases call : ubusGetString t (fun _ => 0) st a param with
      | error e =>
        simp only [StringsFaithful, runStrings, call] at faithful
        cases faithful
      | ok r =>
        obtain ⟨answer, st'⟩ := r
        simp only [StringsFaithful, runStrings, call, ok_bind] at faithful
        cases rest : runStrings t (fun _ _ => 0) (k + 1) st' calls with
        | error e =>
          rw [rest] at faithful
          cases faithful
        | ok answers =>
          rw [rest] at faithful
          have heads := (List.cons.inj (Except.ok.inj faithful)).1
          rw [heads] at call
          exact ubusGetString_long unsigned ready found (by omega) st' call
    obtain ⟨st', call, ready'⟩ := ubusGetString_short unsigned ready (fun _ => 0) here
    have tail : StringsFaithful t (fun _ _ => 0) (k + 1) st' calls := by
      simp only [StringsFaithful, runStrings, call, ok_bind] at faithful
      cases rest : runStrings t (fun _ _ => 0) (k + 1) st' calls with
      | error e =>
        rw [rest] at faithful
        cases faithful
      | ok answers =>
        rw [rest] at faithful
        have tails := (List.cons.inj (Except.ok.inj faithful)).2
        rw [StringsFaithful, rest, tails]
    intro c member
    rcases List.mem_cons.mp member with same | later
    · rw [same]
      exact here
    · exact ih (k + 1) ready' tail c later

end Unsigned

/-- A signed `char` starts the size at -128, which no `malloc` grants. -/
theorem ubusGetString_signed {t : Target} (signed : t.charSigned = true) (fresh : Nat → UInt8)
    (a : BusAnswer) (param : CString) :
    ubusGetString t fresh (.start t) a param = .error .nullPointer := by
  have size : (StringStatics.start t).size = -128 := by
    simp only [StringStatics.start, Target.toChar, signed]
    decide
  have refused : t.grants (t.sizeT (-128)) = false := by
    obtain ⟨charSigned, wide⟩ := t
    cases charSigned <;> cases wide <;> decide
  have alloc : allocRet t fresh (.start t) = .error .nullPointer := by
    simp only [StringStatics.start] at size
    simp [allocRet, StringStatics.start, size, refused]
  rw [ubusGetString, alloc]
  rfl

/-- The function is faithful over a whole run exactly where plain `char` is unsigned and
every string it meets has at most 254 bytes. -/
theorem stringsFaithful_iff (t : Target) (calls : List StringCall) :
    (∀ fresh, StringsFaithful t fresh 0 (.start t) calls) ↔
      calls = [] ∨ (t.charSigned = false ∧ ∀ c ∈ calls, Short c) := by
  constructor
  · intro faithful
    cases calls with
    | nil => exact Or.inl rfl
    | cons c calls =>
      cases sign : t.charSigned with
      | true =>
        obtain ⟨a, param⟩ := c
        have stops := faithful fun _ _ => 0
        rw [StringsFaithful, runStrings, ubusGetString_signed sign] at stops
        cases stops
      | false =>
        exact Or.inr ⟨rfl, runStrings_faithful sign 0 (start_ready sign) (faithful fun _ _ => 0)⟩
  · rintro (rfl | ⟨unsigned, short⟩) fresh
    · rfl
    · exact runStrings_short unsigned fresh short 0 (start_ready unsigned)

def longTime : CString := ⟨List.replicate 300 48, fun nul =>
    absurd (List.eq_of_mem_replicate nul) (by decide)⟩

def longTimeCall : StringCall :=
  (⟨true, 0, 0, some [⟨CString.lit "time", .string longTime⟩]⟩, CString.lit "time")

theorem long_string_cut : ¬ StringsFaithful ⟨false, true⟩ (fun _ _ => 0) 0 (.start ⟨false, true⟩)
    [longTimeCall] := by
  intro faithful
  have short := runStrings_faithful rfl 0 (start_ready rfl) faithful longTimeCall List.mem_cons_self
  have found : foundString longTimeCall.1 longTimeCall.2 = some longTime := rfl
  have length : longTime.length = 300 := List.length_replicate
  have least := short longTime found
  omega

end Newplat
