import Newplat.DeviceId

/-! What `g_device_id` holds after any number of calls of `get_device_id`. A reply is copied over
the last one, without its terminator. -/
namespace Newplat

open Base

/-- The reply of the last call that succeeded, `s` before any. -/
def latest (s : CString) (calls : List Popen) : CString := calls.foldl (fun s r => r.reply.getD s) s

/-- After every call the buffer holds the last reply, and all of the accesses are inside it. -/
def KeepsUp (s : CString) (calls : List Popen) (w : World) : Prop :=
  ∀ done, done <+: calls → ∃ w', runAll getDeviceId done w = .ok () w' ∧
    w'.gDeviceId.length = 7 ∧ cstr w'.gDeviceId = .ok (latest s done)

/-- No reply is shorter than the one before, and each leaves room for a terminator. -/
def RepliesGrow (s : CString) (calls : List Popen) : Prop :=
  (s :: calls.filterMap Popen.reply).IsChain (fun s t => s.length ≤ t.length) ∧
    ∀ t ∈ calls.filterMap Popen.reply, t.length ≤ 6

def padded (s : CString) : Bytes := s.bytes ++ List.replicate (7 - s.length) 0

section Calls

variable {s t : CString}

theorem padded_length (fits : s.length ≤ 6) : (padded s).length = 7 := by
  have size : s.bytes.length ≤ 6 := fits
  simp [padded, CString.length]
  omega

theorem padded_string (fits : s.length ≤ 6) : cstr (padded s) = .ok s := cstr_padded s (by omega)

theorem padded_written (grows : s.length ≤ t.length) (fits : t.length ≤ 6) :
    write (padded s) 0 t.bytes = .ok (padded t) := by
  have size : t.bytes.length ≤ (padded s).length := by
    rw [padded_length (by omega)]
    exact fits.trans (by decide)
  have longer : s.bytes.length ≤ t.bytes.length := grows
  have zeros : (padded s).drop t.bytes.length = List.replicate (7 - t.length) 0 := by
    rw [padded, List.drop_append, List.drop_eq_nil_of_le longer, List.drop_replicate, List.nil_append]
    congr 1
    simp only [CString.length]
    omega
  rw [write_start size, zeros, padded]

/-- Over a longer string, or without room for the terminator, the copy is another string. -/
theorem padded_overwritten {sn : Bytes} (fits : s.length ≤ 6) (written : write (padded s) 0 t.bytes = .ok sn)
    (string : cstr sn = .ok t) : s.length ≤ t.length ∧ t.length ≤ 6 := by
  obtain ⟨rest, split⟩ := cstr_split string
  have size : t.bytes.length ≤ (padded s).length := by
    by_contra outside
    have fails : write (padded s) 0 t.bytes = .error .outOfBounds := write_outside rfl (by omega)
    rw [fails] at written
    cases written
  have after : (padded s).drop t.bytes.length = 0 :: rest := by
    rw [write_start size] at written
    exact List.append_cancel_left ((Except.ok.inj written).trans split)
  have inside : t.bytes.length < (padded s).length := by
    have lengths := congrArg List.length after
    rw [List.length_drop, List.length_cons] at lengths
    omega
  have nul : (padded s)[t.bytes.length] = 0 := by
    have head := congrArg List.head? after
    simpa [List.head?_drop, inside] using head
  have whole := padded_length fits
  refine ⟨?_, ?_⟩
  · by_contra shorter
    have within : t.bytes.length < s.bytes.length := by
      simp only [CString.length] at shorter
      omega
    have front : (padded s)[t.bytes.length] = s.bytes[t.bytes.length] := List.getElem_append_left within
    rw [front] at nul
    exact s.nulFree (nul ▸ List.getElem_mem within)
  · simp only [CString.length]
    omega

theorem getDeviceId_outside {r : Popen} {w : World} {e : Halt} (reply : r.reply = some t)
    (fails : write w.gDeviceId 0 t.bytes = .error e) : getDeviceId r w = .error e w := by
  have read : getDevSn r w.gDeviceId = .error e := by rw [getDevSn_reply, reply, ← fails]
  unfold getDeviceId
  rw [get_bind_run, read]
  rfl

theorem getDeviceId_grown {r : Popen} {w : World} (holds : w.gDeviceId = padded s) (reply : r.reply = some t)
    (longer : s.length ≤ t.length) (room : t.length ≤ 6) :
    getDeviceId r w = .ok () { w with gDeviceId := padded t } := by
  have written := padded_written longer room
  rw [← holds] at written
  exact getDeviceId_some reply written

theorem getDeviceId_kept {r : Popen} {w w' : World} (holds : w.gDeviceId = padded s) (fits : s.length ≤ 6)
    (reply : r.reply = some t) (run : getDeviceId r w = .ok () w') (string : cstr w'.gDeviceId = .ok t) :
    s.length ≤ t.length ∧ t.length ≤ 6 := by
  cases written : write w.gDeviceId 0 t.bytes with
  | ok sn =>
    rw [getDeviceId_some reply written] at run
    cases run
    rw [holds] at written
    exact padded_overwritten fits written string
  | error e =>
    rw [getDeviceId_outside reply written] at run
    cases run

theorem runAll_first {r : Popen} {done : List Popen} {w w' : World} (run : getDeviceId r w = .ok () w') :
    runAll getDeviceId (r :: done) w = runAll getDeviceId done w' := by
  rw [runAll, bind_ok run]

theorem keepsUp_cons {r : Popen} {calls : List Popen} {w : World} (holds : w.gDeviceId = padded s)
    (fits : s.length ≤ 6) : KeepsUp s (r :: calls) w ↔
      ∃ w', getDeviceId r w = .ok () w' ∧ cstr w'.gDeviceId = .ok (r.reply.getD s) ∧
        KeepsUp (r.reply.getD s) calls w' := by
  constructor
  · intro keeps
    obtain ⟨w', run, _, string⟩ := keeps [r] (by simp)
    cases first : getDeviceId r w with
    | error e w'' =>
      rw [runAll, bind_error first] at run
      cases run
    | ok _ w'' =>
      rw [runAll_first first] at run
      cases run
      refine ⟨w', rfl, string, ?_⟩
      intro done front
      have more := keeps (r :: done) (List.prefix_cons_inj r |>.mpr front)
      rwa [runAll_first first] at more
  · rintro ⟨w', run, string, keeps⟩ done front
    rcases List.prefix_cons_iff.mp front with rfl | ⟨rest, rfl, later⟩
    · refine ⟨w, rfl, ?_, ?_⟩
      · rw [holds, padded_length fits]
      · rw [holds]
        exact padded_string fits
    · rw [runAll_first run]
      exact keeps rest later

theorem repliesGrow_none {r : Popen} {calls : List Popen} (reply : r.reply = none) :
    RepliesGrow s (r :: calls) ↔ RepliesGrow s calls := by
  simp [RepliesGrow, reply]

theorem repliesGrow_some {r : Popen} {calls : List Popen} (reply : r.reply = some t) :
    RepliesGrow s (r :: calls) ↔ (s.length ≤ t.length ∧ t.length ≤ 6) ∧ RepliesGrow t calls := by
  simp only [RepliesGrow, List.filterMap_cons, reply, List.isChain_cons_cons, List.forall_mem_cons]
  tauto

/-- The calls keep up exactly when their replies grow, from any string the buffer holds. -/
theorem keepsUp_iff {calls : List Popen} {w : World} (holds : w.gDeviceId = padded s) (fits : s.length ≤ 6) :
    KeepsUp s calls w ↔ RepliesGrow s calls := by
  induction calls generalizing s w with
  | nil =>
    have string := padded_string fits
    have size := padded_length fits
    rw [← holds] at string size
    apply iff_of_true
    · intro done front
      rw [List.prefix_nil.mp front]
      exact ⟨w, rfl, size, string⟩
    · simp [RepliesGrow]
  | cons r calls ih =>
    rw [keepsUp_cons holds fits]
    cases reply : r.reply with
    | none =>
      have string := padded_string fits
      rw [← holds] at string
      rw [repliesGrow_none reply, ← ih holds fits]
      constructor
      · rintro ⟨w', run, _, keeps⟩
        rw [getDeviceId_none reply] at run
        cases run
        exact keeps
      · exact fun keeps => ⟨w, getDeviceId_none reply w, string, keeps⟩
    | some t =>
      rw [repliesGrow_some reply]
      constructor
      · rintro ⟨w', run, string, keeps⟩
        have grows := getDeviceId_kept holds fits reply run string
        rw [getDeviceId_grown holds reply grows.1 grows.2] at run
        cases run
        exact ⟨grows, (ih rfl grows.2).mp keeps⟩
      · rintro ⟨⟨longer, room⟩, later⟩
        exact ⟨_, getDeviceId_grown holds reply longer room, padded_string room, (ih rfl room).mpr later⟩

end Calls

/-- What `g_device_id` holds after each of any calls of `get_device_id`. -/
theorem device_id_current_iff (t : Target) (calls : List Popen) :
    KeepsUp .empty calls (.start t) ↔ RepliesGrow .empty calls :=
  keepsUp_iff rfl (Nat.zero_le 6)

def mixedCalls : List Popen :=
  [.stream (CString.ascii "d72e64") false, .stream (CString.ascii "abc") false]

/-- The second reply leaves the end of the first one behind it. -/
theorem shorter_reply_mixed : latest .empty mixedCalls = CString.lit "abc" ∧
    (∃ w', runAll getDeviceId mixedCalls (.start ⟨false, true⟩) = .ok () w' ∧
      cstr w'.gDeviceId = .ok (CString.lit "abce64")) ∧
    ¬ KeepsUp .empty mixedCalls (.start ⟨false, true⟩) := by
  refine ⟨rfl, ⟨_, rfl, rfl⟩, ?_⟩
  intro keeps
  have fits : CString.empty.length ≤ 6 := Nat.zero_le 6
  have grows := ((keepsUp_iff rfl fits).mp keeps).1
  revert grows
  decide

end Newplat
