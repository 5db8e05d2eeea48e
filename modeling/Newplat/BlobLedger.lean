import Newplat.Base.Simulation
import Newplat.BlobMemory

/-! What becomes of the copies. A call frees all it made but those a later message of the same
reply took the place of, and what it returns is what the reply says. -/
namespace Newplat.BlobMemory

open Base

/-- The copy of a message, when there is memory for one. -/
def Part.kept (m : Part) : Option (List BlobAttr) := if m.works then some m.attrs else none

/-- What `*ret` leads to when the call returns. -/
def lastKept (parts : List Part) : Option (List BlobAttr) := parts.getLast?.bind Part.kept

/-- The copies it led to before. -/
def overwritten (parts : List Part) : List (List BlobAttr) := parts.dropLast.filterMap Part.kept

/-- The call as an answer: the last message of the reply, or none when it or the attribute is
not copied. -/
def BusCall.answer (c : BusCall) : BusAnswer :=
  ⟨c.connected, c.lookup, c.invoke, if c.copies then lastKept c.parts else none⟩

/-- The blocks nothing leads to after the call. -/
def BusCall.lost (c : BusCall) : List (List BlobAttr) :=
  if c.connected = true ∧ c.lookup = 0 then overwritten c.parts else []

/-- The answers a heartbeat's calls come down to. -/
def HeartbeatCalls.heartbeat (h : HeartbeatCalls) : Heartbeat where
  pci := h.pci.answer
  freq := h.freq.answer
  rsrp := h.rsrp.answer
  rsrq := h.rsrq.answer
  snr := h.snr.answer
  net := h.net.answer
  netStyle := ⟨h.netStyle.call.answer, h.netStyle.fresh⟩
  coordinate := h.coordinate.answer
  flightTime := h.flightTime.answer
  lat := ⟨h.lat.call.answer, h.lat.fresh⟩
  lng := ⟨h.lng.call.answer, h.lng.fresh⟩
  alt := h.alt.answer
  height := ⟨h.height.call.answer, h.height.fresh⟩
  time := ⟨h.time.call.answer, h.time.fresh⟩
  cog := h.cog.answer
  speed := ⟨h.speed.call.answer, h.speed.fresh⟩
  postData := h.postData

def HeartbeatCalls.calls (h : HeartbeatCalls) : List BusCall :=
  [h.pci, h.freq, h.rsrp, h.rsrq, h.snr, h.net, h.netStyle.call, h.coordinate, h.flightTime, h.lat.call,
    h.lng.call, h.alt, h.height.call, h.time.call, h.cog, h.speed.call]

/-- The blocks a heartbeat leaves behind. -/
def HeartbeatCalls.lost (h : HeartbeatCalls) : List (List BlobAttr) := h.calls.flatMap BusCall.lost

/-- The same event with the answers its calls come down to. -/
def BusEvent.event : BusEvent → Event
  | .msgAdd data i => .msgAdd data i
  | .post h => .post h.heartbeat
  | .send turns => .send turns
  | .callback c => .callback c

def BusEvent.calls : BusEvent → List BusCall
  | .post h => h.calls
  | _ => []

def BusEvent.lost (e : BusEvent) : List (List BlobAttr) := e.calls.flatMap BusCall.lost

/-- The pointer leads to these cells, or to nothing; the other blocks are the lost ones. -/
inductive Points (h : Heap BlobAttr) (lost : List (List BlobAttr)) : Option (List BlobAttr) → Option Nat → Prop
  | none {L : List (Nat × List BlobAttr)} (tells : h.Tells L) (others : (L.map Prod.snd).Perm lost) :
    Points h lost none none
  | some {q : Nat} {cells : List BlobAttr} {L : List (Nat × List BlobAttr)} (tells : h.Tells ((q, cells) :: L))
    (others : (L.map Prod.snd).Perm lost) : Points h lost (some cells) (some q)

section Calls

variable {lost : List (List BlobAttr)} {cells : Option (List BlobAttr)} {q : Option Nat} {s : Machine}

theorem kept_overwritten (parts : List Part) :
    parts.filterMap Part.kept = overwritten parts ++ (lastKept parts).toList := by
  rcases List.eq_nil_or_concat parts with rfl | ⟨front, last, rfl⟩
  · rfl
  · rw [List.concat_eq_append, overwritten, lastKept, List.dropLast_concat, List.getLast?_concat, List.filterMap_append]
    congr 1

theorem recvCallReply_points (points : Points s.blobs lost cells q) (m : Part) :
    ∃ q' s', recvCallReply (some q) m s = .ok (some q') s' ∧ s'.world = s.world ∧
      Points s'.blobs (lost ++ cells.toList) m.kept q' := by
  have others : ∃ L, s.blobs.Tells L ∧ (L.map Prod.snd).Perm (lost ++ cells.toList) := by
    cases points with
    | none tells others => exact ⟨_, tells, by simpa using others⟩
    | @some q cells L tells others =>
      refine ⟨_, tells, ?_⟩
      simp only [List.map_cons, Option.toList_some]
      exact (others.cons cells).trans (List.perm_append_singleton cells lost).symm
  obtain ⟨L, tells, others⟩ := others
  cases works : m.works with
  | false =>
    refine ⟨none, s, by simp [recvCallReply, blobMemdup, works], rfl, ?_⟩
    simp only [Part.kept, works]
    exact .none tells others
  | true =>
    have given : recvCallReply (some q) m s =
        .ok (some (some s.blobs.blocks.length)) { s with blobs := (s.blobs.alloc m.attrs).2 } := by
      simp [recvCallReply, blobMemdup, works, Heap.alloc, -bind_pure_comp]
    refine ⟨_, _, given, rfl, ?_⟩
    simp only [Part.kept, works, if_true]
    exact .some (Heap.tells_alloc tells m.attrs) others

theorem receive_points (points : Points s.blobs lost none none) (parts : List Part) :
    ∃ q s', parts.foldlM recvCallReply (some none) s = .ok (some q) s' ∧ s'.world = s.world ∧
      Points s'.blobs (lost ++ overwritten parts) (lastKept parts) q := by
  induction parts using List.reverseRecOn with
  | nil => exact ⟨none, s, rfl, rfl, by simpa [overwritten, lastKept] using points⟩
  | append_singleton parts m ih =>
    obtain ⟨q, s', received, world, points'⟩ := ih
    obtain ⟨q', s'', overwrites, world', points''⟩ := recvCallReply_points points' m
    refine ⟨q', s'', ?_, world'.trans world, ?_⟩
    · rw [List.foldlM_append, bind_ok received, List.foldlM_cons, bind_ok overwrites]
      rfl
    · rw [List.append_assoc, ← kept_overwritten] at points''
      rw [overwritten, lastKept, List.dropLast_concat, List.getLast?_concat]
      exact points''

/-- What `*ret` leads to after a call. -/
def BusCall.received (c : BusCall) : Option (List BlobAttr) :=
  if c.connected = true ∧ c.lookup = 0 then lastKept c.parts else none

theorem ubusCall_points (points : Points s.blobs lost none none) (c : BusCall) :
    ∃ q s', ubusCall c (some none) s = .ok ((Newplat.ubusCall c.answer).1, some q) s' ∧ s'.world = s.world ∧
      Points s'.blobs (lost ++ c.lost) c.received q := by
  have refused (reason : ¬ (c.connected = true ∧ c.lookup = 0)) : Points s.blobs (lost ++ c.lost) c.received none := by
    rw [BusCall.lost, BusCall.received, if_neg reason, if_neg reason, List.append_nil]
    exact points
  by_cases connected : c.connected = true
  · by_cases found : c.lookup = 0
    · obtain ⟨q, s', received, world, points'⟩ := receive_points points c.parts
      refine ⟨q, s', ?_, world, ?_⟩
      · simp [ubusCall, Newplat.ubusCall, BusCall.answer, connected, found, bind_ok received]
      · rw [BusCall.lost, BusCall.received, if_pos ⟨connected, found⟩, if_pos ⟨connected, found⟩]
        exact points'
    · refine ⟨none, s, ?_, rfl, refused fun both => found both.2⟩
      simp [ubusCall, Newplat.ubusCall, BusCall.answer, connected, found]
  · refine ⟨none, s, ?_, rfl, refused fun both => connected both.1⟩
    simp [ubusCall, Newplat.ubusCall, BusCall.answer, connected]

theorem loadBlob_runs {p : Nat} {attrs : List BlobAttr} (held : s.blobs.block p = some attrs) :
    loadBlob p s = .ok attrs s := by
  simp [loadBlob, held]

theorem freeBlob_runs {p : Nat} {attrs : List BlobAttr} (held : s.blobs.block p = some attrs) :
    freeBlob (some p) s = .ok () { s with blobs := ⟨s.blobs.blocks.set p none⟩ } := by
  simp [freeBlob, Heap.free_runs held, blobCheck]

/-- What is found in a reply that came with this code. -/
def sought (param : CString) (ret : Int) (attrs : List BlobAttr) : Option BlobAttr :=
  if ret ≠ 0 then none else attrs.find? fun cur => param = cur.name

theorem ubusGetOption_answer (c : BusCall) (param : CString) : Newplat.ubusGetOption c.answer param =
    if c.copies then c.received.bind (sought param (Newplat.ubusCall c.answer).1) else none := by
  have reply : (Newplat.ubusCall c.answer).2 = if c.copies then c.received else none := by
    unfold Newplat.ubusCall BusCall.received BusCall.answer
    by_cases connected : c.connected = true
    · by_cases found : c.lookup = 0
      · simp [connected, found]
      · simp [connected, found]
    · simp [connected]
  unfold Newplat.ubusGetOption
  rw [← Prod.mk.eta (p := Newplat.ubusCall c.answer), reply]
  cases c.copies with
  | false => rfl
  | true => cases c.received <;> rfl

section Finding

variable {c : BusCall} {param : CString} {ret : Int} {p : Nat} {attrs : List BlobAttr} {cur : BlobAttr}

theorem findOption_fails (held : s.blobs.block p = some attrs)
    (fails : sought param ret attrs = none ∨ c.copies = false) :
    findOption c param ret (some p) s = .ok none s := by
  unfold sought at fails
  by_cases refused : ret = 0
  · cases first : attrs.find? fun cur => param = cur.name with
    | none => simp [findOption, refused, bind_ok (loadBlob_runs held), first]
    | some cur =>
      have copies : c.copies = false := by simpa [refused, first] using fails
      simp [findOption, refused, bind_ok (loadBlob_runs held), first, blobMemdup, copies]
  · simp [findOption, refused]

theorem findOption_copies (held : s.blobs.block p = some attrs) (found : sought param ret attrs = some cur)
    (copies : c.copies = true) : findOption c param ret (some p) s =
      .ok (some s.blobs.blocks.length) { s with blobs := (s.blobs.alloc [cur]).2 } := by
  unfold sought at found
  by_cases refused : ret = 0
  · rw [if_neg (not_not.mpr refused)] at found
    simp [findOption, refused, bind_ok (loadBlob_runs held), found, blobMemdup, copies, Heap.alloc, -bind_pure_comp]
  · rw [if_pos refused] at found
    cases found

end Finding

/-- The reply is freed, and the attribute is what is found in it. -/
theorem ubusGetOption_points (points : Points s.blobs lost none none) (c : BusCall) (param : CString) :
    ∃ q s', ubusGetOption c param s = .ok q s' ∧ s'.world = s.world ∧
      Points s'.blobs (lost ++ c.lost) ((Newplat.ubusGetOption c.answer param).map fun cur => [cur]) q := by
  obtain ⟨q, s', called, world, points'⟩ := ubusCall_points points c
  rw [ubusGetOption, bind_ok called, ubusGetOption_answer]
  generalize (Newplat.ubusCall c.answer).1 = ret
  generalize received : c.received = cells at points'
  cases points' with
  | none tells others =>
    refine ⟨none, s', rfl, world, ?_⟩
    rw [Option.bind_none, ite_self]
    exact .none tells others
  | @some q attrs L tells others =>
    have held := (tells.blocks q attrs).mpr List.mem_cons_self
    rw [Option.bind_some]
    by_cases fails : sought param ret attrs = none ∨ c.copies = false
    · have nothing : (if c.copies then sought param ret attrs else none) = none := by
        rcases fails with missing | copies
        · rw [missing, ite_self]
        · simp [copies]
      refine ⟨none, { s' with blobs := ⟨s'.blobs.blocks.set q none⟩ }, ?_, world, ?_⟩
      · dsimp only [Option.join_some]
        rw [bind_ok (findOption_fails held fails), bind_ok (freeBlob_runs held)]
        rfl
      · rw [nothing]
        exact .none (Heap.tells_free tells) others
    · push Not at fails
      obtain ⟨cur, found⟩ := Option.ne_none_iff_exists'.mp fails.1
      have copies : c.copies = true := by simpa using fails.2
      have copied := Heap.tells_perm (Heap.tells_alloc tells [cur]) (List.Perm.swap _ _ _)
      have held' := (copied.blocks q attrs).mpr List.mem_cons_self
      refine ⟨some s'.blobs.blocks.length,
        { s' with blobs := ⟨(s'.blobs.alloc [cur]).2.blocks.set q none⟩ }, ?_, world, ?_⟩
      · dsimp only [Option.join_some]
        rw [bind_ok (findOption_copies held found copies), bind_ok (freeBlob_runs held')]
        rfl
      · rw [copies, if_pos rfl, found]
        exact .some (Heap.tells_free copied) others

theorem loadAttr_runs {p : Nat} {cur : BlobAttr} (held : s.blobs.block p = some [cur]) : loadAttr p s = .ok cur s := by
  have inside : [cur][0]? = some cur := rfl
  simp [loadAttr, Heap.load_block held inside, blobCheck]

theorem ubusGetInt_points (points : Points s.blobs lost none none) (c : BusCall) (param : CString) (dflt : Int) :
    ∃ s', ubusGetInt c param dflt s = .ok (Newplat.ubusGetInt c.answer param dflt) s' ∧ s'.world = s.world ∧
      Points s'.blobs (lost ++ c.lost) none none := by
  obtain ⟨q, s', got, world, points'⟩ := ubusGetOption_points points c param
  have value : Newplat.ubusGetInt c.answer param dflt =
      ((Newplat.ubusGetOption c.answer param).map fun cur => intValue dflt cur.value).getD dflt := by
    unfold Newplat.ubusGetInt
    cases Newplat.ubusGetOption c.answer param with
    | none => rfl
    | some attr =>
      dsimp only [Option.map_some, Option.getD_some]
      cases attr.value <;> rfl
  rw [ubusGetInt, bind_ok got, value]
  cases found : Newplat.ubusGetOption c.answer param with
  | none =>
    rw [found] at points'
    cases points' with
    | none tells others => exact ⟨s', rfl, world, .none tells others⟩
  | some cur =>
    rw [found] at points'
    cases points' with
    | @some p _ L tells others =>
      have held := (tells.blocks p [cur]).mpr List.mem_cons_self
      refine ⟨{ s' with blobs := ⟨s'.blobs.blocks.set p none⟩ }, ?_, world, .none (Heap.tells_free tells) others⟩
      dsimp only
      rw [bind_ok (loadAttr_runs held), bind_ok (freeBlob_runs held)]
      rfl

end Calls

/-- The two programs are in one world, and the live blocks are the lost ones. -/
structure Holding (lost : List (List BlobAttr)) (s : Machine) (w : World) : Prop where
  world : s.world = w
  blobs : Points s.blobs lost none none

def SameWorld (s : Machine) (w : World) : Prop := s.world = w

section Readings

variable {α β : Type} {lost : List (List BlobAttr)} {Q : α → β → Machine → World → Prop}

theorem onWorld_holding {γ : Type} (m : Prog γ) : Agree (Holding lost) (onWorld m) m SameWorld := by
  rintro s w ⟨rfl, blobs⟩
  unfold onWorld
  cases m s.world with
  | ok a w => exact ⟨rfl, rfl, blobs⟩
  | error e w => exact ⟨rfl, rfl⟩

/-- A number is read, and something is done with it. -/
theorem reading_holding (c : BusCall) (param : CString) {set : Int → Prog Unit} {f : Unit → BlobProg α}
    {n : Unit → Prog β} (rest : ∀ u, Simulates (Holding (lost ++ c.lost)) (f u) (n u) Q SameWorld) :
    Simulates (Holding lost) (ubusGetInt c param 0 >>= fun v => onWorld (set v) >>= f)
      (set (Newplat.ubusGetInt c.answer param 0) >>= n) Q SameWorld := by
  rintro s w ⟨rfl, blobs⟩
  obtain ⟨s', read, world, blobs'⟩ := ubusGetInt_points blobs c param 0
  rw [bind_ok read]
  exact agree_bind (onWorld_holding _) rest s' s.world ⟨world, blobs'⟩

/-- What the text of an attribute makes of the static buffer. -/
def stored (t : Target) (fresh : Nat → UInt8) (ret : Bytes) (size : Int) : Option BlobAttr → Checked (Bytes × Int)
  | some attr =>
    match attr.value with
    | .string value => storeString t fresh ret size value
    | _ => .ok (ret, size)
  | none => .ok (ret, size)

/-- The end of a call of `ubus_get_string`, once the text is in the buffer. -/
def returnText (x : Bytes × Int) : Prog (Option CString) := do
  let text ← check (cstr x.1)
  modify fun w => { w with ubusString := ⟨some x.1, x.2⟩ }
  return if 0 < text.length then some text else none

theorem getString_checks (p : Platform) (r : StringReply) (param : CString) : getString p r param = (do
    let w ← get
    let ret ← check (allocRet p.target r.fresh w.ubusString)
    let ret ← check (memset ret 0 0 (p.target.sizeT w.ubusString.size))
    let x ← check (stored p.target r.fresh ret w.ubusString.size (Newplat.ubusGetOption r.answer param))
    returnText x) := by
  funext w
  rw [getString, get_bind_run, get_bind_run, Newplat.ubusGetString]
  cases allocRet p.target r.fresh w.ubusString with
  | error e => rfl
  | ok ret =>
    rw [ok_bind, check_ok_bind]
    cases memset ret 0 0 (p.target.sizeT w.ubusString.size) with
    | error e => rfl
    | ok ret =>
      rw [ok_bind, check_ok_bind]
      have finish (x : Checked (Bytes × Int)) {f : Bytes × Int → Checked (Option CString × StringStatics)}
          (each : ∀ ret size, f (ret, size) = do
            let s ← cstr ret
            return (if 0 < s.length then some s else none, ⟨some ret, size⟩)) :
          (check (x >>= f) >>= fun y => do
            modify fun w => { w with ubusString := y.2 }
            return y.1 : Prog (Option CString)) w = (check x >>= returnText) w := by
        cases x with
        | error e => rfl
        | ok x =>
          obtain ⟨ret, size⟩ := x
          rw [ok_bind, check_ok_bind, each, returnText]
          dsimp only
          cases cstr ret with
          | error e => rfl
          | ok text => rfl
      cases Newplat.ubusGetOption r.answer param with
      | none => exact finish (.ok (ret, w.ubusString.size)) fun _ _ => rfl
      | some attr =>
        unfold stored
        dsimp only
        cases attr.value with
        | string value =>
          exact finish (storeString p.target r.fresh ret w.ubusString.size value) fun _ _ => rfl
        | _ => exact finish (.ok (ret, w.ubusString.size)) fun _ _ => rfl

theorem blobCheck_agree {γ : Type} {P : Machine → World → Prop} (c : Checked γ)
    (world : ∀ s w, P s w → s.world = w) : Agree P (blobCheck c) (check c) SameWorld := by
  cases c with
  | ok a => exact agree_pure a
  | error e => exact simulates_throw world

theorem storeResult_runs (t : Target) (fresh : Nat → UInt8) (ret : Bytes) (size : Int) {s : Machine}
    {found : Option BlobAttr} {q : Option Nat} (points : Points s.blobs lost (found.map fun cur => [cur]) q) :
    storeResult t fresh ret size q s = blobCheck (stored t fresh ret size found) s := by
  cases found with
  | none =>
    cases points with
    | none tells others => rfl
  | some cur =>
    cases points with
    | @some p _ L tells others =>
      have held := (tells.blocks p [cur]).mpr List.mem_cons_self
      rw [storeResult, bind_ok (loadAttr_runs held), stored]
      cases cur.value <;> rfl

theorem freeBlob_points {s : Machine} {cells : Option (List BlobAttr)} {q : Option Nat}
    (points : Points s.blobs lost cells q) :
    ∃ s', freeBlob q s = .ok () s' ∧ s'.world = s.world ∧ Points s'.blobs lost none none := by
  cases points with
  | none tells others => exact ⟨s, rfl, rfl, .none tells others⟩
  | @some p cells L tells others =>
    have held := (tells.blocks p cells).mpr List.mem_cons_self
    exact ⟨_, freeBlob_runs held, rfl, .none (Heap.tells_free tells) others⟩

theorem ubusGetString_holding (p : Platform) (c : StringBusCall) (param : CString) :
    Simulates (Holding lost) (ubusGetString p c param) (getString p ⟨c.call.answer, c.fresh⟩ param)
      (fun a b s w => a = b ∧ Holding (lost ++ c.call.lost) s w) SameWorld := by
  rw [getString_checks]
  apply simulates_copy
  rintro s w ⟨rfl, -⟩
  have world (s : Machine) (w : World) (holding : Holding lost s w) : s.world = w := holding.world
  apply agree_bind (blobCheck_agree _ world)
  intro ret
  apply agree_bind (blobCheck_agree _ world)
  intro ret
  -- the attribute is there from here until it is freed
  let found := Newplat.ubusGetOption c.call.answer param
  let Copied (q : Option Nat) (s : Machine) (w : World) : Prop :=
    s.world = w ∧ Points s.blobs (lost ++ c.call.lost) (found.map fun cur => [cur]) q
  have copied (s : Machine) (w : World) (holding : Holding lost s w) :
      ∃ q s', ubusGetOption c.call param s = .ok q s' ∧ Copied q s' w := by
    obtain ⟨q, s', got, same, points⟩ := ubusGetOption_points holding.blobs c.call param
    exact ⟨q, s', got, same.trans holding.world, points⟩
  apply simulates_left copied
  intro q
  have result : Agree (Copied q) (storeResult p.target c.fresh ret s.world.ubusString.size q)
      (check (stored p.target c.fresh ret s.world.ubusString.size found)) SameWorld := by
    rintro s' w ⟨same, points⟩
    rw [storeResult_runs _ _ _ _ points]
    exact blobCheck_agree _ (fun _ _ copied => copied.1) s' w ⟨same, points⟩
  apply agree_bind result
  rintro ⟨ret, size⟩
  have freed (s : Machine) (w : World) (copied : Copied q s w) :
      ∃ u s', freeBlob q s = .ok u s' ∧ Holding (lost ++ c.call.lost) s' w := by
    obtain ⟨s', free, same, blobs⟩ := freeBlob_points copied.2
    exact ⟨(), s', free, same.trans copied.1, blobs⟩
  apply simulates_left freed
  intro _
  apply agree_bind (blobCheck_agree _ fun _ _ holding => holding.world)
  intro text
  apply agree_bind (onWorld_holding _)
  intro _
  exact agree_pure _

end Readings

section Programs

variable {lost : List (List BlobAttr)}

theorem text_holding {α β : Type} {Q : α → β → Machine → World → Prop} (p : Platform) (c : StringBusCall)
    (param : CString) {f : Option CString → BlobProg α} {n : Option CString → Prog β}
    (rest : ∀ v, Simulates (Holding (lost ++ c.call.lost)) (f v) (n v) Q SameWorld) :
    Simulates (Holding lost) (ubusGetString p c param >>= f) (getString p ⟨c.call.answer, c.fresh⟩ param >>= n) Q
      SameWorld :=
  simulates_same (ubusGetString_holding p c param) rest

theorem readModeminfo_holding (p : Platform) (h : HeartbeatCalls) :
    Simulates (Holding lost) (readModeminfo p h) (Newplat.readModeminfo p h.heartbeat)
      (fun _ _ => Holding (lost ++ (h.calls.take 7).flatMap BusCall.lost)) SameWorld := by
  iterate 6
    apply reading_holding
    intro _
  apply text_holding
  intro netStyle
  apply simulates_weaken (onWorld_holding _)
  · exact fun _ _ holding => holding
  · rintro _ _ s w ⟨-, holding⟩
    simpa [HeartbeatCalls.calls] using holding
  · exact fun _ _ same => same

/-- A text is read, a number is made of it, and something is done with that. -/
theorem measure_holding {α β : Type} {Q : α → β → Machine → World → Prop} (p : Platform) (c : StringBusCall)
    (param : CString) (k : Int) {f : Int → BlobProg α} {n : Int → Prog β}
    (rest : ∀ v, Simulates (Holding (lost ++ c.call.lost)) (f v) (n v) Q SameWorld) :
    Simulates (Holding lost) (do let v ← ubusGetString p c param; let v ← onWorld (atofTimes p v k); f v)
      (do let v ← getString p ⟨c.call.answer, c.fresh⟩ param; let v ← atofTimes p v k; n v) Q SameWorld := by
  apply text_holding
  intro v
  exact agree_bind (onWorld_holding _) rest

theorem readUavinfo_holding (p : Platform) (h : HeartbeatCalls) :
    Simulates (Holding lost) (readUavinfo p h) (Newplat.readUavinfo p h.heartbeat)
      (fun _ _ => Holding (lost ++ (h.calls.drop 7).flatMap BusCall.lost)) SameWorld := by
  have set {α β : Type} {Q : α → β → Machine → World → Prop} {lost : List (List BlobAttr)} (m : Prog Unit)
      {f : Unit → BlobProg α} {n : Unit → Prog β} (rest : ∀ u, Simulates (Holding lost) (f u) (n u) Q SameWorld) :
      Simulates (Holding lost) (onWorld m >>= f) (m >>= n) Q SameWorld := agree_bind (onWorld_holding m) rest
  apply reading_holding
  intro _
  apply reading_holding
  intro _
  apply measure_holding
  intro lat
  apply set
  intro _
  apply measure_holding
  intro lng
  apply set
  intro _
  apply reading_holding
  intro _
  apply measure_holding
  intro height
  apply set
  intro _
  apply text_holding
  intro uavtime
  apply set
  intro _
  apply reading_holding
  intro _
  apply measure_holding
  intro spd
  apply simulates_weaken (onWorld_holding _)
  · exact fun _ _ holding => holding
  · rintro _ _ s w ⟨-, holding⟩
    simpa [HeartbeatCalls.calls] using holding
  · exact fun _ _ same => same

theorem mqttPostRun_holding (p : Platform) (h : HeartbeatCalls) :
    Simulates (Holding lost) (mqttPostRun p h) (Newplat.mqttPostRun p h.heartbeat)
      (fun _ _ => Holding (lost ++ h.lost)) SameWorld := by
  have whole : h.lost = (h.calls.take 7).flatMap BusCall.lost ++ (h.calls.drop 7).flatMap BusCall.lost := by
    rw [← List.flatMap_append, List.take_append_drop]
    rfl
  rw [whole, ← List.append_assoc]
  apply agree_bind (onWorld_holding _)
  intro _
  apply agree_bind (onWorld_holding _)
  intro _
  apply simulates_bind (readModeminfo_holding p h)
  intro _ _
  apply simulates_bind (readUavinfo_holding p h)
  intro _ _
  apply agree_bind (onWorld_holding _)
  intro _
  exact simulates_weaken (onWorld_holding _) (fun _ _ holding => holding) (fun _ _ _ _ both => both.2)
    fun _ _ same => same

theorem main_holding (p : Platform) (b : Boot) (uptime : BusCall) :
    Simulates (Holding []) (main p b uptime) (Newplat.main p { b with uptime := uptime.answer })
      (fun _ _ => Holding uptime.lost) SameWorld := by
  apply agree_bind (onWorld_holding _)
  intro ret
  by_cases failed : ret < 0
  · rw [if_pos failed, if_pos failed]
    apply agree_bind (onWorld_holding _)
    intro _
    exact simulates_throw fun _ _ holding => holding.world
  rw [if_neg failed, if_neg failed]
  apply agree_bind (onWorld_holding _)
  intro _
  have beat : Simulates (Holding []) (mqttBeatInit uptime) (Newplat.mqttBeatInit uptime.answer)
      (fun a b s w => a = b ∧ Holding uptime.lost s w) SameWorld := by
    apply reading_holding
    intro _
    apply agree_bind (onWorld_holding _)
    intro _
    apply agree_bind (onWorld_holding _)
    intro _
    exact agree_pure 0
  apply simulates_same beat
  intro ret
  by_cases failed : ret < 0
  · rw [if_pos failed, if_pos failed]
    apply agree_bind (onWorld_holding _)
    intro _
    exact simulates_throw fun _ _ holding => holding.world
  · rw [if_neg failed, if_neg failed]
    exact simulates_weaken (onWorld_holding _) (fun _ _ holding => holding) (fun _ _ _ _ both => both.2)
      fun _ _ same => same

theorem handle_holding (p : Platform) (e : BusEvent) :
    Simulates (Holding lost) (handle p e) (Newplat.handle p e.event) (fun _ _ => Holding (lost ++ e.lost))
      SameWorld := by
  have aside (m : Prog Unit) : Simulates (Holding lost) (onWorld m) m (fun _ _ => Holding (lost ++ [])) SameWorld := by
    rw [List.append_nil]
    exact simulates_weaken (onWorld_holding m) (fun _ _ holding => holding) (fun _ _ _ _ both => both.2)
      fun _ _ same => same
  cases e with
  | post h => exact mqttPostRun_holding p h
  | msgAdd data i => exact aside _
  | send turns => exact aside _
  | callback c => exact aside _

theorem run_holding (p : Platform) (events : List BusEvent) :
    Simulates (Holding lost) (runAll (handle p) events) (run p (events.map BusEvent.event))
      (fun _ _ => Holding (lost ++ events.flatMap BusEvent.lost)) SameWorld := by
  induction events generalizing lost with
  | nil =>
    apply simulates_pure
    intro s w holding
    rw [List.flatMap_nil, List.append_nil]
    exact holding
  | cons e events ih =>
    rw [List.flatMap_cons, ← List.append_assoc]
    exact simulates_bind (handle_holding p e) fun _ _ => ih

theorem newplat_holding (p : Platform) (b : Boot) (uptime : BusCall) (events : List BusEvent) :
    Simulates (Holding []) (newplat p b uptime events)
      (Newplat.newplat p { b with uptime := uptime.answer } (events.map BusEvent.event))
      (fun _ _ => Holding (uptime.lost ++ events.flatMap BusEvent.lost)) SameWorld :=
  simulates_bind (main_holding p b uptime) fun _ _ => run_holding p events

end Programs

/-- The program with its replies in memory does what the program does with the answers they come
down to, and when it returns the live copies are those that a later message took the place of. -/
inductive Accounted (lost : List (List BlobAttr)) :
    EStateM.Result Halt Machine Unit → EStateM.Result Halt World Unit → Prop
  | returns {s : Machine} {L : List (Nat × List BlobAttr)} (tells : s.blobs.Tells L)
    (blocks : (L.map Prod.snd).Perm lost) : Accounted lost (.ok () s) (.ok () s.world)
  | halts {e : Halt} {s : Machine} : Accounted lost (.error e s) (.error e s.world)

theorem blobs_accounted (p : Platform) (b : Boot) (uptime : BusCall) (events : List BusEvent) :
    Accounted (uptime.lost ++ events.flatMap BusEvent.lost) (newplat p b uptime events (.start p.target))
      (Newplat.newplat p { b with uptime := uptime.answer } (events.map BusEvent.event) (.start p.target)) := by
  have start : Holding [] (.start p.target) (.start p.target) := ⟨rfl, .none Heap.tells_empty (List.Perm.refl _)⟩
  have both := newplat_holding p b uptime events
  cases run : newplat p b uptime events (.start p.target) with
  | ok u s =>
    obtain ⟨_, w, run', rfl, blobs⟩ := simulates_ok both start run
    rw [run']
    cases blobs with
    | none tells others => exact .returns tells others
  | error e s =>
    obtain ⟨w, run', rfl⟩ := simulates_error both start run
    rw [run']
    exact .halts

theorem lost_single {c : BusCall} (single : c.parts.length ≤ 1) : c.lost = [] := by
  have none : overwritten c.parts = [] := by
    cases parts : c.parts with
    | nil => rfl
    | cons m rest =>
      rw [parts, List.length_cons] at single
      have alone : rest = [] := List.length_eq_zero_iff.mp (by omega)
      rw [alone]
      rfl
  rw [BusCall.lost, none, ite_self]

/-- Where every reply comes in one message, everything is freed. -/
theorem blobs_freed (p : Platform) (b : Boot) (uptime : BusCall) (events : List BusEvent)
    (single : ∀ c ∈ uptime :: events.flatMap BusEvent.calls, c.parts.length ≤ 1) {s : Machine}
    (returns : newplat p b uptime events (.start p.target) = .ok () s) : s.blobs.live = 0 := by
  have start : Holding [] (.start p.target) (.start p.target) := ⟨rfl, .none Heap.tells_empty (List.Perm.refl _)⟩
  obtain ⟨_, _, _, _, blobs⟩ := simulates_ok (newplat_holding p b uptime events) start returns
  have beats : events.flatMap BusEvent.lost = [] := by
    apply List.flatMap_eq_nil_iff.mpr
    intro e member
    apply List.flatMap_eq_nil_iff.mpr
    intro c called
    exact lost_single (single c (List.mem_cons_of_mem _ (List.mem_flatMap.mpr ⟨e, member, called⟩)))
  rw [lost_single (single uptime List.mem_cons_self), beats] at blobs
  cases blobs with
  | none tells others =>
    rw [Heap.tells_live tells]
    simpa using others.length_eq

end Newplat.BlobMemory
