import Newplat.MsgShape
import Newplat.Queue

/-! The queue in memory does what the list of messages does, over every sequence of events. -/
namespace Newplat.MsgMemory

open Base Links

/-- Messages that left with a topic but no text. -/
def leaksOf (trace : List Action) : Nat := (turnsOf trace).countP fun t => t.1.msg.isNone && t.1.sendTopic.isSome

def leakedTopics (trace : List Action) : List CString :=
  (turnsOf trace).filterMap fun t => if t.1.msg.isNone then t.1.sendTopic else none

theorem leakedTopics_length (trace : List Action) : (leakedTopics trace).length = leaksOf trace := by
  rw [leakedTopics, leaksOf, List.length_filterMap_eq_countP]
  apply List.countP_congr
  rintro ⟨⟨msg, sendTopic, serial⟩, up⟩ _
  cases msg <;> cases sendTopic <;> rfl

/-- The memory shows the list: the waiting messages, the topics leaked so far and some more strings. -/
structure Related (waiting : List (MsgQueue × MsgNode)) (leaked held : List (Nat × Bytes)) (s : Machine) (t : World) :
    Prop where
  mem : Represents s.mem ⟨(queuedOf t.trace).length, waiting, [], leaked ++ held⟩
  paired : ∀ e ∈ waiting, Paired e
  list : t.gMsgList = waiting.map Prod.fst
  leaks : leaked.map Prod.snd = (leakedTopics t.trace).map CString.buffer
  world : s.world = t.with [] t.trace

def Shows (held : List (Nat × Bytes)) (s : Machine) (t : World) : Prop :=
  ∃ waiting leaked, Related waiting leaked held s t

def SameWorld (s : Machine) (t : World) : Prop := s.world = t.with [] t.trace

section Programs

variable {α : Type} {held : List (Nat × Bytes)} {waiting : List (MsgQueue × MsgNode)} {leaked : List (Nat × Bytes)}

theorem shows_world {s : Machine} {t : World} (shows : Shows held s t) : SameWorld s t := by
  obtain ⟨waiting, leaked, related⟩ := shows
  exact related.world

theorem turnsOf_snoc {trace : List Action} {a : Action} (apart : a.ofQueue = false) :
    turnsOf (trace ++ [a]) = turnsOf trace := by
  have none : turnsOf [a] = [] := by cases a <;> first | rfl | cases apart
  rw [turnsOf, List.filterMap_append, ← turnsOf, ← turnsOf, none, List.append_nil]

theorem queuedOf_snoc {trace : List Action} {a : Action} (apart : a.ofQueue = false) :
    queuedOf (trace ++ [a]) = queuedOf trace := by
  have none : queuedOf [a] = [] := by cases a <;> first | rfl | cases apart
  rw [queuedOf, List.filterMap_append, ← queuedOf, ← queuedOf, none, List.append_nil]

theorem related_aside (waiting : List (MsgQueue × MsgNode)) (leaked held : List (Nat × Bytes)) (mem : Mem) :
    Aside fun w w' => Related waiting leaked held ⟨w, mem⟩ w' where
  same {w w'} related := by
    have world : w = w'.with [] w'.trace := related.world
    rw [world]
    rfl
  update {w w'} v related := by
    have world : w = w'.with [] w'.trace := related.world
    refine ⟨related.mem, related.paired, related.list, related.leaks, ?_⟩
    rw [world]
    rfl
  history {w w'} a apart related := by
    have world : w = w'.with [] w'.trace := related.world
    refine ⟨?_, related.paired, related.list, ?_, ?_⟩
    · rw [queuedOf_snoc apart]
      exact related.mem
    · rw [leakedTopics, turnsOf_snoc apart]
      exact related.leaks
    · rw [world]
      rfl
  spare {w w'} g related := by
    have world : w = w'.with [] w'.trace := related.world
    refine ⟨related.mem, related.paired, related.list, related.leaks, ?_⟩
    rw [world]
    rfl

theorem onWorld_ok {β : Type} (a : α) (f : α → MemProg β) : (onWorld (check (.ok a)) >>= f) = f a := rfl

theorem onWorld_related {m : Prog α} (blind : Blind m) :
    Agree (Related waiting leaked held) (onWorld m) m SameWorld := by
  rintro ⟨w, mem⟩ t related
  have both := blind _ (related_aside waiting leaked held mem) w t related
  rw [onWorld]
  cases run : m w with
  | ok a w' =>
    rw [run] at both
    cases run' : m t with
    | ok b t' =>
      rw [run'] at both
      exact both
    | error e t' =>
      rw [run'] at both
      exact both
  | error e w' =>
    rw [run] at both
    cases run' : m t with
    | ok b t' =>
      rw [run'] at both
      exact both
    | error e' t' =>
      rw [run'] at both
      exact ⟨both.1, both.2.world⟩

theorem onWorld_agree {m : Prog α} (blind : Blind m) : Agree (Shows held) (onWorld m) m SameWorld := by
  rintro s t ⟨waiting, leaked, related⟩
  exact simulates_weaken (onWorld_related blind) (fun _ _ held => held)
    (fun _ _ _ _ post => ⟨post.1, waiting, leaked, post.2⟩) (fun _ _ same => same) s t related

theorem built_strings {msg sendTopic : Option Nat} {a b : Bool} (first : msg.isSome = a) (second : sendTopic.isSome = b)
    (text topic : CString) (serial : Nat) :
    stringsOf (⟨if a then some text else none, if b then some topic else none, serial⟩, ⟨msg, sendTopic⟩) =
      copies msg text ++ copies sendTopic topic := by
  subst first second
  cases msg <;> cases sendTopic <;> rfl

theorem built_paired {msg sendTopic : Option Nat} {a b : Bool} (first : msg.isSome = a) (second : sendTopic.isSome = b)
    (text topic : CString) (serial : Nat) :
    Paired (⟨if a then some text else none, if b then some topic else none, serial⟩, ⟨msg, sendTopic⟩) := by
  subst first second
  constructor
  · cases msg <;> rfl
  · cases sendTopic <;> rfl

/-- The memory is in a known shape, in the middle of a step of the program. -/
def Midway (P : Mem → Prop) (w t' : World) (s : Machine) (t : World) : Prop := P s.mem ∧ s.world = w ∧ t = t'

theorem midway_effects {α β γ : Type} {P : Mem → Prop} {Q : α → Mem → Prop} {w t' : World} {prog : MemProg α}
    {f : α → MemProg β} {n : Prog γ} {R : β → γ → Machine → World → Prop} {E : Machine → World → Prop}
    (effects : Effects P prog Q) (rest : ∀ a, Simulates (Midway (Q a) w t') (f a) n R E) :
    Simulates (Midway P w t') (prog >>= f) n R E := by
  apply simulates_left _ rest
  rintro s t ⟨before, world, same⟩
  obtain ⟨a, mem, run, post⟩ := effects s before
  exact ⟨a, _, run, post, world, same⟩

theorem midway_fact {α β : Type} {P : Mem → Prop} {F : Prop} {w t' : World} {m : MemProg α} {n : Prog β}
    {R : α → β → Machine → World → Prop} {E : Machine → World → Prop}
    (each : F → Simulates (Midway P w t') m n R E) : Simulates (Midway (fun mem => P mem ∧ F) w t') m n R E :=
  fun s t ⟨⟨before, fact⟩, world, same⟩ => each fact s t ⟨before, world, same⟩

/-- The history is told of the new message when it is linked. -/
theorem queued_shows {e : MsgQueue × MsgNode} {w t : World} (report : Option CJson)
    (paired : ∀ e' ∈ waiting ++ [e], Paired e') (serial : e.1.serial = (queuedOf t.trace).length)
    (list : t.gMsgList = waiting.map Prod.fst)
    (leaks : leaked.map Prod.snd = (leakedTopics t.trace).map CString.buffer) (world : w = t.with [] t.trace) :
    Simulates (Midway (Represents · ⟨(queuedOf t.trace).length + 1, waiting ++ [e], [], leaked ++ held⟩) w t) (do
      let s ← get
      onWorld (act (.queued (s.mem.message e.1.serial e.2) report)))
      (listAddTail e.1.msg e.1.sendTopic report) (fun a b s t => a = b ∧ Shows held s t) SameWorld := by
  rintro ⟨w', mem⟩ t' ⟨rep, same, rfl⟩
  have told : mem.message e.1.serial e.2 = e.1 := message_told rep (by simp) (paired e (by simp))
  have made : (⟨e.1.msg, e.1.sendTopic, (queuedOf t'.trace).length⟩ : MsgQueue) = e.1 := by rw [← serial]
  have now : w' = t'.with [] t'.trace := same.trans world
  simp only [get_bind_run, onWorld, act, listAddTail, modify_run, told, made]
  refine ⟨trivial, waiting ++ [e], leaked, ?_, paired, ?_, ?_, ?_⟩
  · simpa [queuedOf] using rep
  · simp [list]
  · simpa [leakedTopics, turnsOf] using leaks
  · rw [now]
    rfl

/-- From the malloc of the node on. -/
theorem build_agree (fresh : Fresh) (data : Option Bytes) (report : Option CJson) (alloc : Alloc) (topic : CString) :
    Simulates (Shows held) (do
      let m ← mallocNode fresh
      match data with
      | none => throw .nullPointer
      | some data => do
        let text ← onWorld (check (cstr data))
        let msg ← strdup text alloc.msg
        storeNode m fun n => { n with msg := msg }
        let sendTopic ← strdup topic alloc.topic
        storeNode m fun n => { n with sendTopic := sendTopic }
        onLinks (ListHead.listAddTail (.node m) .gMsgList)
        let s ← get
        onWorld (act (.queued (s.mem.message m ⟨msg, sendTopic⟩) report)))
      (match data with
      | none => throw .nullPointer
      | some data => do
        let msg ← check (cstr data)
        listAddTail (if alloc.msg then some msg else none) (if alloc.topic then some topic else none) report)
      (fun a b s t => a = b ∧ Shows held s t) SameWorld := by
  rintro s t ⟨waiting, leaked, related⟩
  have start : Midway (Represents · ⟨(queuedOf t.trace).length, waiting, [], leaked ++ held⟩) s.world t s t :=
    ⟨related.mem, rfl, rfl⟩
  refine midway_effects (mallocNode_effects fresh) ?_ s t start
  intro m s' t' mid
  obtain ⟨⟨rfl, rep⟩, world, rfl⟩ := mid
  have same : s'.world = t'.with [] t'.trace := world.trans related.world
  cases data with
  | none => exact ⟨rfl, same⟩
  | some data =>
    cases read : cstr data with
    | error e =>
      simp only [read]
      exact ⟨rfl, same⟩
    | ok text =>
      simp only [read, check_ok_bind, onWorld_ok]
      refine midway_effects (strdup_effects text alloc.msg) ?_ s' t' ⟨rep, rfl, rfl⟩
      intro msg
      apply midway_fact
      intro first
      apply midway_effects (storeNode_effects rfl _)
      intro _
      apply midway_effects (strdup_effects topic alloc.topic)
      intro sendTopic
      apply midway_fact
      intro second
      apply midway_effects (storeNode_effects rfl _)
      intro _
      let e : MsgQueue × MsgNode := (⟨if alloc.msg then some text else none, if alloc.topic then some topic else none,
        (queuedOf t'.trace).length⟩, ⟨msg, sendTopic⟩)
      have paired : ∀ e' ∈ waiting ++ [e], Paired e' := by
        intro e' member
        rcases List.mem_append.mp member with old | new
        · exact related.paired e' old
        · rw [List.mem_singleton.mp new]
          exact built_paired first second text topic _
      have order : (copies sendTopic topic ++ (copies msg text ++ (leaked ++ held))).Perm
          (stringsOf e ++ (leaked ++ held)) := by
        rw [built_strings first second, List.append_assoc]
        exact List.perm_append_comm_assoc ..
      have added := listAddTail_effects
        ⟨(queuedOf t'.trace).length + 1, waiting, [nodeOf e], stringsOf e ++ (leaked ++ held)⟩
        (leaked ++ held) e rfl rfl
      have linked := midway_effects added fun _ => queued_shows report paired rfl related.list related.leaks same
      apply simulates_weaken linked
      · rintro s t ⟨rep, world, rfl⟩
        exact ⟨represents_perm rep order, world, rfl⟩
      · exact fun _ _ _ _ post => ⟨trivial, post.2⟩
      · exact fun _ _ post => post

theorem cjsonMsgAdd_agree (fresh : Nat → Fresh) (data : Option Bytes) (report : Option CJson) (i : MsgAdd) :
    Agree (Shows held) (cjsonMsgAdd fresh data report i) (Newplat.cjsonMsgAdd data report i) SameWorld := by
  apply agree_bind (onWorld_agree deviceId_blind)
  intro id
  split
  · exact agree_pure ()
  apply agree_bind (onWorld_agree (getDeviceId_blind _))
  intro _
  apply agree_bind (onWorld_agree deviceId_blind)
  intro id
  apply simulates_copy
  intro s t shows
  have up : s.world.gMqttCtx = t.gMqttCtx := by
    rw [shows_world shows]
    rfl
  rw [up]
  apply agree_bind (onWorld_agree (blind_act rfl))
  intro _
  split
  · exact onWorld_agree (blind_loge _ _)
  · exact build_agree _ data report i.alloc _

theorem mallocString_shows (cells : Bytes) {s : Machine} {t : World} (shows : Shows held s t) :
    ∃ q s', mallocString cells s = .ok q s' ∧ Shows ((q, cells) :: held) s' t := by
  obtain ⟨waiting, leaked, related⟩ := shows
  obtain ⟨q, mem, run, rep⟩ := mallocString_effects cells s related.mem
  exact ⟨q, _, run, waiting, leaked, represents_perm rep List.perm_middle.symm, related.paired, related.list,
    related.leaks, related.world⟩

theorem freeString_shows {q : Nat} {cells : Bytes} {s : Machine} {t : World} (shows : Shows ((q, cells) :: held) s t) :
    ∃ a s', freeString (some q) s = .ok a s' ∧ Shows held s' t := by
  obtain ⟨waiting, leaked, related⟩ := shows
  obtain ⟨a, mem, run, rep⟩ := freeString_effects _ q cells _ s (represents_perm related.mem List.perm_middle)
  exact ⟨a, _, run, waiting, leaked, rep, related.paired, related.list, related.leaks, related.world⟩

theorem loadString_shows {q : Nat} {text : CString} {s : Machine} {t : World}
    (shows : Shows ((q, text.buffer) :: held) s t) :
    loadString q s = .ok text s := by
  obtain ⟨waiting, leaked, related⟩ := shows
  exact loadString_run related.mem (by simp)

theorem addSealed_agree (fresh : Nat → Fresh) {out : Nat} {cells : Bytes} (outBase64 : Option Bytes) (root : CJson)
    (i : PostData) : Simulates (Shows ((out, cells) :: held)) (addSealed fresh out outBase64 root i) (do
      runAll mqttCallback i.beforeAdd
      Newplat.cjsonMsgAdd outBase64 (some root) i.add) (fun a b s t => a = b ∧ Shows held s t) SameWorld := by
  cases outBase64 with
  | none =>
    simp only [addSealed, pure_bind]
    apply agree_bind (onWorld_agree (callbacks_blind _))
    intro _
    apply simulates_then (cjsonMsgAdd_agree fresh none _ i.add)
    rintro a b s t ⟨-, shows⟩
    obtain ⟨_, s', run, shows'⟩ := freeString_shows shows
    exact ⟨_, s', run, trivial, shows'⟩
  | some bytes =>
    simp only [addSealed, pure_bind]
    apply simulates_left fun s t shows => mallocString_shows bytes shows
    intro q
    apply agree_bind (onWorld_agree (callbacks_blind _))
    intro _
    apply simulates_then (cjsonMsgAdd_agree fresh (some bytes) _ i.add)
    rintro a b s t ⟨-, shows⟩
    obtain ⟨_, s', run, shows'⟩ := freeString_shows shows
    obtain ⟨_, s'', run', shows''⟩ := freeString_shows shows'
    exact ⟨_, s'', (bind_ok run).trans run', trivial, shows''⟩

/-- From the print on, whatever the encryption of the text gives. -/
theorem printed_agree (fresh : Nat → Fresh) (sealing : CString → Checked (Option Bytes × Int)) (printed : CString)
    (root : CJson) (i : PostData) : Agree (Shows held) (do
      let out ← mallocString printed.buffer
      let text ← loadString out
      let (outBase64, _) ← onWorld (check (sealing text))
      addSealed fresh out outBase64 root i) (do
      let (outBase64, _) ← check (sealing printed)
      runAll mqttCallback i.beforeAdd
      Newplat.cjsonMsgAdd outBase64 (some root) i.add) SameWorld := by
  apply simulates_left fun s t shows => mallocString_shows printed.buffer shows
  rintro out s t shows
  rw [bind_ok (loadString_shows shows)]
  refine agree_bind (onWorld_agree (blind_check _)) ?_ s t shows
  intro sealed
  exact addSealed_agree fresh sealed.1 root i

theorem cjsonCreatPostData_agree (fresh : Nat → Fresh) (p : Platform) (i : PostData) :
    Agree (Shows held) (cjsonCreatPostData fresh p i) (Newplat.cjsonCreatPostData p i) SameWorld := by
  apply agree_bind (onWorld_agree (blind_act rfl))
  intro _
  apply agree_bind (onWorld_agree (readDeviceId_blind _))
  intro id
  apply agree_bind (onWorld_agree (cjsonCreateParamsData_blind p i))
  intro params
  exact printed_agree fresh
    (fun text => aesEcbPkcs5Encrypt i.ssl p.rounds text.buffer (toInt32 text.length) getDeviceKey 16 true)
    (p.cJSONPrint (reportRoot i.uuid id params)) (reportRoot i.uuid id params) i

theorem mqttPostRun_agree (fresh : Nat → Fresh) (p : Platform) (h : Heartbeat) :
    Agree (Shows held) (mqttPostRun fresh p h) (Newplat.mqttPostRun p h) SameWorld := by
  apply agree_bind (onWorld_agree (setUav_blind _))
  intro _
  apply agree_bind
  · exact onWorld_agree (blind_modify fun _ _ => rfl)
  intro _
  apply agree_bind (onWorld_agree (readModeminfo_blind p h))
  intro _
  apply agree_bind (onWorld_agree (readUavinfo_blind p h))
  intro _
  apply agree_bind (cjsonCreatPostData_agree fresh p _)
  intro _
  exact onWorld_agree (blind_act rfl)

/-- The memory shows the list, and these messages are still waiting. -/
def Waits (held : List (Nat × Bytes)) (rest : List MsgQueue) (s : Machine) (t : World) : Prop :=
  ∃ waiting leaked, Related waiting leaked held s t ∧ waiting.map Prod.fst = rest

theorem onWorld_waits {rest : List MsgQueue} {m : Prog α} (blind : Blind m) :
    Agree (Waits held rest) (onWorld m) m SameWorld := by
  rintro s t ⟨waiting, leaked, related, whole⟩
  exact simulates_weaken (onWorld_related blind) (fun _ _ held => held)
    (fun _ _ _ _ post => ⟨post.1, waiting, leaked, post.2, whole⟩) (fun _ _ same => same) s t related

/-- A message whose strings are not counted as its own any more. -/
def stripped (e : MsgQueue × MsgNode) : MsgQueue × MsgNode := (⟨none, none, e.1.serial⟩, e.2)

theorem stripped_strings (e : MsgQueue × MsgNode) : stringsOf (stripped e) = [] := by
  obtain ⟨_, ⟨p, q⟩⟩ := e
  cases p <;> cases q <;> rfl

theorem represents_stripped {mem : Mem} {e : MsgQueue × MsgNode} {made : Nat} {others : List (Nat × Bytes)}
    (rep : Represents mem ⟨made, e :: waiting, [], others⟩) :
    Represents mem ⟨made, stripped e :: waiting, [], stringsOf e ++ others⟩ where
  ring := rep.ring
  nodes := rep.nodes
  strings := by
    have strings := rep.strings
    rw [List.flatMap_cons, List.append_assoc] at strings
    rw [List.flatMap_cons, stripped_strings, List.nil_append]
    exact Heap.tells_perm strings (List.perm_append_comm_assoc ..)
  made := rep.made

/-- The strings are freed, then the node is taken out and freed. -/
theorem release_effects {e : MsgQueue × MsgNode} {made p q : Nat} {text topic : CString} {others : List (Nat × Bytes)}
    (pointers : e.2 = ⟨some p, some q⟩) (texts : e.1.msg = some text ∧ e.1.sendTopic = some topic) :
    Effects (Represents · ⟨made, e :: waiting, [], others⟩) (do
      freeString e.2.msg
      freeString e.2.sendTopic
      unlinkMsg e.1.serial) fun _ mem => Represents mem ⟨made, waiting, [], others⟩ := by
  have strings : stringsOf e = [(p, text.buffer), (q, topic.buffer)] := by
    rw [stringsOf, pointers, texts.1, texts.2]
    rfl
  have freed : Effects
      (Represents · ⟨made, stripped e :: waiting, [], (p, text.buffer) :: (q, topic.buffer) :: others⟩) (do
      freeString e.2.msg
      freeString e.2.sendTopic
      unlinkMsg e.1.serial) fun _ mem => Represents mem ⟨made, waiting, [], others⟩ := by
    rw [pointers]
    let shape : Shape := ⟨made, stripped e :: waiting, [], others⟩
    apply effects_bind (freeString_effects shape p text.buffer _)
    intro _
    apply effects_bind (freeString_effects shape q topic.buffer _)
    intro _
    have unlinked := unlinkMsg_effects shape rfl
    rw [stripped_strings, List.nil_append] at unlinked
    exact unlinked
  intro s rep
  have start := represents_stripped rep
  rw [strings] at start
  exact freed s start

theorem leakedTopics_turn (trace : List Action) (m : MsgQueue) (up : Bool) :
    leakedTopics (trace ++ [.turn m up]) =
      leakedTopics trace ++ if m.msg.isNone then m.sendTopic.toList else [] := by
  have one : turnsOf [.turn m up] = [(m, up)] := rfl
  rw [leakedTopics, turnsOf, List.filterMap_append, ← turnsOf, ← turnsOf, one, List.filterMap_append, leakedTopics]
  congr 1
  obtain ⟨msg, sendTopic, serial⟩ := m
  cases msg <;> cases sendTopic <;> rfl

theorem queuedOf_turn (trace : List Action) (m : MsgQueue) (up : Bool) :
    queuedOf (trace ++ [.turn m up]) = queuedOf trace := by
  have none : queuedOf [.turn m up] = [] := rfl
  rw [queuedOf, List.filterMap_append, ← queuedOf, ← queuedOf, none, List.append_nil]

theorem unlinked_list {t : World} {m : MsgQueue} {rest : List MsgQueue} (list : t.gMsgList = m :: rest) :
    t.gMsgList.eraseP (fun n => decide (n.serial = m.serial)) = rest := by
  rw [list, List.eraseP_cons_of_pos (by simp)]

def turned (w : World) (m : MsgQueue) (up : Bool) : World := { w with trace := w.trace ++ [.turn m up] }

theorem sendMsg_turned {e : MsgQueue × MsgNode} {s : Machine} {t : World} (publish : Int)
    (related : Related (e :: waiting) leaked held s t) : sendMsg publish (addrOf e.1) s =
      serveMsg publish e.1.serial e.2 ⟨turned s.world e.1 t.gMqttCtx.connectedUav, s.mem⟩ := by
  have load : loadNode e.1.serial s = .ok e.2 s := loadNode_run related.mem (List.mem_append_left _ List.mem_cons_self)
  have told := message_told related.mem List.mem_cons_self (related.paired e List.mem_cons_self)
  have up : s.world.gMqttCtx.connectedUav = t.gMqttCtx.connectedUav := by
    rw [related.world]
    rfl
  rw [addrOf, sendMsg, bind_ok load, get_bind_run, told, up]
  rfl

theorem related_turned {e : MsgQueue × MsgNode} {s : Machine} {t : World} (up : Bool) (some : e.1.msg.isSome = true)
    (related : Related (e :: waiting) leaked held s t) :
    Related (e :: waiting) leaked held ⟨turned s.world e.1 up, s.mem⟩ (turned t e.1 up) where
  mem := by
    simp only [turned, queuedOf_turn]
    exact related.mem
  paired := related.paired
  list := related.list
  leaks := by
    simp only [turned, leakedTopics_turn]
    rw [if_neg (by simp [Option.isSome_iff_ne_none.mp some]), List.append_nil]
    exact related.leaks
  world := by
    have world : s.world = t.with [] t.trace := related.world
    rw [world]
    rfl

theorem strings_leaked {e : MsgQueue × MsgNode} (paired : Paired e) (none : e.1.msg = none) :
    (stringsOf e).map Prod.snd = e.1.sendTopic.toList.map CString.buffer := by
  obtain ⟨⟨msg, sendTopic, serial⟩, ⟨p, q⟩⟩ := e
  have same := paired.sendTopic
  cases none
  cases p <;> cases q <;> cases sendTopic <;> first | rfl | cases same

/-- A message without a text is taken out, and its topic is nobody's. -/
theorem sendMsg_leaks {e : MsgQueue × MsgNode} (publish : Int) (empty : e.2.msg = none) :
    Simulates (Related (e :: waiting) leaked held) (sendMsg publish (addrOf e.1)) (Newplat.sendMsg publish e.1)
      (fun _ _ => Waits held (waiting.map Prod.fst)) SameWorld := by
  intro s t related
  have paired := related.paired e List.mem_cons_self
  have none : e.1.msg = none := by
    have absent := paired.msg
    rw [empty] at absent
    simpa using absent.symm
  obtain ⟨_, mem, run, rep⟩ := unlinkMsg_effects _ rfl ⟨turned s.world e.1 t.gMqttCtx.connectedUav, s.mem⟩ related.mem
  rw [sendMsg_turned publish related, serveMsg, empty]
  simp only [Newplat.sendMsg, get_bind_run, act_bind_run, none, listDel, modify_run, run, unlinked_list related.list]
  refine ⟨waiting, leaked ++ stringsOf e, ⟨?_, ?_, rfl, ?_, ?_⟩, rfl⟩
  · rw [queuedOf_turn, List.append_assoc]
    exact represents_perm rep (List.perm_append_comm_assoc ..)
  · exact fun e' member => related.paired e' (List.mem_cons_of_mem e member)
  · rw [List.map_append, strings_leaked paired none, related.leaks, leakedTopics_turn, none, List.map_append]
    rfl
  · rw [turned, related.world]
    rfl

theorem released_waits (waiting : List (MsgQueue × MsgNode)) (leaked held : List (Nat × Bytes))
    {e : MsgQueue × MsgNode} {p q : Nat} {text topic : CString} (pointers : e.2 = ⟨some p, some q⟩)
    (texts : e.1.msg = some text ∧ e.1.sendTopic = some topic) :
    Simulates (Related (e :: waiting) leaked held) (do
      freeString e.2.msg
      freeString e.2.sendTopic
      unlinkMsg e.1.serial) (listDel e.1) (fun _ _ => Waits held (waiting.map Prod.fst)) SameWorld := by
  intro s t related
  obtain ⟨_, mem, run, rep⟩ := release_effects pointers texts s related.mem
  simp only [run, listDel, modify_run, unlinked_list related.list]
  refine ⟨waiting, leaked, ⟨rep, ?_, rfl, related.leaks, ?_⟩, rfl⟩
  · exact fun e' member => related.paired e' (List.mem_cons_of_mem e member)
  · rw [related.world]
    rfl

/-- Otherwise it is published, and it and its strings are freed; a null topic ends both programs. -/
theorem sendMsg_serves {e : MsgQueue × MsgNode} {p : Nat} (publish : Int) (pointer : e.2.msg = some p) :
    Simulates (Related (e :: waiting) leaked held) (sendMsg publish (addrOf e.1)) (Newplat.sendMsg publish e.1)
      (fun _ _ => Waits held (waiting.map Prod.fst)) SameWorld := by
  intro s t related
  have paired := related.paired e List.mem_cons_self
  have filled := paired.msg
  rw [pointer] at filled
  obtain ⟨text, msg⟩ := Option.isSome_iff_exists.mp filled.symm
  have start := related_turned t.gMqttCtx.connectedUav filled.symm related
  have mine : ∀ x ∈ stringsOf e, x ∈ (e :: waiting).flatMap stringsOf ++ (leaked ++ held) := fun x member =>
    List.mem_append_left _ (List.mem_flatMap.mpr ⟨e, List.mem_cons_self, member⟩)
  have load := loadString_run start.mem (mine (p, text.buffer) (by simp [stringsOf, pointer, msg]))
  rw [sendMsg_turned publish related, serveMsg, pointer]
  simp only [Newplat.sendMsg, get_bind_run, act_bind_run, msg]
  rw [bind_ok load]
  cases aim : e.2.sendTopic with
  | none =>
    have absent := paired.sendTopic
    rw [aim] at absent
    have none : e.1.sendTopic = none := by simpa using absent.symm
    rw [none]
    exact ⟨rfl, start.world⟩
  | some q =>
    have there := paired.sendTopic
    rw [aim] at there
    obtain ⟨topic, sendTopic⟩ := Option.isSome_iff_exists.mp there.symm
    have load' := loadString_run start.mem (mine (q, topic.buffer) (by simp [stringsOf, aim, sendTopic]))
    have loads : loadTopic (some q) ⟨turned s.world e.1 t.gMqttCtx.connectedUav, s.mem⟩ = .ok (some topic) _ :=
      bind_ok load'
    rw [bind_ok loads, sendTopic]
    have pointers : e.2 = ⟨some p, some q⟩ := by rw [← pointer, ← aim]
    have released := released_waits waiting leaked held pointers ⟨msg, sendTopic⟩
    rw [pointer, aim] at released
    exact agree_bind (onWorld_related (doTtyMsgPublish_blind _ _ _ _)) (fun _ => released) _ _ start

theorem sendTurn_waits (t : Turn) (m : MsgQueue) (rest : List MsgQueue) :
    Simulates (Waits held (m :: rest)) (sendTurn t (addrOf m)) (Newplat.sendTurn t m) (fun _ _ => Waits held rest)
      SameWorld := by
  apply agree_bind (onWorld_waits (callbacks_blind _))
  rintro _ s w ⟨waiting, leaked, related, whole⟩
  obtain ⟨e, waiting, rfl, rfl, rfl⟩ := List.map_eq_cons_iff.mp whole
  cases pointer : e.2.msg with
  | none => exact sendMsg_leaks t.publish pointer s w related
  | some p => exact sendMsg_serves t.publish pointer s w related

theorem readNext_waits {rest : List MsgQueue} {s : Machine} {t : World} (waits : Waits held rest s t) :
    onLinks (ListHead.readNext .gMsgList) s = .ok ((rest.map addrOf).headD .gMsgList) s ∧
      ∀ m later, rest = m :: later →
        onLinks (ListHead.readNext (addrOf m)) s = .ok ((later.map addrOf).headD .gMsgList) s := by
  obtain ⟨waiting, leaked, related, rfl⟩ := waits
  have ring := related.mem.ring.ring .gMsgList _ Contents.put_self
  have same : waiting.map (fun e => addrOf e.1) = (waiting.map Prod.fst).map addrOf := by rw [List.map_map]; rfl
  rw [same] at ring
  refine ⟨?_, ?_⟩
  · simp only [onLinks, ListHead.readNext_run (ring_first ring).1]
  · intro m later whole
    rw [whole] at ring
    have front : s.mem.links.Ring .gMsgList ([] ++ addrOf m :: later.map addrOf) := ring
    have next := ring_next front
    simp only [onLinks, ListHead.readNext_run next.1]

/-- Every round serves the first of the messages that are left; the next node was found before. -/
theorem safeRounds_waits (turns : Nat → Turn) (ms : List MsgQueue) {rounds : Nat} (enough : ms.length < rounds)
    (k : Nat) {n : ListAddr} (ahead : ∀ m later, ms = m :: later → n = (later.map addrOf).headD .gMsgList) :
    Simulates (Waits held ms) (ListHead.safeRounds (fun pos => onLinks (ListHead.readNext pos))
      (fun k pos => sendTurn (turns k) pos) .gMsgList rounds k ((ms.map addrOf).headD .gMsgList) n)
      (sendLoop turns k ms) (fun _ _ => Waits held []) SameWorld := by
  induction ms generalizing rounds k n with
  | nil =>
    obtain ⟨rounds, rfl⟩ := Nat.exists_eq_add_one.mpr enough
    exact simulates_pure fun _ _ waits => waits
  | cons m rest ih =>
    obtain ⟨rounds, rfl⟩ := Nat.exists_eq_add_one.mpr (Nat.zero_lt_of_lt enough)
    obtain rfl := ahead m rest rfl
    have far : addrOf m ≠ .gMsgList := by simp [addrOf]
    rw [List.map_cons, List.headD_cons, ListHead.safeRounds, if_neg far, sendLoop]
    apply simulates_bind (sendTurn_waits (turns k) m rest)
    rintro _ _ s t waits
    obtain ⟨first, later⟩ := readNext_waits waits
    cases rest with
    | nil =>
      rw [List.map_nil, List.headD_nil, bind_ok first]
      exact ih (Nat.lt_of_succ_lt_succ enough) (k + 1) (fun _ _ none => by cases none) s t waits
    | cons m' rest =>
      rw [List.map_cons, List.headD_cons, bind_ok (later m' rest rfl)]
      apply ih (Nat.lt_of_succ_lt_succ enough) (k + 1) _ s t waits
      rintro _ _ ⟨rfl, rfl⟩
      rfl

theorem waiting_bounded {shape : Shape} {mem : Mem} (rep : Represents mem shape) :
    shape.waiting.length ≤ mem.nodes.blocks.length := by
  have live := Heap.tells_live rep.nodes
  have bound : mem.nodes.live ≤ mem.nodes.blocks.length := List.countP_le_length
  rw [live, List.length_append, List.length_map] at bound
  omega

theorem drain_waits (turns : Nat → Turn) (ms : List MsgQueue) {rounds : Nat} (enough : ms.length < rounds) :
    Simulates (Waits held ms) (ListHead.listForEachEntrySafe (fun pos => onLinks (ListHead.readNext pos))
      (fun k pos => sendTurn (turns k) pos) .gMsgList rounds) (sendLoop turns 0 ms) (fun _ _ => Waits held [])
      SameWorld := by
  intro s t waits
  obtain ⟨first, later⟩ := readNext_waits waits
  rw [ListHead.listForEachEntrySafe, bind_ok first]
  cases ms with
  | nil =>
    rw [List.map_nil, List.headD_nil, bind_ok first]
    exact safeRounds_waits turns [] enough 0 (fun _ _ none => by cases none) s t waits
  | cons m rest =>
    rw [List.map_cons, List.headD_cons, bind_ok (later m rest rfl)]
    apply safeRounds_waits turns (m :: rest) enough 0 _ s t waits
    rintro _ _ ⟨rfl, rfl⟩
    rfl

theorem mqttSendRun_agree (turns : Nat → Turn) :
    Agree (Shows held) (mqttSendRun turns) (Newplat.mqttSendRun turns) SameWorld := by
  apply simulates_get
  rintro s t ⟨waiting, leaked, related⟩
  have start : Waits held t.gMsgList s t := ⟨waiting, leaked, related, related.list.symm⟩
  have enough : t.gMsgList.length < s.mem.nodes.blocks.length + 1 := by
    have bound := waiting_bounded related.mem
    rw [related.list, List.length_map]
    exact Nat.lt_succ_of_le bound
  have armed : ∀ _ _ : Unit, Agree (Waits held []) (onWorld (act (.uloopTimeoutSet .mqttRunTimeout 10)))
      (act (.uloopTimeoutSet .mqttRunTimeout 10)) SameWorld := fun _ _ => onWorld_waits (blind_act rfl)
  apply simulates_weaken (simulates_bind (drain_waits turns t.gMsgList enough) armed)
  · rintro _ _ ⟨rfl, rfl⟩
    exact start
  · rintro _ _ _ _ ⟨same, waiting, leaked, related, -⟩
    exact ⟨same, waiting, leaked, related⟩
  · exact fun _ _ same => same

theorem handle_agree (fresh : Nat → Fresh) (p : Platform) (e : Event) :
    Agree (Shows held) (handle fresh p e) (Newplat.handle p e) SameWorld := by
  cases e with
  | msgAdd data i => exact cjsonMsgAdd_agree fresh data none i
  | post h => exact mqttPostRun_agree fresh p h
  | send turns => exact mqttSendRun_agree turns
  | callback c => exact onWorld_agree (mqttCallback_blind c)

theorem start_shows (t : Target) : Shows [] (.start t) (.start t) := by
  refine ⟨[], [], ⟨?_, Heap.tells_empty, Heap.tells_empty, rfl⟩, ?_, rfl, rfl, rfl⟩
  · have exist : ∀ a, Mem.start.Live a → (Mem.start.links a).isSome = true := by
      rintro (_ | m) lives
      · rfl
      · simp [Mem.Live, Mem.start, Heap.empty, Heap.block] at lives
    have ring : Mem.start.links.Ring .gMsgList [] := ⟨List.isChain_pair.mpr ⟨rfl, rfl⟩, List.nodup_singleton _⟩
    apply chains_insert (chains_none exist) ring
    · intro x member
      rw [List.mem_singleton.mp member]
      trivial
    · exact fun _ _ _ none => by cases none
  · exact fun _ member => absurd member List.not_mem_nil

theorem newplat_agree (fresh : Nat → Fresh) (p : Platform) (b : Boot) (events : List Event) :
    Agree (Shows []) (newplat fresh p b events) (Newplat.newplat p b events) SameWorld := by
  apply agree_bind (onWorld_agree (main_blind p b))
  intro _
  exact agree_runAll fun e _ => handle_agree fresh p e

/-- The program over the memory does what the program over the list does: it returns or halts
with it, leaves the same world but for the queue, and when it returns the memory is the ring of
the waiting messages with their strings, and the topics of the messages that left without a text. -/
theorem newplat_in_memory (fresh : Nat → Fresh) (p : Platform) (b : Boot) (events : List Event) :
    match newplat fresh p b events (.start p.target), Newplat.newplat p b events (.start p.target) with
    | .ok _ s, .ok _ t => Shows [] s t
    | .error e s, .error e' t => e = e' ∧ SameWorld s t
    | _, _ => False := by
  cases left : newplat fresh p b events (.start p.target) with
  | ok a s =>
    obtain ⟨_, t, right, -, shows⟩ := simulates_ok (newplat_agree fresh p b events) (start_shows p.target) left
    rw [right]
    exact shows
  | error e s =>
    obtain ⟨t, right, same⟩ := simulates_error (newplat_agree fresh p b events) (start_shows p.target) left
    rw [right]
    exact ⟨rfl, same⟩

end Programs

def textCount (m : MsgQueue) : Nat := m.msg.toList.length + m.sendTopic.toList.length

theorem stringsOf_length {e : MsgQueue × MsgNode} (paired : Paired e) : (stringsOf e).length = textCount e.1 := by
  obtain ⟨⟨msg, sendTopic, serial⟩, ⟨p, q⟩⟩ := e
  have first : p.isSome = msg.isSome := paired.msg
  have second : q.isSome = sendTopic.isSome := paired.sendTopic
  cases p <;> cases msg <;> cases q <;> cases sendTopic <;> simp_all [stringsOf, textCount]

section Ledger

variable {fresh : Nat → Fresh} {p : Platform} {b : Boot} {events : List Event} {s : Machine}

theorem shows_live {t : World} (shows : Shows [] s t) : s.mem.nodes.live = t.gMsgList.length ∧
    s.mem.strings.live = (t.gMsgList.map textCount).sum + leaksOf t.trace := by
  obtain ⟨waiting, leaked, related⟩ := shows
  have counts : waiting.map (List.length ∘ stringsOf) = (waiting.map Prod.fst).map textCount := by
    rw [List.map_map]
    exact List.map_congr_left fun e member => stringsOf_length (related.paired e member)
  have lost : leaked.length = leaksOf t.trace := by
    rw [← leakedTopics_length, ← List.length_map Prod.snd, related.leaks, List.length_map]
  refine ⟨?_, ?_⟩
  · rw [Heap.tells_live related.mem.nodes, related.list]
    simp
  · rw [Heap.tells_live related.mem.strings, related.list, ← counts, ← lost, List.length_append, List.length_flatMap]
    simp [Function.comp_def]

theorem leaksOf_whole {f : Mailbox} {list : List MsgQueue} {trace : List Action} (mirrors : Mirrors True f list trace) :
    leaksOf trace = 0 := by
  rw [leaksOf, List.countP_eq_zero, mirrors.turns]
  intro t member
  obtain ⟨served, inside, rfl⟩ := List.mem_map.mp member
  have arrived : served.1 ∈ f.arrivals := List.mem_append_left _ (List.mem_map_of_mem inside)
  obtain ⟨⟨data, text⟩, -⟩ := (mirrors.formed _ arrived).whole trivial
  simp [text]

theorem textCount_whole {f : Mailbox} {list : List MsgQueue} {trace : List Action} (mirrors : Mirrors True f list trace)
    {m : MsgQueue} (waits : m ∈ list) : textCount m = 2 := by
  have arrived : m ∈ f.arrivals := List.mem_append_right _ (mirrors.waiting ▸ waits)
  obtain ⟨⟨data, text⟩, topic, aim⟩ := (mirrors.formed _ arrived).whole trivial
  simp [textCount, text, aim]

theorem drained_last (p : Platform) (b : Boot) (before : List Event) (turns : Nat → Turn) :
    Spec (Kept False) (Newplat.newplat p b (before ++ [.send turns])) (fun _ w => w.gMsgList = []) (Stopped False) :=
  spec_bind (keeps_stopped (main_kept p b)) fun _ => run_drained p before False.elim turns

/-- What is allocated after a run: a node for each waiting message, its strings, and a topic for
each message that left without a text. When no allocation failed that is three blocks for each
waiting message, and a drain at the end leaves nothing. -/
theorem memory_ledger (reached : newplat fresh p b events (.start p.target) = .ok () s) :
    ∃ waiting, queuedOf s.world.trace = (turnsOf s.world.trace).map Prod.fst ++ waiting ∧
      s.mem.nodes.live = waiting.length ∧
      s.mem.strings.live = (waiting.map textCount).sum + leaksOf s.world.trace ∧
      ((∀ e ∈ events, e.Allocates) → s.mem.strings.live = 2 * s.mem.nodes.live) ∧
      ∀ before turns, events = before ++ [.send turns] → waiting = [] := by
  obtain ⟨_, t, run, -, shows⟩ := simulates_ok (newplat_agree fresh p b events) (start_shows p.target) reached
  have trace : s.world.trace = t.trace := by
    rw [shows_world shows]
    rfl
  obtain ⟨f, mirrors⟩ := spec_ok (newplat_kept p b events False.elim) (idle_kept False (.start p.target)) run
  have live := shows_live shows
  refine ⟨t.gMsgList, ?_, live.1, ?_, ?_, ?_⟩
  · rw [trace, mirrors.queued, mirrors.turns, mirrors.waiting, Fifo.arrivals, List.map_map]
    rfl
  · rw [trace]
    exact live.2
  · intro works
    obtain ⟨f', mirrors'⟩ := spec_ok (newplat_kept p b events fun _ => works) (idle_kept True (.start p.target)) run
    have two : t.gMsgList.map textCount = t.gMsgList.map fun _ => 2 :=
      List.map_congr_left fun m waits => textCount_whole mirrors' waits
    rw [live.1, live.2, leaksOf_whole mirrors', two]
    simp [Nat.mul_comm]
  · rintro before turns rfl
    exact spec_ok (drained_last p b before turns) (idle_kept False (.start p.target)) run

end Ledger

/-- Two messages, the text of the first not copied, and a drain. -/
def lossyEvents : List Event :=
  [.msgAdd (some (CString.lit "hello").buffer) ⟨serialPrinted, ⟨true, false, true⟩⟩,
    .msgAdd (some (CString.lit "hello").buffer) ⟨serialPrinted, ⟨true, true, true⟩⟩, .send fun _ => ⟨[], 0⟩]

def plainBoot : Boot := { deviceBoot with ssl := sampleOpenSSL }

def garbage (_ : Nat) : Fresh := ⟨⟨some 7, none⟩, ⟨.gMsgList, .node 3⟩⟩

theorem memory_ledger_lossy : ∃ s, newplat garbage devicePlatform plainBoot lossyEvents (.start devicePlatform.target) =
    .ok () s ∧ s.mem.nodes.live = 0 ∧ s.mem.strings.live = 1 := by
  have ends : endsIn (fun s => decide (leaksOf s.world.trace = 1)) (newplat garbage devicePlatform plainBoot lossyEvents
      (.start devicePlatform.target)) = true := by decide +kernel
  obtain ⟨_, s, reached, leaks⟩ := endsIn_ok ends
  obtain ⟨waiting, -, nodes, strings, -, drained⟩ := memory_ledger reached
  have none := drained (lossyEvents.take 2) (fun _ => ⟨[], 0⟩) rfl
  rw [none] at nodes strings
  rw [of_decide_eq_true leaks] at strings
  exact ⟨s, reached, nodes, strings⟩

end Newplat.MsgMemory
