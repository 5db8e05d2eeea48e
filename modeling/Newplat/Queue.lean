import Newplat.Base.Fifo
import Newplat.Device
import Newplat.Frame

/-! The queue over whole runs. The abstract queue serves each message once, at its turn;
the model's list, with the history of its calls, mirrors one in every state it reaches. -/
namespace Newplat

open Base

structure Publish where
  topic : CString
  data : CString
  len : Int
  ret : Int
  deriving DecidableEq

def turnsOf (trace : List Action) : List (MsgQueue × Bool) :=
  trace.filterMap fun
    | .turn m connected => some (m, connected)
    | _ => none

def publishesOf (trace : List Action) : List Publish :=
  trace.filterMap fun
    | .mosquittoPublish topic data len _ _ ret => some ⟨topic, data, len, ret⟩
    | _ => none

def unsupportedOf (trace : List Action) : List (List Int) :=
  trace.filterMap fun
    | .loge text args => if text = "Unsupport mqtt topic" then some args else none
    | _ => none

/-- At its turn a message meets the connection flag and the answer publishing would get. -/
structure Outcome where
  connected : Bool
  ret : Int

/-- The call made for a message at its turn: one for a message with both strings when connected, else none. -/
def publishFor (m : MsgQueue) (o : Outcome) : List Publish :=
  match m.msg, m.sendTopic with
  | some data, some topic =>
    if o.connected then [⟨topic, data, toInt32 data.length, o.ret⟩] else []
  | _, _ => []

abbrev Mailbox := Fifo MsgQueue Outcome

/-- What `cjson_msg_add` makes: a topic of the shape that publishing tests for, and with
`allocated` neither string missing. -/
structure MsgQueue.Formed (allocated : Prop) (m : MsgQueue) : Prop where
  supported : ∀ topic, m.sendTopic = some topic → strncmpEq topic (CString.lit "/paas/") 6 = true
  whole : allocated → (∃ data, m.msg = some data) ∧ ∃ topic, m.sendTopic = some topic

structure Mirrors (allocated : Prop) (f : Mailbox) (list : List MsgQueue)
    (trace : List Action) : Prop where
  waiting : list = f.waiting
  queued : queuedOf trace = f.arrivals
  turns : turnsOf trace = f.served.map fun s => (s.1, s.2.connected)
  publishes : publishesOf trace = f.served.flatMap fun s => publishFor s.1 s.2
  supported : unsupportedOf trace = []
  formed : ∀ m ∈ f.arrivals, m.Formed allocated
  serials : f.arrivals.map MsgQueue.serial = List.range f.arrivals.length

theorem filterMap_loud {β : Type} {g : Action → Option β} (quiet : ∀ a, a.loud = false → g a = none)
    (trace : List Action) : (trace.filter Action.loud).filterMap g = trace.filterMap g := by
  rw [List.filterMap_filter]
  apply List.filterMap_congr
  intro a _
  cases loud : a.loud with
  | true => rfl
  | false => exact (quiet a loud).symm

theorem queuedOf_loud (trace : List Action) : queuedOf (trace.filter Action.loud) = queuedOf trace := by
  apply filterMap_loud
  intro a quiet
  cases a <;> first | rfl | cases quiet

theorem turnsOf_loud (trace : List Action) : turnsOf (trace.filter Action.loud) = turnsOf trace := by
  apply filterMap_loud
  intro a quiet
  cases a <;> first | rfl | cases quiet

theorem publishesOf_loud (trace : List Action) :
    publishesOf (trace.filter Action.loud) = publishesOf trace := by
  apply filterMap_loud
  intro a quiet
  cases a <;> first | rfl | cases quiet

theorem unsupportedOf_loud (trace : List Action) :
    unsupportedOf (trace.filter Action.loud) = unsupportedOf trace := by
  apply filterMap_loud
  intro a quiet
  cases a with
  | loge text args => exact if_neg (of_decide_eq_false quiet)
  | _ => rfl

section Mirrors

variable {allocated : Prop} {f : Mailbox} {list : List MsgQueue} {trace : List Action}

theorem mirrors_same {trace' : List Action}
    (same : trace'.filter Action.loud = trace.filter Action.loud)
    (mirrors : Mirrors allocated f list trace) :
    Mirrors allocated f list trace' where
  waiting := mirrors.waiting
  queued := by rw [← queuedOf_loud, same, queuedOf_loud, mirrors.queued]
  turns := by rw [← turnsOf_loud, same, turnsOf_loud, mirrors.turns]
  publishes := by rw [← publishesOf_loud, same, publishesOf_loud, mirrors.publishes]
  supported := by rw [← unsupportedOf_loud, same, unsupportedOf_loud, mirrors.supported]
  formed := mirrors.formed
  serials := mirrors.serials

theorem mirrors_arrive {m : MsgQueue} (mirrors : Mirrors allocated f list trace)
    (serial : m.serial = (queuedOf trace).length) (formed : m.Formed allocated)
    (report : Option CJson) :
    Mirrors allocated (f.arrive m) (list ++ [m]) (trace ++ [.queued m report]) where
  waiting := by rw [mirrors.waiting]; rfl
  queued := by
    rw [Fifo.arrivals_arrive, ← mirrors.queued]
    simp [queuedOf]
  turns := by
    rw [Fifo.arrive, ← mirrors.turns]
    simp [turnsOf]
  publishes := by
    rw [Fifo.arrive, ← mirrors.publishes]
    simp [publishesOf]
  supported := by
    rw [← mirrors.supported]
    simp [unsupportedOf]
  formed := by
    intro n member
    rw [Fifo.arrivals_arrive] at member
    rcases List.mem_append.mp member with old | new
    · exact mirrors.formed n old
    · rw [List.mem_singleton.mp new]
      exact formed
  serials := by
    rw [Fifo.arrivals_arrive, List.map_append, mirrors.serials, List.length_append, List.length_singleton,
      List.range_succ, List.map_singleton, serial, mirrors.queued]

/-- What is no step of the abstract queue. -/
theorem mirrors_aside (mirrors : Mirrors allocated f list trace) {a : Action} (queued : queuedOf [a] = [])
    (turns : turnsOf [a] = []) (publishes : publishesOf [a] = []) (supported : unsupportedOf [a] = []) :
    Mirrors allocated f list (trace ++ [a]) where
  waiting := mirrors.waiting
  queued := by
    rw [queuedOf, List.filterMap_append, ← queuedOf, ← queuedOf, queued, List.append_nil,
      mirrors.queued]
  turns := by
    rw [turnsOf, List.filterMap_append, ← turnsOf, ← turnsOf, turns, List.append_nil,
      mirrors.turns]
  publishes := by
    rw [publishesOf, List.filterMap_append, ← publishesOf, ← publishesOf, publishes, List.append_nil,
      mirrors.publishes]
  supported := by
    rw [unsupportedOf, List.filterMap_append, ← unsupportedOf, ← unsupportedOf, supported,
      List.append_nil, mirrors.supported]
  formed := mirrors.formed
  serials := mirrors.serials

def turnActions (c : MqttContext) (m : MsgQueue) (o : Outcome) : List Action :=
  .turn m o.connected :: (publishFor m o).map fun s =>
    .mosquittoPublish s.topic s.data s.len c.publishTopicUploadQos c.publishTopicUploadRetain s.ret

theorem publishesOf_turnActions (c : MqttContext) (m : MsgQueue) (o : Outcome) :
    publishesOf (turnActions c m o) = publishFor m o := by
  unfold turnActions publishesOf
  simp [List.filterMap_map]

theorem mirrors_serve {m : MsgQueue} {rest : List MsgQueue}
    (mirrors : Mirrors allocated f (m :: rest) trace) (c : MqttContext) (o : Outcome) :
    Mirrors allocated (f.serve o) rest (trace ++ turnActions c m o) := by
  obtain ⟨waiting, served⟩ := f
  have head : waiting = m :: rest := mirrors.waiting.symm
  subst head
  constructor
  · rfl
  · rw [Fifo.arrivals_serve, ← mirrors.queued]
    simp [queuedOf, turnActions]
  · have turns := mirrors.turns
    simp only [turnsOf] at turns
    simp [turnsOf, turnActions, Fifo.serve, turns, List.filterMap_map]
  · have publishes := mirrors.publishes
    have added := publishesOf_turnActions c m o
    simp only [publishesOf] at publishes added
    simp [publishesOf, Fifo.serve, publishes, added]
  · have supported := mirrors.supported
    simp only [unsupportedOf] at supported
    simp [unsupportedOf, turnActions, supported, List.filterMap_map]
  · rw [Fifo.arrivals_serve]
    exact mirrors.formed
  · rw [Fifo.arrivals_serve]
    exact mirrors.serials

end Mirrors

def Kept (allocated : Prop) (w : World) : Prop := ∃ f, Mirrors allocated f w.gMsgList w.trace

/-- The program stopped in the middle of a turn: the head has a text but no topic. -/
def Crashed (w : World) : Prop :=
  ∃ f m connected trace, Mirrors False f w.gMsgList trace ∧ m ∈ w.gMsgList ∧ m.sendTopic = none ∧
    w.trace = trace ++ [.turn m connected]

def Stopped (allocated : Prop) (w : World) : Prop := Kept allocated w ∨ ¬ allocated ∧ Crashed w

section Steps

variable {allocated : Prop}

theorem kept_steady : Steady (Kept allocated) where
  connection _ kept := kept
  history quiet := by
    rintro ⟨f, mirrors⟩
    exact ⟨f, mirrors_same (by simp [quiet]) mirrors⟩

theorem kept_armed : Armed (Kept allocated) := by
  rintro w timer msecs ⟨f, mirrors⟩
  exact ⟨f, mirrors_aside mirrors rfl rfl rfl rfl⟩

theorem kept_sampled : Sampled (Kept allocated) := by
  constructor <;> exact fun _ kept => kept

theorem kept_device (r : Popen) : Keeps (Kept allocated) (getDeviceId r) :=
  getDeviceId_keeps (fun _ kept => kept) r

theorem paasTopic_supported (id : CString) (topic : Option CString) :
    strncmpEq (paasTopic id topic) (CString.lit "/paas/") 6 = true := by
  have front : (paasTopic id topic).bytes.take 6 = (CString.lit "/paas/").bytes := by
    simp only [paasTopic, CString.truncate_bytes, CString.append_bytes, List.append_assoc, List.take_take]
    rfl
  exact decide_eq_true front

theorem cjsonMsgAdd_kept (data : Option Bytes) (report : Option CJson) (i : MsgAdd)
    (works : allocated → i.alloc = ⟨true, true, true⟩) :
    Keeps (Kept allocated) (cjsonMsgAdd data report i) := by
  apply cjsonMsgAdd_walk (fun _ => Kept allocated) (fun _ _ => Kept allocated) (kept_device i.serial)
    deviceId_keeps
  · intro id w _
    apply keeps_act
    rintro w' ⟨f, mirrors⟩
    exact ⟨f, mirrors_aside mirrors rfl rfl rfl rfl⟩
  · exact fun _ _ => loge_keeps kept_steady.history (by decide) _
  · intro id up msg _
    apply keeps_modify
    rintro w' ⟨f, mirrors⟩
    refine ⟨_, mirrors_arrive mirrors rfl ⟨?_, ?_⟩ report⟩
    · intro topic same
      cases copied : i.alloc.topic with
      | false => simp [copied] at same
      | true =>
        have formed : paasTopic id up = topic := by simpa [copied] using same
        rw [← formed]
        exact paasTopic_supported id _
    · intro holds
      rw [works holds]
      exact ⟨⟨msg, rfl⟩, ⟨_, rfl⟩⟩
  · exact fun _ kept => kept
  · exact fun _ kept => kept
  · exact fun _ _ _ kept => kept

/-- Publishing to a topic of the right shape: one call when connected, and no branch
depends on its answer but the log. -/
theorem doTtyMsgPublish_calls (data : CString) {topic : CString} (len ret : Int)
    (supported : strncmpEq topic (CString.lit "/paas/") 6 = true) (w : World) :
    ∃ answer noise, doTtyMsgPublish data len (some topic) ret w = .ok answer { w with
      trace := w.trace ++ (if w.gMqttCtx.connectedUav then
        [.mosquittoPublish topic data len w.gMqttCtx.publishTopicUploadQos
          w.gMqttCtx.publishTopicUploadRetain ret] else []) ++ noise } ∧
      noise.filter Action.loud = [] := by
  cases connected : w.gMqttCtx.connectedUav with
  | true =>
    by_cases worked : ret = 0
    · refine ⟨ret, [], ?_, rfl⟩
      simp [doTtyMsgPublish, supported, connected, worked, -bind_pure_comp]
    · refine ⟨ret, [.loge "mqtt send error" []], ?_, rfl⟩
      simp [doTtyMsgPublish, supported, connected, worked, loge, -bind_pure_comp]
  | false =>
    refine ⟨-1, [.loge "mosquitto connected uav = %d" [0]], ?_, rfl⟩
    simp [doTtyMsgPublish, supported, connected, loge, -bind_pure_comp]

/-- The body of the loop: the message's calls are made and it is unlinked, whatever they
answer; only a text without a topic stops the program first. -/
theorem sendMsg_runs (publish : Int) {m : MsgQueue} (w : World)
    (supported : ∀ topic, m.sendTopic = some topic → strncmpEq topic (CString.lit "/paas/") 6 = true) :
    (∃ noise, sendMsg publish m w = .ok () { w with
      gMsgList := w.gMsgList.eraseP fun n => n.serial = m.serial
      trace := w.trace ++ turnActions w.gMqttCtx m ⟨w.gMqttCtx.connectedUav, publish⟩ ++ noise } ∧
      noise.filter Action.loud = []) ∨
    m.sendTopic = none ∧ sendMsg publish m w =
      .error .nullPointer { w with trace := w.trace ++ [.turn m w.gMqttCtx.connectedUav] } := by
  obtain ⟨msg, sendTopic, serial⟩ := m
  cases msg with
  | none =>
    refine Or.inl ⟨[], ?_, rfl⟩
    simp [sendMsg, listDel, turnActions, publishFor]
  | some data =>
    cases sendTopic with
    | none => exact Or.inr ⟨rfl, rfl⟩
    | some topic =>
      let w' : World := { w with trace := w.trace ++
          [.turn ⟨some data, some topic, serial⟩ w.gMqttCtx.connectedUav] }
      obtain ⟨answer, noise, calls, quiet⟩ :=
        doTtyMsgPublish_calls data (toInt32 data.length) publish (supported topic rfl) w'
      refine Or.inl ⟨noise, ?_, quiet⟩
      have run := bind_ok (f := fun _ => listDel ⟨some data, some topic, serial⟩) calls
      cases connected : w.gMqttCtx.connectedUav with
      | true =>
        simpa [sendMsg, listDel, turnActions, publishFor, connected, w'] using run
      | false =>
        simpa [sendMsg, listDel, turnActions, publishFor, connected, w'] using run

theorem sendTurn_serves (t : Turn) (m : MsgQueue) (rest : List MsgQueue) :
    Spec (fun w => Kept allocated w ∧ w.gMsgList = m :: rest) (sendTurn t m)
      (fun _ w => Kept allocated w ∧ w.gMsgList = rest) (Stopped allocated) := by
  have before : Keeps (fun w => Kept allocated w ∧ w.gMsgList = m :: rest)
      (runAll mqttCallback t.before) := by
    apply callbacks_keeps
    · constructor
      · exact fun _ held => held
      · exact fun quiet held => ⟨kept_steady.history quiet held.1, held.2⟩
    · exact fun r _ => getDeviceId_keeps (fun _ held => held) r
  apply spec_bind (spec_halting before fun _ held => Or.inl held.1)
  rintro - w ⟨⟨f, mirrors⟩, list⟩
  have head : m.Formed allocated := by
    apply mirrors.formed
    rw [Fifo.arrivals, ← mirrors.waiting, list]
    simp
  have unlinked : w.gMsgList.eraseP (fun n => decide (n.serial = m.serial)) = rest := by simp [list]
  rcases sendMsg_runs t.publish w head.supported with ⟨noise, run, quiet⟩ | ⟨missing, run⟩
  · rw [run, unlinked]
    rw [list] at mirrors
    have served := mirrors_serve mirrors w.gMqttCtx ⟨w.gMqttCtx.connectedUav, t.publish⟩
    exact ⟨⟨_, mirrors_same (by simp [quiet]) served⟩, rfl⟩
  · rw [run]
    refine Or.inr ⟨?_, f, m, w.gMqttCtx.connectedUav, w.trace, ?_, ?_, missing, rfl⟩
    · intro holds
      obtain ⟨-, topic, formed⟩ := head.whole holds
      rw [missing] at formed
      cases formed
    · exact { mirrors with formed := fun n member => ⟨(mirrors.formed n member).supported, False.elim⟩ }
    · simp [list]

theorem sendLoop_drains (turns : Nat → Turn) (k : Nat) (ms : List MsgQueue) :
    Spec (fun w => Kept allocated w ∧ w.gMsgList = ms) (sendLoop turns k ms)
      (fun _ w => Kept allocated w ∧ w.gMsgList = []) (Stopped allocated) := by
  induction ms generalizing k with
  | nil => exact spec_pure fun _ held => held
  | cons m rest ih => exact spec_bind (sendTurn_serves (turns k) m rest) fun _ => ih (k + 1)

theorem mqttSendRun_drains (turns : Nat → Turn) :
    Spec (Kept allocated) (mqttSendRun turns) (fun _ w => Kept allocated w ∧ w.gMsgList = [])
      (Stopped allocated) := by
  apply spec_get
  intro w kept
  apply spec_bind (spec_at (sendLoop_drains turns 0 w.gMsgList) ⟨kept, rfl⟩)
  intro _
  apply spec_modify
  rintro w' ⟨kept', empty⟩
  exact ⟨kept_armed w' _ _ kept', empty⟩

def Event.Allocates : Event → Prop
  | .msgAdd _ i => i.alloc = ⟨true, true, true⟩
  | .post h => h.postData.add.alloc = ⟨true, true, true⟩
  | .send _ => True
  | .callback _ => True

theorem keeps_stopped {m : Prog Unit} (keeps : Keeps (Kept allocated) m) :
    Spec (Kept allocated) m (fun _ => Kept allocated) (Stopped allocated) :=
  spec_halting keeps fun _ held => Or.inl held

theorem handle_kept (p : Platform) (e : Event) (works : allocated → e.Allocates) :
    Spec (Kept allocated) (handle p e) (fun _ => Kept allocated) (Stopped allocated) := by
  cases e with
  | msgAdd data i => exact keeps_stopped (cjsonMsgAdd_kept data none i works)
  | post h =>
    have creatPostData : Keeps (Kept allocated) (act .cjsonCreatPostData) := by
      apply keeps_act
      rintro w ⟨f, mirrors⟩
      exact ⟨f, mirrors_aside mirrors rfl rfl rfl rfl⟩
    exact keeps_stopped (mqttPostRun_keeps kept_steady kept_armed kept_sampled creatPostData p
      (fun r _ => kept_device r)
      fun data report => cjsonMsgAdd_kept data report _ works)
  | send turns =>
    exact spec_post (mqttSendRun_drains turns) fun _ _ held => held.1
  | callback c => exact keeps_stopped (mqttCallback_keeps kept_steady fun r _ => kept_device r)

theorem run_kept (p : Platform) (events : List Event) (works : allocated → ∀ e ∈ events, e.Allocates) :
    Spec (Kept allocated) (run p events) (fun _ => Kept allocated) (Stopped allocated) :=
  spec_runAll fun e member => handle_kept p e fun holds => works holds e member

/-- A drain that returns leaves nothing, whatever came before it. -/
theorem run_drained (p : Platform) (events : List Event) (works : allocated → ∀ e ∈ events, e.Allocates)
    (turns : Nat → Turn) : Spec (Kept allocated) (run p (events ++ [.send turns])) (fun _ w => w.gMsgList = [])
      (Stopped allocated) := by
  rw [run, runAll_append]
  apply spec_bind (run_kept p events works)
  intro _
  apply spec_bind (mqttSendRun_drains turns)
  intro _
  exact spec_pure fun _ held => held.2

theorem main_kept (p : Platform) (b : Boot) : Keeps (Kept allocated) (main p b) := by
  apply main_keeps p kept_steady.history kept_armed
  · exact fun _ _ kept => kept
  · exact fun _ kept => kept
  · exact kept_device b.serial
  · rintro w user password ⟨f, mirrors⟩
    exact ⟨f, mirrors_aside mirrors rfl rfl rfl rfl⟩

theorem newplat_kept (p : Platform) (b : Boot) (events : List Event)
    (works : allocated → ∀ e ∈ events, e.Allocates) :
    Spec (Kept allocated) (newplat p b events) (fun _ => Kept allocated) (Stopped allocated) :=
  spec_bind (keeps_stopped (main_kept p b)) fun _ => run_kept p events works

theorem publishFor_cases (m : MsgQueue) (o : Outcome) : publishFor m o = [] ∨
    ∃ data topic, m.msg = some data ∧ publishFor m o = [⟨topic, data, toInt32 data.length, o.ret⟩] := by
  unfold publishFor
  split
  · rename_i data topic copied _
    cases o.connected with
    | true => exact Or.inr ⟨data, topic, copied, rfl⟩
    | false => exact Or.inl rfl
  · exact Or.inl rfl

theorem stopped_mailbox {w : World} (stopped : Stopped allocated w) :
    ∃ f : Mailbox, f.arrivals = queuedOf w.trace ∧
      publishesOf w.trace = f.served.flatMap fun s => publishFor s.1 s.2 := by
  rcases stopped with ⟨f, mirrors⟩ | ⟨-, f, m, connected, trace, mirrors, -, -, last⟩
  · exact ⟨f, mirrors.queued.symm, mirrors.publishes⟩
  · refine ⟨f, ?_, ?_⟩
    · rw [last, ← mirrors.queued]
      simp [queuedOf]
    · rw [last, ← mirrors.publishes]
      simp [publishesOf]

end Steps

/-- A state in which no message has been queued yet. -/
def World.idle (w : World) : World := { w with gMsgList := [], trace := [] }

theorem idle_kept (allocated : Prop) (w : World) : Kept allocated w.idle := by
  refine ⟨Fifo.empty, ?_⟩
  constructor <;> first | rfl | exact fun _ member => nomatch member

end Newplat
