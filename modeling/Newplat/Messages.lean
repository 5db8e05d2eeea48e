import Newplat.Blind
import Newplat.Queue

/-! The messages the broker sends. Nothing that arrives changes what the device does: it leaves
a log line at most. -/
namespace Newplat

open Base

structure MosquittoMessage where
  topic : CString
  payload : Bytes
  payloadlen : Int

def mqttUavRecvCallback (_recvData : Bytes) (_len : Int) : Prog Int := return 0

def mosquittoUavMessageProcess (message : MosquittoMessage) : Prog Unit := do
  let w ← get
  match w.gMqttCtx.uavMsgCallback with
  | some .mqttUavRecvCallback => do
    let _ ← mqttUavRecvCallback message.payload message.payloadlen
    pure ()
  | none => pure ()

def mqttMessageCallback (mosq : Nat) (message : MosquittoMessage) : Prog Unit := do
  if message.payloadlen ≠ 0 then
    let w ← get
    if some mosq = w.gMqttCtx.mosqUav then mosquittoUavMessageProcess message
    else pure ()
  else loge "%s (null)" []

/-- A step of the running program, or a message that arrives between two of them. -/
inductive Incoming where
  | event (e : Event)
  | message (mosq : Nat) (message : MosquittoMessage)

def handleIncoming (p : Platform) : Incoming → Prog Unit
  | .event e => handle p e
  | .message mosq message => mqttMessageCallback mosq message

/-- The line that is written for a message without a payload. -/
def Action.isNull : Action → Bool
  | .loge text _ => text = "%s (null)"
  | _ => false

/-- The history without those lines. -/
def World.unheard (w : World) : World := { w with trace := w.trace.filter fun a => !a.isNull }

/-- The same world but for such lines. -/
def Alike (w w' : World) : Prop := w.unheard = w'.unheard

/-- What a relation of worlds keeps when both go on in the same way, with their queues too. -/
structure Parallel (R : World → World → Prop) : Prop extends Aside R where
  list : ∀ {w w'}, R w w' → w'.gMsgList = w.gMsgList
  queued : ∀ {w w'}, R w w' → queuedOf w'.trace = queuedOf w.trace
  acted : ∀ {w w'} (a : Action), R w w' →
    R { w with trace := w.trace ++ [a] } { w' with trace := w'.trace ++ [a] }
  relist : ∀ {w w'} (l : List MsgQueue), R w w' → R { w with gMsgList := l } { w' with gMsgList := l }

section Parallel

variable {R : World → World → Prop}

theorem cjsonMsgAdd_parallel (parallel : Parallel R) (data : Option Bytes) (report : Option CJson) (i : MsgAdd) :
    Agree R (cjsonMsgAdd data report i) (cjsonMsgAdd data report i) R := by
  have blind {α : Type} {m : Prog α} (unseen : Blind m) : Agree R m m R := unseen R parallel.toAside
  apply agree_bind (blind deviceId_blind)
  intro id
  split
  · exact agree_pure ()
  apply agree_bind (blind (getDeviceId_blind _))
  intro _
  apply agree_bind (blind deviceId_blind)
  intro id
  apply simulates_copy
  intro w w' related
  have same : w'.gMqttCtx.publishTopicUpload = w.gMqttCtx.publishTopicUpload := by
    rw [parallel.same related]
    rfl
  rw [same]
  apply agree_bind (blind (blind_act rfl))
  intro _
  split
  · exact blind (blind_loge _ _)
  cases data with
  | none => exact blind (blind_throw _)
  | some data =>
    apply agree_bind (blind (blind_check _))
    intro msg
    apply simulates_modify
    intro w w' related
    simp only [parallel.list related, parallel.queued related]
    exact ⟨trivial, parallel.relist _ (parallel.acted _ related)⟩

theorem sendMsg_parallel (parallel : Parallel R) (publish : Int) (m : MsgQueue) :
    Agree R (sendMsg publish m) (sendMsg publish m) R := by
  have unlinked : Agree R (listDel m) (listDel m) R := by
    apply simulates_modify
    intro w w' related
    rw [parallel.list related]
    exact ⟨rfl, parallel.relist _ related⟩
  apply simulates_copy
  intro w w' related
  have same : w'.gMqttCtx.connectedUav = w.gMqttCtx.connectedUav := by
    rw [parallel.same related]
    rfl
  rw [same]
  have turned : Agree R (act (.turn m w.gMqttCtx.connectedUav)) (act (.turn m w.gMqttCtx.connectedUav)) R :=
    simulates_modify fun _ _ related => ⟨rfl, parallel.acted _ related⟩
  apply agree_bind turned
  intro _
  cases m.msg with
  | none => exact unlinked
  | some msg => exact agree_bind (doTtyMsgPublish_blind _ _ _ _ R parallel.toAside) fun _ => unlinked

theorem sendLoop_parallel (parallel : Parallel R) (turns : Nat → Turn) (k : Nat) (ms : List MsgQueue) :
    Agree R (sendLoop turns k ms) (sendLoop turns k ms) R := by
  induction ms generalizing k with
  | nil => exact agree_pure ()
  | cons m rest ih =>
    apply agree_bind _ fun _ => ih (k + 1)
    exact agree_bind (callbacks_blind _ R parallel.toAside) fun _ => sendMsg_parallel parallel _ m

theorem cjsonCreatPostData_parallel (parallel : Parallel R) (p : Platform) (i : PostData) :
    Agree R (cjsonCreatPostData p i) (cjsonCreatPostData p i) R := by
  have blind {α : Type} {m : Prog α} (unseen : Blind m) : Agree R m m R := unseen R parallel.toAside
  apply agree_bind (blind (blind_act rfl))
  intro _
  apply agree_bind (blind (readDeviceId_blind _))
  intro id
  apply agree_bind (blind (cjsonCreateParamsData_blind p i))
  intro params
  dsimp only
  generalize aesEcbPkcs5Encrypt _ _ _ _ _ _ _ = sealing
  apply agree_bind (blind (blind_check sealing))
  intro sealed
  apply agree_bind (blind (callbacks_blind _))
  intro _
  exact cjsonMsgAdd_parallel parallel _ _ _

theorem mqttPostRun_parallel (parallel : Parallel R) (p : Platform) (h : Heartbeat) :
    Agree R (mqttPostRun p h) (mqttPostRun p h) R := by
  have blind {α : Type} {m : Prog α} (unseen : Blind m) : Agree R m m R := unseen R parallel.toAside
  apply agree_bind (blind (setUav_blind _))
  intro _
  apply agree_bind
  · exact blind (blind_modify fun _ _ => rfl)
  intro _
  apply agree_bind (blind (readModeminfo_blind p h))
  intro _
  apply agree_bind (blind (readUavinfo_blind p h))
  intro _
  apply agree_bind (cjsonCreatPostData_parallel parallel p _)
  intro _
  exact blind (blind_act rfl)

theorem handle_parallel (parallel : Parallel R) (p : Platform) (e : Event) : Agree R (handle p e) (handle p e) R := by
  cases e with
  | msgAdd data i => exact cjsonMsgAdd_parallel parallel data none i
  | post h => exact mqttPostRun_parallel parallel p h
  | callback c => exact mqttCallback_blind c R parallel.toAside
  | send turns =>
    apply simulates_copy
    intro w w' related
    rw [parallel.list related]
    apply agree_bind (sendLoop_parallel parallel turns 0 _)
    intro _
    exact blind_act rfl R parallel.toAside

end Parallel

theorem alike_parallel : Parallel Alike where
  same {w w'} alike := by
    cases w
    cases w'
    simp_all [Alike, World.unheard, World.beside, MqttContext.withSpare, MqttContext.spare]
  update {w w'} v alike := by
    cases w
    cases w'
    simp_all [Alike, World.unheard, World.beside]
  history {w w'} a _ alike := by
    cases w
    cases w'
    simp_all [Alike, World.unheard]
  spare {w w'} g alike := by
    cases w
    cases w'
    simp_all [Alike, World.unheard, World.mapSpare]
  list {w w'} alike := (congrArg World.gMsgList alike).symm
  queued {w w'} alike := by
    have kept : ∀ trace : List Action, queuedOf (trace.filter fun a => !a.isNull) = queuedOf trace := by
      intro trace
      rw [queuedOf, List.filterMap_filter]
      apply List.filterMap_congr
      intro a _
      cases a with
      | loge text args => exact ite_self none
      | _ => rfl
    have same : (w.trace.filter fun a => !a.isNull) = w'.trace.filter fun a => !a.isNull := congrArg World.trace alike
    rw [← kept, ← same, kept]
  acted {w w'} a alike := by
    cases w
    cases w'
    simp_all [Alike, World.unheard]
  relist {w w'} l alike := by
    cases w
    cases w'
    simp_all [Alike, World.unheard]

/-- The callback for payloads is either not set or does nothing. -/
theorem mosquittoUavMessageProcess_idle (message : MosquittoMessage) :
    mosquittoUavMessageProcess message = pure () := by
  funext w
  rw [mosquittoUavMessageProcess, get_bind_run]
  cases w.gMqttCtx.uavMsgCallback with
  | none => rfl
  | some c =>
    cases c
    rfl

theorem message_alike (mosq : Nat) (message : MosquittoMessage) {w w' : World} (alike : Alike w w') :
    ∃ a w'', mqttMessageCallback mosq message w = .ok a w'' ∧ Alike w'' w' := by
  rw [mqttMessageCallback, mosquittoUavMessageProcess_idle]
  split
  · rw [get_bind_run, ite_self]
    exact ⟨(), w, rfl, alike⟩
  · refine ⟨(), _, rfl, ?_⟩
    rw [Alike, ← alike]
    simp [World.unheard, Action.isNull]

def eventsAmong (steps : List Incoming) : List Event :=
  steps.filterMap fun
    | .event e => some e
    | .message _ _ => none

theorem incoming_alike (p : Platform) (steps : List Incoming) :
    Agree Alike (runAll (handleIncoming p) steps) (run p (eventsAmong steps)) Alike := by
  induction steps with
  | nil => exact agree_pure ()
  | cons step steps ih =>
    cases step with
    | event e => exact agree_bind (handle_parallel alike_parallel p e) fun _ => ih
    | message mosq message => exact simulates_left (fun _ _ alike => message_alike mosq message alike) fun _ => ih

/-- Whatever arrives between the events, the run goes as it does when nothing arrives. -/
theorem messages_inert (p : Platform) (b : Boot) (steps : List Incoming) :
    match (do main p b; runAll (handleIncoming p) steps) (.start p.target),
      newplat p b (eventsAmong steps) (.start p.target) with
    | .ok _ w, .ok _ w' => w.unheard = w'.unheard
    | .error e w, .error e' w' => e = e' ∧ w.unheard = w'.unheard
    | _, _ => False := by
  have both : Agree Alike (do main p b; runAll (handleIncoming p) steps) (newplat p b (eventsAmong steps)) Alike :=
    agree_bind (main_blind p b Alike alike_parallel.toAside) fun _ => incoming_alike p steps
  cases left : (do main p b; runAll (handleIncoming p) steps : Prog Unit) (.start p.target) with
  | ok a w =>
    obtain ⟨_, w', right, -, alike⟩ := simulates_ok both rfl left
    rw [right]
    exact alike
  | error e w =>
    obtain ⟨w', right, alike⟩ := simulates_error both rfl left
    rw [right]
    exact ⟨rfl, alike⟩

end Newplat
