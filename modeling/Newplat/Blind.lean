import Newplat.Base.Simulation
import Newplat.Main

/-! Most of the program sees neither the queue nor the history, nor the settings it has no use
for. It does the same in two worlds that differ in nothing else. -/
namespace Newplat

open Base

/-- With another queue, and with another history. -/
def World.with (w : World) (list : List MsgQueue) (trace : List Action) : World :=
  { w with gMsgList := list, trace := trace }

/-- The settings that are read in, and that no call to mosquitto is made with. -/
structure Spare where
  mqttClientId : Option CString
  mqttCleanSession : Bool
  mqttMessageHeader : Option CString
  uavMsgCallback : Option UavMsgCallback

def MqttContext.spare (c : MqttContext) : Spare :=
  ⟨c.mqttClientId, c.mqttCleanSession, c.mqttMessageHeader, c.uavMsgCallback⟩

def MqttContext.withSpare (c : MqttContext) (s : Spare) : MqttContext :=
  { c with
    mqttClientId := s.mqttClientId
    mqttCleanSession := s.mqttCleanSession
    mqttMessageHeader := s.mqttMessageHeader
    uavMsgCallback := s.uavMsgCallback }

def World.mapSpare (w : World) (g : Spare → Spare) : World :=
  { w with gMqttCtx := w.gMqttCtx.withSpare (g w.gMqttCtx.spare) }

/-- With the queue, the history and the spare settings of another world. -/
def World.beside (w v : World) : World :=
  { w with
    gMsgList := v.gMsgList
    gMqttCtx := w.gMqttCtx.withSpare v.gMqttCtx.spare
    trace := v.trace }

/-- The actions that mark a message's way through the queue. -/
def Action.ofQueue : Action → Bool
  | .queued _ _ => true
  | .turn _ _ => true
  | _ => false

/-- A relation of worlds that differ in these at most, and stay related when both go on in the
same way. -/
structure Aside (R : World → World → Prop) : Prop where
  same : ∀ {w w'}, R w w' → w' = w.beside w'
  update : ∀ {w w'} (v : World), R w w' → R (v.beside w) (v.beside w')
  history : ∀ {w w'} (a : Action), a.ofQueue = false → R w w' →
    R { w with trace := w.trace ++ [a] } { w' with trace := w'.trace ++ [a] }
  spare : ∀ {w w'} (g : Spare → Spare), R w w' → R (w.mapSpare g) (w'.mapSpare g)

/-- The program sees neither the queue nor the history nor the spare settings. -/
def Blind {α : Type} (m : Prog α) : Prop := ∀ R, Aside R → Agree R m m R

section Rules

variable {α β ι : Type} {m : Prog α}

theorem blind_pure (a : α) : Blind (pure a) := fun _ _ => agree_pure a

theorem blind_throw (e : Halt) : Blind (throw e : Prog α) := fun _ _ => simulates_throw fun _ _ related => related

theorem blind_bind {f : α → Prog β} (first : Blind m) (rest : ∀ a, Blind (f a)) : Blind (m >>= f) :=
  fun R aside => agree_bind (first R aside) fun a => rest a R aside

theorem blind_get {f : World → Prog α} (unseen : ∀ w v : World, f (w.beside v) = f w)
    (each : ∀ w, Blind (f w)) : Blind (get >>= f) := by
  intro R aside
  apply simulates_copy
  intro w w' related
  have same : f w' = f w := by rw [aside.same related, unseen]
  rw [same]
  exact each w R aside

/-- A step that is the same in all worlds but for what it makes of the spare settings. -/
theorem blind_settle {f : World → World} (g : Spare → Spare)
    (unseen : ∀ w v : World, f (w.beside v) = ((f w).beside v).mapSpare g) : Blind (modify f) := by
  intro R aside
  apply simulates_modify
  intro w w' related
  have first : f w = ((f w).beside w).mapSpare g := unseen w w
  have second : f w' = ((f w).beside w').mapSpare g := by
    rw [← unseen, ← aside.same related]
  rw [first, second]
  exact ⟨rfl, aside.spare g (aside.update (f w) related)⟩

theorem blind_modify {f : World → World} (unseen : ∀ w v : World, f (w.beside v) = (f w).beside v) :
    Blind (modify f) :=
  blind_settle (fun s => s) unseen

theorem blind_act {a : Action} (apart : a.ofQueue = false) : Blind (act a) :=
  fun _ aside => simulates_modify fun _ _ related => ⟨rfl, aside.history a apart related⟩

theorem blind_loge (text : String) (args : List Int) : Blind (loge text args) := blind_act rfl

theorem blind_check (c : Checked α) : Blind (check c) := by
  cases c with
  | ok a => exact blind_pure a
  | error e => exact blind_throw e

theorem blind_runAll {step : ι → Prog Unit} {es : List ι} (each : ∀ e ∈ es, Blind (step e)) : Blind (runAll step es) :=
  fun R aside => agree_runAll fun e member => each e member R aside

end Rules

section Programs

theorem getDeviceId_blind (r : Popen) : Blind (getDeviceId r) := by
  apply blind_get (fun _ _ => rfl)
  intro w
  apply blind_bind (blind_check _)
  intro sn
  exact blind_modify fun _ _ => rfl

theorem deviceId_blind : Blind deviceId := blind_get (fun _ _ => rfl) fun _ => blind_check _

theorem setCtx_settle {f : MqttContext → MqttContext} (g : Spare → Spare)
    (unseen : ∀ (c : MqttContext) (s : Spare), f (c.withSpare s) = (f c).withSpare (g s)) : Blind (setCtx f) := by
  apply blind_settle g
  intro w v
  simp only [World.beside, World.mapSpare, unseen]
  rfl

theorem setCtx_blind {f : MqttContext → MqttContext}
    (unseen : ∀ (c : MqttContext) (s : Spare), f (c.withSpare s) = (f c).withSpare s) : Blind (setCtx f) :=
  setCtx_settle (fun s => s) unseen

theorem setNet_blind (f : NetInfo → NetInfo) : Blind (setNet f) := blind_modify fun _ _ => rfl

theorem setUav_blind (f : UavData → UavData) : Blind (setUav f) := blind_modify fun _ _ => rfl

theorem subMqttTopic_blind (topic : CString) (ret : Int) : Blind (subMqttTopic topic ret) := by
  apply blind_get (fun _ _ => rfl)
  intro w
  apply blind_bind (blind_act rfl)
  intro _
  split
  · exact blind_loge _ _
  · exact blind_pure ()

theorem mqttCallback_blind (c : Callback) : Blind (mqttCallback c) := by
  cases c with
  | connect mosq rc first second subscribe =>
    simp only [mqttCallback, mqttConnectCallback]
    split
    · exact blind_throw _
    apply blind_bind (getDeviceId_blind first)
    intro _
    apply blind_get (fun _ _ => rfl)
    intro w
    split
    · apply blind_bind (blind_act rfl)
      intro _
      apply blind_bind (setCtx_blind fun _ _ => rfl)
      intro _
      apply blind_bind deviceId_blind
      intro id
      split
      · apply blind_bind (getDeviceId_blind second)
        intro _
        apply blind_bind deviceId_blind
        intro id
        exact subMqttTopic_blind _ _
      · exact blind_pure ()
    · exact blind_pure ()
  | disconnect mosq rc =>
    apply blind_get (fun _ _ => rfl)
    intro w
    split
    · exact setCtx_blind fun _ _ => rfl
    · exact blind_pure ()

theorem callbacks_blind (cs : List Callback) : Blind (runAll mqttCallback cs) :=
  blind_runAll fun c _ => mqttCallback_blind c

theorem readDeviceId_blind (r : Read) : Blind (readDeviceId r) := by
  apply blind_bind (callbacks_blind _)
  intro _
  apply blind_bind (getDeviceId_blind _)
  intro _
  exact deviceId_blind

theorem getString_blind (p : Platform) (r : StringReply) (param : CString) : Blind (getString p r param) := by
  apply blind_get (fun _ _ => rfl)
  intro w
  apply blind_bind (blind_check _)
  intro s
  apply blind_bind
  · exact blind_modify fun _ _ => rfl
  intro _
  exact blind_pure _

theorem atofTimes_blind (p : Platform) (s : Option CString) (k : Int) : Blind (atofTimes p s k) := by
  cases s with
  | none => exact blind_throw _
  | some s => exact blind_pure _

theorem readModeminfo_blind (p : Platform) (h : Heartbeat) : Blind (readModeminfo p h) := by
  unfold readModeminfo
  iterate 6
    apply blind_bind (setNet_blind _)
    intro _
  apply blind_bind (getString_blind p _ _)
  intro netStyle
  exact setNet_blind _

theorem copyTime_blind (uavtime : Option CString) : Blind (copyTime uavtime) := by
  cases uavtime with
  | none => exact blind_pure ()
  | some uavtime =>
    apply blind_get (fun _ _ => rfl)
    intro w
    apply blind_bind (blind_check _)
    intro time
    exact setUav_blind _

/-- A reading that comes as a text. -/
theorem reading_blind {β : Type} (p : Platform) (r : StringReply) (param : CString) (k : Int) {f : Int → Prog β}
    (rest : ∀ v, Blind (f v)) : Blind (do let s ← getString p r param; let v ← atofTimes p s k; f v) := by
  apply blind_bind (getString_blind p r param)
  intro s
  exact blind_bind (atofTimes_blind p s k) rest

theorem readUavinfo_blind (p : Platform) (h : Heartbeat) : Blind (readUavinfo p h) := by
  apply blind_bind (setUav_blind _)
  intro _
  apply blind_bind (setUav_blind _)
  intro _
  apply reading_blind
  intro lat
  apply blind_bind (setUav_blind _)
  intro _
  apply reading_blind
  intro lng
  apply blind_bind (setUav_blind _)
  intro _
  apply blind_bind (setUav_blind _)
  intro _
  apply reading_blind
  intro height
  apply blind_bind (setUav_blind _)
  intro _
  apply blind_bind (getString_blind p _ _)
  intro uavtime
  apply blind_bind (copyTime_blind uavtime)
  intro _
  apply blind_bind (setUav_blind _)
  intro _
  apply reading_blind
  intro spd
  exact setUav_blind _

theorem cjsonCreateParamsData_blind (p : Platform) (i : PostData) : Blind (cjsonCreateParamsData p i) := by
  apply blind_bind
  · apply blind_bind (readDeviceId_blind _)
    intro id
    exact blind_get (fun _ _ => rfl) fun _ => blind_pure _
  intro dev
  apply blind_bind
  · apply blind_get (fun _ _ => rfl)
    intro w
    apply blind_bind (blind_check _)
    intro time
    apply blind_bind (readDeviceId_blind _)
    intro id
    exact blind_pure _
  intro uav
  exact blind_pure _

theorem doTtyMsgPublish_blind (data : CString) (len : Int) (topic : Option CString) (publish : Int) :
    Blind (doTtyMsgPublish data len topic publish) := by
  cases topic with
  | none => exact blind_throw _
  | some topic =>
    simp only [doTtyMsgPublish]
    split
    · apply blind_get (fun _ _ => rfl)
      intro w
      split
      · apply blind_bind (blind_act rfl)
        intro _
        split
        · exact blind_bind (blind_loge _ _) fun _ => blind_pure _
        · exact blind_pure _
      · exact blind_bind (blind_loge _ _) fun _ => blind_pure _
    · exact blind_bind (blind_loge _ _) fun _ => blind_pure _

theorem mandatory_blind (ctx : UciContext) (name : CString) (message : String) {rest : CString → Prog Int}
    (each : ∀ value, Blind (rest value)) : Blind (mandatory ctx name message rest) := by
  unfold mandatory
  split
  · exact blind_bind (blind_loge _ _) fun _ => blind_pure _
  · exact each _

theorem readMqttConf_blind (p : Platform) (b : Boot) : Blind (readMqttConf p b) := by
  unfold readMqttConf
  iterate 9
    apply mandatory_blind
    intro _
  apply blind_bind
  · unfold setSubQos
    split
    · exact setCtx_blind fun _ _ => rfl
    · exact blind_pure ()
  intro _
  apply mandatory_blind
  intro manu
  apply blind_bind
  · unfold setUavMsgCallback
    split
    · exact setCtx_settle (fun s => { s with uavMsgCallback := some .mqttUavRecvCallback }) fun _ _ => rfl
    · exact setCtx_settle (fun s => { s with uavMsgCallback := none }) fun _ _ => rfl
  intro _
  apply blind_bind (getDeviceId_blind _)
  intro _
  apply blind_bind (setCtx_blind fun _ _ => rfl)
  intro _
  apply blind_get (fun _ _ => rfl)
  intro w
  apply blind_bind (blind_check _)
  intro len
  generalize aesEcbPkcs5Encrypt _ _ _ _ _ _ _ = sealing
  apply blind_bind (blind_check sealing)
  intro sealed
  apply blind_bind _ fun _ => blind_pure _
  exact setCtx_settle (fun s => ⟨_, _, _, s.uavMsgCallback⟩) fun _ _ => rfl

section Starting

variable {R : World → World → Prop} {p : Platform} {b : Boot} {ctx' : UciContext}

/-- The start with another configuration, which is read to the same. -/
theorem mqttInit_agree (aside : Aside R)
    (read : Agree R (readMqttConf p b) (readMqttConf p { b with ctx := ctx' }) R) :
    Agree R (mqttInit p b) (mqttInit p { b with ctx := ctx' }) R := by
  apply agree_bind read
  intro ret
  refine (?connects : Blind _) R aside
  split
  · exact blind_pure _
  apply blind_bind (setCtx_blind fun _ _ => rfl)
  intro _
  split
  · exact blind_bind (blind_loge _ _) fun _ => blind_pure _
  apply blind_bind
  · apply blind_get (fun _ _ => rfl)
    intro w
    split
    · apply blind_bind deviceId_blind
      intro user
      apply blind_bind (blind_check _)
      intro password
      exact blind_act rfl
    · exact blind_pure ()
  intro _
  apply blind_get (fun _ _ => rfl)
  intro w
  apply blind_bind (blind_act rfl)
  intro _
  split
  · exact blind_bind (blind_loge _ _) fun _ => blind_pure _
  · exact blind_pure _

theorem mqttBeatInit_blind (uptime : BusAnswer) : Blind (mqttBeatInit uptime) := by
  apply blind_bind
  · exact blind_modify fun _ _ => rfl
  intro _
  apply blind_bind (blind_act rfl)
  intro _
  exact blind_bind (blind_act rfl) fun _ => blind_pure _

theorem confUciInit_blind (b : Boot) : Blind (confUciInit b) := by
  unfold confUciInit
  split
  · exact blind_bind (blind_loge _ _) fun _ => blind_pure _
  split
  · exact blind_bind (blind_loge _ _) fun _ => blind_pure _
  · exact blind_pure _

theorem main_agree (aside : Aside R)
    (read : Agree R (readMqttConf p b) (readMqttConf p { b with ctx := ctx' }) R) :
    Agree R (main p b) (main p { b with ctx := ctx' }) R := by
  apply agree_bind (confUciInit_blind b R aside)
  intro ret
  split
  · exact (blind_bind (blind_loge _ _) fun _ => blind_throw _) R aside
  apply agree_bind (mqttInit_agree aside read)
  intro _
  apply agree_bind (mqttBeatInit_blind b.uptime R aside)
  intro ret
  split
  · exact (blind_bind (blind_loge _ _) fun _ => blind_throw _) R aside
  · exact blind_act rfl R aside

theorem main_blind (p : Platform) (b : Boot) : Blind (main p b) := by
  intro R aside
  have read : Agree R (readMqttConf p b) (readMqttConf p { b with ctx := b.ctx }) R := readMqttConf_blind p b R aside
  exact main_agree aside read

end Starting

end Programs

end Newplat
