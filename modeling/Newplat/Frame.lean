import Newplat.Moments

/-! What the program's steps leave alone. Each function is walked through once, for any
condition that the few primitive steps it is made of keep. -/
namespace Newplat

open Base

/-- The actions that concern a report, a message, its topic, the credentials or a timer. -/
def Action.loud : Action → Bool
  | .loge text _ => text = "Unsupport mqtt topic"
  | .cjsonCreatPostData => true
  | .queued _ _ => true
  | .turn _ _ => true
  | .topicFormatted _ => true
  | .mosquittoPublish _ _ _ _ _ _ => true
  | .mosquittoUsernamePwSet _ _ => true
  | .uloopTimeoutSet _ _ => true
  | _ => false

/-- Kept when the connection comes or goes, and when something unrelated is done. -/
structure Steady (I : World → Prop) : Prop where
  connection : ∀ {w} up, I w → I { w with gMqttCtx := { w.gMqttCtx with connectedUav := up } }
  history : ∀ {w} {a : Action}, a.loud = false → I w → I { w with trace := w.trace ++ [a] }

/-- Kept when something unrelated is done. -/
abbrev Logged (I : World → Prop) : Prop :=
  ∀ {w : World} {a : Action}, a.loud = false → I w → I { w with trace := w.trace ++ [a] }

def Armed (I : World → Prop) : Prop :=
  ∀ w timer msecs, I w → I { w with trace := w.trace ++ [.uloopTimeoutSet timer msecs] }

structure Sampled (I : World → Prop) : Prop where
  flyTime : ∀ {w} t, I w → I { w with gFlyTime := t }
  netInfo : ∀ {w} n, I w → I { w with gNetInfo := n }
  uavData : ∀ {w} u, I w → I { w with gUavData := u }
  strings : ∀ {w} st, I w → I { w with ubusString := st }

/-- What a tick stores of its readings is no matter; its count may be. -/
structure Sensing (I : World → Prop) : Prop where
  netInfo : ∀ {w} n, I w → I { w with gNetInfo := n }
  uavData : ∀ {w} u, I w → I { w with gUavData := u }
  strings : ∀ {w} st, I w → I { w with ubusString := st }

theorem Sampled.sensing {I : World → Prop} (sampled : Sampled I) : Sensing I :=
  ⟨sampled.netInfo, sampled.uavData, sampled.strings⟩

structure Drained (I : World → Prop) : Prop where
  turn : ∀ {w} m up, I w → I { w with trace := w.trace ++ [.turn m up] }
  publish : ∀ {w} topic data len qos retain ret, I w →
    I { w with trace := w.trace ++ [.mosquittoPublish topic data len qos retain ret] }
  unsupported : ∀ {w}, I w → I { w with trace := w.trace ++ [.loge "Unsupport mqtt topic" []] }
  list : ∀ {w} l, I w → I { w with gMsgList := l }

structure Reported (I : World → Prop) : Prop where
  formatted : ∀ {w w'}, I w → I w' →
    I { w' with trace := w'.trace ++ [.topicFormatted w.gMqttCtx.publishTopicUpload] }
  queued : ∀ {w} m report, I w →
    I { w with gMsgList := w.gMsgList ++ [m], trace := w.trace ++ [.queued m report] }

/-- What says nothing is kept by everything. -/
def Anywhere (_ : World) : Prop := True

theorem anywhere_steady : Steady Anywhere := ⟨fun _ _ => trivial, fun _ _ => trivial⟩

theorem anywhere_sampled : Sampled Anywhere :=
  ⟨fun _ _ => trivial, fun _ _ => trivial, fun _ _ => trivial, fun _ _ => trivial⟩

theorem anywhere_drained : Drained Anywhere :=
  ⟨fun _ _ _ => trivial, fun _ _ _ _ _ _ _ => trivial, fun _ => trivial, fun _ _ => trivial⟩

def Recorded (A : Action → Prop) (w : World) : Prop := ∀ a ∈ w.trace, A a

section History

variable {A : Action → Prop}

theorem recorded_snoc {w : World} {a : Action} (recorded : Recorded A w) (list : List MsgQueue)
    (meets : A a) :
    Recorded A { w with gMsgList := list, trace := w.trace ++ [a] } := by
  intro a' member
  rcases List.mem_append.mp member with old | new
  · exact recorded a' old
  · rw [List.mem_singleton.mp new]
    exact meets

theorem recorded_steady (quiet : ∀ a, a.loud = false → A a) : Steady (Recorded A) where
  connection _ recorded := recorded
  history {w} _ silent recorded := recorded_snoc recorded w.gMsgList (quiet _ silent)

theorem recorded_armed (set : ∀ timer msecs, A (.uloopTimeoutSet timer msecs)) : Armed (Recorded A) :=
  fun w _ _ recorded => recorded_snoc recorded w.gMsgList (set _ _)

theorem recorded_sampled : Sampled (Recorded A) where
  flyTime _ recorded := recorded
  netInfo _ recorded := recorded
  uavData _ recorded := recorded
  strings _ recorded := recorded

theorem recorded_drained (turn : ∀ m up, A (.turn m up))
    (publish : ∀ topic data len qos retain ret, A (.mosquittoPublish topic data len qos retain ret))
    (unsupported : A (.loge "Unsupport mqtt topic" [])) : Drained (Recorded A) where
  turn {w} m up recorded := recorded_snoc recorded w.gMsgList (turn m up)
  publish {w} _ _ _ _ _ _ recorded := recorded_snoc recorded w.gMsgList (publish _ _ _ _ _ _)
  unsupported {w} recorded := recorded_snoc recorded w.gMsgList unsupported
  list _ recorded := recorded

end History

def mandatoryOptions : List CString :=
  [CString.lit "host", CString.lit "port", CString.lit "topic", CString.lit "sub_topic",
    CString.lit "header", CString.lit "clean_session", CString.lit "qos", CString.lit "keepalive",
    CString.lit "retain_msg", CString.lit "uav_manufacture"]

def Complete (ctx : UciContext) : Prop :=
  ∀ name ∈ mandatoryOptions, ∃ value, mqttOption ctx name = some value

/-- Those read before anything is assigned. -/
def frontOptions : List CString := mandatoryOptions.dropLast

section Walks

variable {I J E : World → Prop}

theorem getDeviceId_keeps (identity : ∀ {w} sn, I w → I { w with gDeviceId := sn }) (r : Popen) :
    Keeps I (getDeviceId r) := by
  apply keeps_get
  intro w _
  apply keeps_bind keeps_check
  intro sn
  exact keeps_modify fun _ held => identity sn held

theorem deviceId_keeps : Keeps I deviceId := keeps_get fun _ _ => keeps_check

theorem loge_keeps (logged : Logged I) {text : String} (other : text ≠ "Unsupport mqtt topic")
    (args : List Int) : Keeps I (loge text args) :=
  keeps_act fun _ held => logged (decide_eq_false other) held

theorem subMqttTopic_keeps (logged : Logged I) (topic : CString) (ret : Int) :
    Keeps I (subMqttTopic topic ret) := by
  apply keeps_get
  intro w _
  apply keeps_bind (keeps_act fun _ held => logged rfl held)
  intro _
  split
  · exact loge_keeps logged (by decide) _
  · exact keeps_pure

/-- A connection, by what holds after the first reading of the identity (`F`), with the flag set (`U`) and
after the second reading (`S`), and what is known of the identity each time it is looked at (`M`, `N`). -/
theorem mqttConnectCallback_walk (F U S : World → Prop) (M N : CString → World → Prop) {mosq : Nat} {rc : Int}
    {first second : Popen} {subscribe : Int} (refused : rc ≠ 0 → ∀ w, I w → E w)
    (found : rc = 0 → Spec I (getDeviceId first) (fun _ => F) E)
    (foreign : ∀ w, F w → some mosq ≠ w.gMqttCtx.mosqUav → J w)
    (joined : ∀ w, F w → some mosq = w.gMqttCtx.mosqUav → U { w with
      gMqttCtx := { w.gMqttCtx with connectedUav := true }
      trace := w.trace ++ [.uavMqttConnected] })
    (look : Spec U deviceId M E) (unnamed : ∀ id w, id.length = 0 → M id w → J w)
    (again : ∀ id, id.length ≠ 0 → Spec (M id) (getDeviceId second) (fun _ => S) E) (relook : Spec S deviceId N E)
    (subscribed : ∀ id w, F w → some mosq = w.gMqttCtx.mosqUav →
      Spec (N id) (subMqttTopic (paasTopic id w.gMqttCtx.subscribeTopic) subscribe) (fun _ => J) E) :
    Spec I (mqttConnectCallback mosq rc first second subscribe) (fun _ => J) E := by
  unfold mqttConnectCallback
  split
  · rename_i failed
    exact spec_throw (refused failed)
  rename_i accepted
  apply spec_bind (found (by simpa using accepted))
  intro _
  apply spec_get
  intro w held
  split
  · rename_i own
    have noted : Spec (fun w' => w' = w) (act .uavMqttConnected)
        (fun _ w' => w' = { w with trace := w.trace ++ [.uavMqttConnected] }) E := by
      apply spec_modify
      rintro _ rfl
      rfl
    have flagged : Spec (fun w' => w' = { w with trace := w.trace ++ [.uavMqttConnected] })
        (setCtx fun c => { c with connectedUav := true }) (fun _ => U) E := by
      apply spec_modify
      rintro _ rfl
      exact joined w held own
    apply spec_bind noted
    intro _
    apply spec_bind flagged
    intro _
    apply spec_bind look
    intro id
    split
    · rename_i named
      apply spec_bind (again id named)
      intro _
      apply spec_bind relook
      intro id
      exact subscribed id w held own
    · rename_i empty
      exact spec_pure fun w' => unnamed id w' (by simpa using empty)
  · rename_i other
    apply spec_pure
    rintro _ rfl
    exact foreign _ held other

theorem mqttCallback_keeps (steady : Steady I) {c : Callback}
    (device : ∀ r ∈ c.reads, Keeps I (getDeviceId r)) : Keeps I (mqttCallback c) := by
  cases c with
  | connect mosq rc first second subscribe =>
    apply mqttConnectCallback_walk I I I (fun _ => I) (fun _ => I)
    · exact fun _ _ held => held
    · exact fun _ => device first List.mem_cons_self
    · exact fun _ held _ => held
    · exact fun w held _ => steady.history (w := { w with gMqttCtx := { w.gMqttCtx with connectedUav := true } }) rfl
        (steady.connection true held)
    · exact deviceId_keeps
    · exact fun _ _ _ held => held
    · exact fun _ _ => device second (List.mem_cons_of_mem _ List.mem_cons_self)
    · exact deviceId_keeps
    · exact fun id w _ _ => subMqttTopic_keeps steady.history _ _
  | disconnect mosq rc =>
    apply keeps_get
    intro w _
    split
    · exact keeps_modify fun _ held => steady.connection false held
    · exact keeps_pure

theorem callbacks_keeps (steady : Steady I) {cs : List Callback}
    (device : ∀ r ∈ cs.flatMap Callback.reads, Keeps I (getDeviceId r)) :
    Keeps I (runAll mqttCallback cs) := by
  apply keeps_runAll
  intro c member
  apply mqttCallback_keeps steady
  intro r read
  exact device r (List.mem_flatMap.mpr ⟨c, member, read⟩)

theorem keeps_followed (steady : Steady I) (halts : ∀ w, I w → E w) :
    Followed (fun _ : Unit => I) (fun _ m => ∀ r ∈ m.reads, Keeps I (getDeviceId r)) (fun _ _ => ())
      (fun _ _ => True) E where
  step _ m device := by
    cases m with
    | callback c => exact spec_halting (mqttCallback_keeps steady device) halts
    | read r => exact spec_halting (device r List.mem_cons_self) halts
  look _ := spec_weaken deviceId_keeps (fun _ held => held) (fun _ _ held => ⟨trivial, held⟩) halts
  halts _ := halts

theorem readDeviceId_keeps (steady : Steady I) {r : Read}
    (device : ∀ s ∈ r.reads, Keeps I (getDeviceId s)) : Keeps I (readDeviceId r) := by
  have followed := keeps_followed (E := I) steady fun _ held => held
  have passes : Passes (fun _ m => ∀ s ∈ m.reads, Keeps I (getDeviceId s)) (fun _ _ => ()) () r.moments :=
    passes_always () fun m member _ s read => device s (read_reads member read)
  exact spec_post (readDeviceId_follows followed passes) fun _ _ held => held.2

theorem getString_keeps (sensing : Sensing I) (p : Platform) (r : StringReply) (param : CString) :
    Keeps I (getString p r param) := by
  apply keeps_get
  intro w _
  apply keeps_bind keeps_check
  intro answer
  exact keeps_bind (keeps_modify fun _ held => sensing.strings _ held) fun _ => keeps_pure

theorem atofTimes_keeps (p : Platform) (s : Option CString) (k : Int) : Keeps I (atofTimes p s k) := by
  cases s with
  | none => exact keeps_throw
  | some s => exact keeps_pure

theorem setNet_keeps (sensing : Sensing I) (f : NetInfo → NetInfo) : Keeps I (setNet f) :=
  keeps_modify fun _ held => sensing.netInfo _ held

theorem setUav_keeps (sensing : Sensing I) (f : UavData → UavData) : Keeps I (setUav f) :=
  keeps_modify fun _ held => sensing.uavData _ held

theorem readModeminfo_keeps (sensing : Sensing I) (p : Platform) (h : Heartbeat) :
    Keeps I (readModeminfo p h) := by
  unfold readModeminfo
  repeat' first
    | exact setNet_keeps sensing _
    | exact getString_keeps sensing _ _ _
    | apply keeps_bind
    | intro _

theorem copyTime_keeps (sensing : Sensing I) (uavtime : Option CString) : Keeps I (copyTime uavtime) := by
  cases uavtime with
  | none => exact keeps_pure
  | some uavtime =>
    apply keeps_get
    intro w _
    exact keeps_bind keeps_check fun _ => setUav_keeps sensing _

theorem readUavinfo_keeps (sensing : Sensing I) (p : Platform) (h : Heartbeat) :
    Keeps I (readUavinfo p h) := by
  unfold readUavinfo
  repeat' first
    | exact setUav_keeps sensing _
    | exact getString_keeps sensing _ _ _
    | exact atofTimes_keeps _ _ _
    | exact copyTime_keeps sensing _
    | apply keeps_bind
    | intro _

def collect (p : Platform) (h : Heartbeat) : Prog Unit := do
  setUav fun _ => .zero
  modify fun w => { w with gFlyTime := toInt32 (w.gFlyTime + 1) }
  readModeminfo p h
  readUavinfo p h

theorem mqttPostRun_eq (p : Platform) (h : Heartbeat) :
    mqttPostRun p h = (do
      collect p h
      cjsonCreatPostData p h.postData
      act (.uloopTimeoutSet .mqttPostTimeout 1000)) := by
  simp only [mqttPostRun, collect, bind_assoc]

theorem collect_keeps (sampled : Sampled I) (p : Platform) (h : Heartbeat) : Keeps I (collect p h) := by
  apply keeps_bind (setUav_keeps sampled.sensing _)
  intro _
  apply keeps_bind (keeps_modify fun _ held => sampled.flyTime _ held)
  intro _
  apply keeps_bind (readModeminfo_keeps sampled.sensing p h)
  intro _
  exact readUavinfo_keeps sampled.sensing p h

/-- The adding of a message, by what is known of the identity when it is tested (`K`) and when it is read
again (`N`), what holds in between (`S`), and what is known from the formatting of the topic on (`M`). -/
theorem cjsonMsgAdd_follows (S : World → Prop) (K N : CString → World → Prop)
    (M : CString → Option CString → World → Prop) {data : Option Bytes} {report : Option CJson} {i : MsgAdd}
    (test : Spec I deviceId K E) (skipped : ∀ id w, id.length = 0 → K id w → J w)
    (device : ∀ id, id.length ≠ 0 → Spec (K id) (getDeviceId i.serial) (fun _ => S) E) (look : Spec S deviceId N E)
    (formatted : ∀ id w, N id w → Spec (N id) (act (.topicFormatted w.gMqttCtx.publishTopicUpload))
      (fun _ => M id w.gMqttCtx.publishTopicUpload) E)
    (failed : i.alloc.node = false → ∀ id up, Spec (M id up) (loge "malloc error" []) (fun _ => J) E)
    (queued : i.alloc.node = true → ∀ id up msg, (∃ buf ∈ data, cstr buf = .ok msg) →
      Spec (M id up) (listAddTail (if i.alloc.msg then some msg else none)
        (if i.alloc.topic then some (paasTopic id up) else none) report) (fun _ => J) E)
    (halts : ∀ id up w, M id up w → E w) :
    Spec I (cjsonMsgAdd data report i) (fun _ => J) E := by
  apply spec_bind test
  intro id
  split
  · rename_i empty
    exact spec_pure fun w => skipped id w empty
  rename_i named
  apply spec_bind (device id named)
  intro _
  apply spec_bind look
  intro id
  apply spec_copy
  intro w held
  apply spec_bind (formatted id w held)
  intro _
  split
  · rename_i node
    exact failed node id _
  rename_i node
  cases data with
  | none => exact spec_throw (halts id _)
  | some data =>
    apply spec_bind (spec_checked fun _ _ _ => halts id _ _)
    intro msg
    apply spec_fact
    intro read
    exact queued (by simpa using node) id _ msg ⟨data, rfl, read⟩

theorem cjsonMsgAdd_walk (N : CString → World → Prop) (M : CString → Option CString → World → Prop)
    {data : Option Bytes} {report : Option CJson} {i : MsgAdd}
    (device : Spec I (getDeviceId i.serial) (fun _ => I) E) (look : Spec I deviceId N E)
    (formatted : ∀ id w, N id w → Spec (N id) (act (.topicFormatted w.gMqttCtx.publishTopicUpload))
      (fun _ => M id w.gMqttCtx.publishTopicUpload) E)
    (failed : ∀ id up, Spec (M id up) (loge "malloc error" []) (fun _ => J) E)
    (queued : ∀ id up msg, (∃ buf ∈ data, cstr buf = .ok msg) →
      Spec (M id up) (listAddTail (if i.alloc.msg then some msg else none)
        (if i.alloc.topic then some (paasTopic id up) else none) report) (fun _ => J) E)
    (skipped : ∀ w, I w → J w) (before : ∀ w, I w → E w) (halts : ∀ id up w, M id up w → E w) :
    Spec I (cjsonMsgAdd data report i) (fun _ => J) E := by
  apply cjsonMsgAdd_follows I (fun _ => I) N M (spec_halting deviceId_keeps before)
  · exact fun _ w _ => skipped w
  · exact fun _ _ => device
  · exact look
  · exact formatted
  · exact fun _ => failed
  · exact fun _ => queued
  · exact halts

/-- Up to the queueing of the message one condition is kept, after it another. -/
theorem cjsonMsgAdd_spec (failed : Keeps I (loge "malloc error" [])) (data : Option Bytes)
    (report : Option CJson) {i : MsgAdd} (device : Keeps I (getDeviceId i.serial))
    (formatted : ∀ {w w'}, I w → I w' →
      I { w' with trace := w'.trace ++ [.topicFormatted w.gMqttCtx.publishTopicUpload] })
    (queued : ∀ {w} m, I w →
      J { w with gMsgList := w.gMsgList ++ [m], trace := w.trace ++ [.queued m report] })
    (returns : ∀ w, I w → J w) (halts : ∀ w, I w → E w) :
    Spec I (cjsonMsgAdd data report i) (fun _ => J) E := by
  apply cjsonMsgAdd_walk (fun _ => I) (fun _ _ => I) (spec_halting device halts)
    (spec_halting deviceId_keeps halts)
  · exact fun _ w held => spec_modify fun _ held' => formatted held held'
  · exact fun _ _ => spec_post (spec_halting failed halts) fun _ => returns
  · exact fun _ _ _ _ => spec_modify fun _ held => queued _ held
  · exact returns
  · exact halts
  · exact fun _ _ => halts

theorem cjsonMsgAdd_keeps (steady : Steady I) (reported : Reported I) (data : Option Bytes)
    (report : Option CJson) {i : MsgAdd} (device : Keeps I (getDeviceId i.serial)) :
    Keeps I (cjsonMsgAdd data report i) :=
  cjsonMsgAdd_spec (loge_keeps steady.history (by decide) _) data report device reported.formatted
    (fun m held => reported.queued m report held) (fun _ held => held) fun _ held => held

theorem buildPostData_spec (steady : Steady I) (p : Platform) {i : PostData}
    (device : ∀ r ∈ i.reads, Keeps I (getDeviceId r))
    (add : ∀ data report, Spec I (cjsonMsgAdd data report i.add) (fun _ => J) E) (halts : ∀ w, I w → E w) :
    Spec I (buildPostData p i) (fun _ => J) E := by
  have passes : Passes (fun _ m => ∀ r ∈ m.reads, Keeps I (getDeviceId r)) (fun _ _ => ()) () i.moments :=
    passes_always () fun m member _ r read => device r (postData_reads member read)
  apply buildPostData_follows (keeps_followed steady halts) p passes
  intros
  exact add _ _

theorem buildPostData_keeps (steady : Steady I) (p : Platform) {i : PostData}
    (device : ∀ r ∈ i.reads, Keeps I (getDeviceId r))
    (add : ∀ data report, Keeps I (cjsonMsgAdd data report i.add)) : Keeps I (buildPostData p i) :=
  buildPostData_spec steady p device add fun _ held => held

/-- One tick, by what holds before the report is begun, while it is made and when it is done. -/
theorem mqttPostRun_spec {P R K : World → Prop} (p : Platform) {h : Heartbeat}
    (collected : Spec P (collect p h) (fun _ => I) E)
    (noted : ∀ w, I w → R { w with trace := w.trace ++ [.cjsonCreatPostData] })
    (built : Spec R (buildPostData p h.postData) (fun _ => K) E)
    (armed : ∀ w, K w → J { w with trace := w.trace ++ [.uloopTimeoutSet .mqttPostTimeout 1000] }) :
    Spec P (mqttPostRun p h) (fun _ => J) E := by
  have note : Spec I (act .cjsonCreatPostData) (fun _ => R) E := spec_modify noted
  rw [mqttPostRun_eq, cjsonCreatPostData_eq]
  apply spec_bind collected
  intro _
  rw [bind_assoc]
  apply spec_bind note
  intro _
  apply spec_bind built
  intro _
  exact spec_modify armed

theorem mqttPostRun_keeps (steady : Steady I) (armed : Armed I) (sampled : Sampled I)
    (started : Keeps I (act .cjsonCreatPostData)) (p : Platform) {h : Heartbeat}
    (device : ∀ r ∈ h.postData.reads, Keeps I (getDeviceId r))
    (add : ∀ data report, Keeps I (cjsonMsgAdd data report h.postData.add)) :
    Keeps I (mqttPostRun p h) :=
  mqttPostRun_spec p (collect_keeps sampled p h) (fun w held => started w held)
    (buildPostData_keeps steady p device add) fun w held => armed w _ _ held

theorem doTtyMsgPublish_keeps
    (errors : ∀ text args, text ≠ "Unsupport mqtt topic" → Keeps I (loge text args))
    (published : ∀ {w} topic data len qos retain ret, I w →
      I { w with trace := w.trace ++ [.mosquittoPublish topic data len qos retain ret] })
    (unsupported : ∀ {w}, I w → I { w with trace := w.trace ++ [.loge "Unsupport mqtt topic" []] })
    (data : CString) (len : Int) (topic : Option CString) (publish : Int) :
    Keeps I (doTtyMsgPublish data len topic publish) := by
  cases topic with
  | none => exact keeps_throw
  | some topic =>
    simp only [doTtyMsgPublish]
    split
    · apply keeps_get
      intro w _
      split
      · apply keeps_bind (keeps_act fun _ held => published _ _ _ _ _ _ held)
        intro _
        split
        · exact keeps_bind (errors _ _ (by decide)) fun _ => keeps_pure
        · exact keeps_pure
      · exact keeps_bind (errors _ _ (by decide)) fun _ => keeps_pure
    · exact keeps_bind (keeps_act fun _ held => unsupported held) fun _ => keeps_pure

theorem sendMsg_keeps (errors : ∀ text args, text ≠ "Unsupport mqtt topic" → Keeps I (loge text args))
    (drained : Drained I) (publish : Int) (m : MsgQueue) : Keeps I (sendMsg publish m) := by
  have unlink : Keeps I (listDel m) := keeps_modify fun _ held => drained.list _ held
  apply keeps_get
  intro w _
  apply keeps_bind (keeps_act fun _ held => drained.turn _ _ held)
  intro _
  have publishing (data : CString) :
      Keeps I (doTtyMsgPublish data (toInt32 data.length) m.sendTopic publish) :=
    doTtyMsgPublish_keeps errors drained.publish drained.unsupported _ _ _ _
  split
  · exact keeps_bind (publishing _) fun _ => unlink
  · exact unlink

theorem sendLoop_keeps (steady : Steady I) (drained : Drained I) {turns : Nat → Turn}
    (device : ∀ k, ∀ r ∈ (turns k).before.flatMap Callback.reads, Keeps I (getDeviceId r))
    (ms : List MsgQueue) (k : Nat) : Keeps I (sendLoop turns k ms) := by
  induction ms generalizing k with
  | nil => exact keeps_pure
  | cons m rest ih =>
    have errors (text : String) (args : List Int) (other : text ≠ "Unsupport mqtt topic") :
        Keeps I (loge text args) := loge_keeps steady.history other args
    have turn : Keeps I (sendTurn (turns k) m) :=
      keeps_bind (callbacks_keeps steady (device k)) fun _ => sendMsg_keeps errors drained _ m
    exact keeps_bind turn fun _ => ih (k + 1)

theorem mqttSendRun_keeps (steady : Steady I) (armed : Armed I) (drained : Drained I) {turns : Nat → Turn}
    (device : ∀ k, ∀ r ∈ (turns k).before.flatMap Callback.reads, Keeps I (getDeviceId r)) :
    Keeps I (mqttSendRun turns) := by
  apply keeps_get
  intro w _
  apply keeps_bind (sendLoop_keeps steady drained device _ 0)
  intro _
  exact keeps_act fun w held => armed w _ _ held

end Walks

section Start

variable {P I J E : World → Prop} {Q : Int → World → Prop}

theorem loge_spec (logged : Logged P) {text : String} (other : text ≠ "Unsupport mqtt topic")
    (args : List Int) :
    Spec P (loge text args) (fun _ => P) E :=
  spec_modify fun _ held => logged (decide_eq_false other) held

theorem mandatory_spec (logged : Logged P) {ctx : UciContext} {name : CString} {message : String}
    {rest : CString → Prog Int} (other : message ≠ "Unsupport mqtt topic")
    (early : mqttOption ctx name = none → ∀ w, P w → Q (-1) w)
    (next : ∀ value, mqttOption ctx name = some value → Spec P (rest value) Q E) :
    Spec P (mandatory ctx name message rest) Q E := by
  unfold mandatory
  cases option : mqttOption ctx name with
  | none => exact spec_bind (loge_spec logged other []) fun _ => spec_pure (early option)
  | some value => exact next value option

/-- What `readMqttConf` does once the options before `sub_qos` are read. -/
def readMqttConfRest (p : Platform) (b : Boot) (host port topic subTopic head : CString)
    (clientId : Option CString) (cleanSession qos keepalive retainMsg : CString) : Prog Int := do
  setSubQos p b.ctx
  mandatory b.ctx (CString.lit "uav_manufacture") "read uav_manufacture conf err!!!\n" fun manu => do
  setUavMsgCallback manu
  applyMqttConf p b host port topic subTopic head clientId cleanSession qos keepalive retainMsg

theorem readMqttConf_front (p : Platform) {b : Boot} (logged : Logged P)
    (early : (∃ name ∈ frontOptions, mqttOption b.ctx name = none) → ∀ w, P w → Q (-1) w)
    (rest : (∀ name ∈ frontOptions, ∃ value, mqttOption b.ctx name = some value) →
      ∀ host port topic subTopic head clientId cleanSession qos keepalive retainMsg,
        mqttOption b.ctx (CString.lit "topic") = some topic →
          Spec P (readMqttConfRest p b host port topic subTopic head clientId
            cleanSession qos keepalive retainMsg) Q E) :
    Spec P (readMqttConf p b) Q E := by
  have missing {name : CString} (option : name ∈ frontOptions) (none : mqttOption b.ctx name = none) :
      ∀ w, P w → Q (-1) w := early ⟨name, option, none⟩
  unfold readMqttConf
  apply mandatory_spec logged (by decide) (missing (by decide))
  intro host hostRead
  apply mandatory_spec logged (by decide) (missing (by decide))
  intro port portRead
  apply mandatory_spec logged (by decide) (missing (by decide))
  intro topic topicRead
  apply mandatory_spec logged (by decide) (missing (by decide))
  intro subTopic subTopicRead
  apply mandatory_spec logged (by decide) (missing (by decide))
  intro head headRead
  apply mandatory_spec logged (by decide) (missing (by decide))
  intro cleanSession cleanSessionRead
  apply mandatory_spec logged (by decide) (missing (by decide))
  intro qos qosRead
  apply mandatory_spec logged (by decide) (missing (by decide))
  intro keepalive keepaliveRead
  apply mandatory_spec logged (by decide) (missing (by decide))
  intro retainMsg retainMsgRead
  refine rest ?_ host port topic subTopic head _ cleanSession qos keepalive retainMsg topicRead
  intro name member
  simp only [frontOptions, mandatoryOptions, List.dropLast, List.mem_cons, List.not_mem_nil,
    or_false] at member
  rcases member with rfl | rfl | rfl | rfl | rfl | rfl | rfl | rfl | rfl
  · exact ⟨host, hostRead⟩
  · exact ⟨port, portRead⟩
  · exact ⟨topic, topicRead⟩
  · exact ⟨subTopic, subTopicRead⟩
  · exact ⟨head, headRead⟩
  · exact ⟨cleanSession, cleanSessionRead⟩
  · exact ⟨qos, qosRead⟩
  · exact ⟨keepalive, keepaliveRead⟩
  · exact ⟨retainMsg, retainMsgRead⟩

theorem complete_iff (ctx : UciContext) :
    Complete ctx ↔ (∀ name ∈ frontOptions, ∃ value, mqttOption ctx name = some value) ∧
      ∃ value, mqttOption ctx (CString.lit "uav_manufacture") = some value := by
  have split : mandatoryOptions = frontOptions ++ [CString.lit "uav_manufacture"] := rfl
  rw [Complete, split, List.forall_mem_append, List.forall_mem_singleton]

theorem readMqttConf_spec (p : Platform) {b : Boot} (logged : Logged P)
    (subQos : ∀ {w} q, P w → P { w with gMqttCtx := { w.gMqttCtx with subscribeTopicQos := q } })
    (callback : ∀ {w} c, P w → P { w with gMqttCtx := { w.gMqttCtx with uavMsgCallback := c } })
    (early : ¬ Complete b.ctx → ∀ w, P w → Q (-1) w)
    (applies : Complete b.ctx → ∀ host port topic subTopic head clientId cleanSession qos keepalive retainMsg,
      mqttOption b.ctx (CString.lit "topic") = some topic →
        Spec P (applyMqttConf p b host port topic subTopic head clientId
          cleanSession qos keepalive retainMsg) Q E) :
    Spec P (readMqttConf p b) Q E := by
  apply readMqttConf_front p logged
  · rintro ⟨name, option, none⟩
    apply early
    intro complete
    obtain ⟨value, some⟩ := ((complete_iff b.ctx).mp complete).1 name option
    rw [none] at some
    cases some
  intro front host port topic subTopic head clientId cleanSession qos keepalive retainMsg topicRead
  have setQos : Spec P (setSubQos p b.ctx) (fun _ => P) E := by
    unfold setSubQos
    split
    · exact spec_modify fun _ held => subQos _ held
    · exact spec_pure fun _ held => held
  apply spec_bind setQos
  intro _
  apply mandatory_spec logged (by decide)
  · intro none
    apply early
    intro complete
    obtain ⟨manu, some⟩ := ((complete_iff b.ctx).mp complete).2
    rw [none] at some
    cases some
  intro manu manuRead
  have setCallback : Spec P (setUavMsgCallback manu) (fun _ => P) E := by
    unfold setUavMsgCallback
    split
    · exact spec_modify fun _ held => callback _ held
    · exact spec_modify fun _ held => callback _ held
  apply spec_bind setCallback
  intro _
  have complete : Complete b.ctx := (complete_iff b.ctx).mpr ⟨front, manu, manuRead⟩
  exact applies complete host port topic subTopic head _ cleanSession qos keepalive retainMsg topicRead

def startMosquitto (b : Boot) : Prog Int := do
  setCtx fun c => { c with mosqUav := b.mosquittoNew }
  if b.mosquittoNew = none then
    loge "uav Out of memory." []
    return -1
  else
    usernamePwSet
    let w ← get
    act (.mosquittoConnectAsync w.gMqttCtx.mqttHost w.gMqttCtx.mqttPort w.gMqttCtx.mqttKeepalive)
    if b.mosquittoLoopStart ≠ 0 then
      loge "uav mosquitto loop err!!" []
      return -1
    else return 1

theorem mqttInit_eq (p : Platform) (b : Boot) :
    mqttInit p b = readMqttConf p b >>= fun ret => if ret < 0 then pure (-1) else startMosquitto b := rfl

theorem usernamePwSet_keeps
    (login : ∀ {w} user password, I w →
      I { w with trace := w.trace ++ [.mosquittoUsernamePwSet user password] }) :
    Keeps I usernamePwSet := by
  apply keeps_get
  intro w _
  split
  · apply keeps_bind deviceId_keeps
    intro user
    apply keeps_bind keeps_check
    intro password
    exact keeps_act fun _ held => login _ _ held
  · exact keeps_pure

/-- Before the credentials are handed over one condition is kept, after it another. -/
theorem startMosquitto_spec {b : Boot} (before : Logged I) (after : Logged J)
    (mosqUav : ∀ {w} m, I w → I { w with gMqttCtx := { w.gMqttCtx with mosqUav := m } })
    (failed : b.mosquittoNew = none → ∀ w, I w → J w)
    (login : b.mosquittoNew ≠ none → Spec I usernamePwSet (fun _ => J) E) :
    Spec I (startMosquitto b) (fun _ => J) E := by
  have made : Spec I (setCtx fun c => { c with mosqUav := b.mosquittoNew }) (fun _ => I) E :=
    spec_modify fun _ held => mosqUav _ held
  apply spec_bind made
  intro _
  split
  · rename_i none
    exact spec_bind (loge_spec before (by decide) _) fun _ => spec_pure (failed none)
  rename_i some
  apply spec_bind (login some)
  intro _
  apply spec_copy
  intro w _
  have connect : Spec J (act (.mosquittoConnectAsync w.gMqttCtx.mqttHost w.gMqttCtx.mqttPort
      w.gMqttCtx.mqttKeepalive)) (fun _ => J) E := spec_modify fun _ held => after rfl held
  apply spec_bind connect
  intro _
  split
  · exact spec_bind (loge_spec after (by decide) _) fun _ => spec_pure fun _ held => held
  · exact spec_pure fun _ held => held

theorem mqttInit_spec (p : Platform) {b : Boot}
    (read : Spec P (readMqttConf p b) (fun ret w => (ret < 0 → J w) ∧ (0 ≤ ret → I w)) E)
    (start : Spec I (startMosquitto b) (fun _ => J) E) : Spec P (mqttInit p b) (fun _ => J) E := by
  rw [mqttInit_eq]
  apply spec_bind read
  intro ret
  split
  · rename_i failed
    exact spec_pure fun _ held => held.1 failed
  · rename_i done
    exact spec_from start fun _ held => held.2 (by omega)

theorem mqttBeatInit_spec (armed : Armed I) (flyTime : ∀ {w} t, I w → I { w with gFlyTime := t })
    (uptime : BusAnswer) :
    Spec I (mqttBeatInit uptime) (fun ret w => ret = 0 ∧ I w) E := by
  have set (timer : Timer) : Spec I (act (.uloopTimeoutSet timer 1000)) (fun _ => I) E :=
    spec_modify fun w held => armed w _ _ held
  let uptimeRead : Prog Unit :=
    modify fun w => { w with gFlyTime := ubusGetInt uptime (CString.lit "uptime") 0 }
  have read : Spec I uptimeRead (fun _ => I) E := spec_modify fun _ held => flyTime _ held
  apply spec_bind read
  intro _
  apply spec_bind (set _)
  intro _
  apply spec_bind (set _)
  intro _
  exact spec_pure fun _ held => ⟨rfl, held⟩

def Boot.Loaded (b : Boot) : Prop := b.uciAllocContext = true ∧ b.uciLoad = 0

/-- Before `mqtt_init` one condition is kept, after it another. -/
theorem main_spec (p : Platform) {b : Boot} (before : Logged I) (after : Logged J) (armed : Armed J)
    (flyTime : ∀ {w} t, J w → J { w with gFlyTime := t })
    (exits : ¬ b.Loaded → ∀ w, I w → E w) (init : b.Loaded → Spec I (mqttInit p b) (fun _ => J) E) :
    Spec I (main p b) (fun _ => J) E := by
  have uci : Spec I (confUciInit b) (fun ret w => (0 ≤ ret ↔ b.Loaded) ∧ I w) E := by
    have fails (text : String) (other : text ≠ "Unsupport mqtt topic") (unloaded : ¬ b.Loaded) :
        Spec I (loge text [] >>= fun _ => pure (-1)) (fun ret w => (0 ≤ ret ↔ b.Loaded) ∧ I w) E := by
      have failed : (0 : Int) ≤ -1 ↔ b.Loaded := iff_of_false (by decide) unloaded
      exact spec_bind (loge_spec before other []) fun _ => spec_pure fun _ held => ⟨failed, held⟩
    unfold confUciInit
    split
    · rename_i alloc
      exact fails _ (by decide) fun loaded => by simp [Boot.Loaded, alloc] at loaded
    split
    · rename_i load
      exact fails _ (by decide) fun loaded => load loaded.2
    · rename_i alloc load
      have loaded : b.Loaded := ⟨by simpa using alloc, by simpa using load⟩
      exact spec_pure fun _ held => ⟨iff_of_true le_rfl loaded, held⟩
  apply spec_bind uci
  intro ret
  apply spec_fact
  intro loaded
  split
  · rename_i failed
    have unloaded : ¬ b.Loaded := fun fine => absurd (loaded.mpr fine) (by omega)
    exact spec_bind (loge_spec before (by decide) _) fun _ => spec_throw (exits unloaded)
  rename_i tested
  apply spec_bind (init (loaded.mp (by omega)))
  intro _
  apply spec_bind (mqttBeatInit_spec armed flyTime _)
  intro ret
  apply spec_fact
  rintro rfl
  exact spec_modify fun _ held => after rfl held

/-- What any configuration and any login keeps, the whole start keeps. -/
theorem main_keeps (p : Platform) {b : Boot} (logged : Logged I) (armed : Armed I)
    (ctx : ∀ {w} c, c.connectedUav = w.gMqttCtx.connectedUav → I w → I { w with gMqttCtx := c })
    (flyTime : ∀ {w} t, I w → I { w with gFlyTime := t }) (device : Keeps I (getDeviceId b.serial))
    (login : ∀ {w} user password, I w →
      I { w with trace := w.trace ++ [.mosquittoUsernamePwSet user password] }) :
    Keeps I (main p b) := by
  have set {f : MqttContext → MqttContext} (same : ∀ c, (f c).connectedUav = c.connectedUav) :
      Keeps I (setCtx f) := keeps_modify fun w held => ctx (f w.gMqttCtx) (same w.gMqttCtx) held
  have applied (host port topic subTopic head : CString) (clientId : Option CString)
      (cleanSession qos keepalive retainMsg : CString) :
      Keeps I (applyMqttConf p b host port topic subTopic head clientId
        cleanSession qos keepalive retainMsg) := by
    apply keeps_bind device
    intro _
    apply keeps_bind
    · exact set fun _ => rfl
    intro _
    apply keeps_get
    intro w _
    apply keeps_bind keeps_check
    intro len
    generalize aesEcbPkcs5Encrypt _ _ _ _ _ _ _ = sealing
    apply keeps_bind keeps_check
    intro sealed
    apply keeps_bind
    · exact set fun _ => rfl
    · exact fun _ => keeps_pure
  have read : Keeps I (readMqttConf p b) :=
    readMqttConf_spec p logged (fun _ held => ctx _ rfl held) (fun _ held => ctx _ rfl held)
      (fun _ _ held => held)
      fun _ _ _ _ _ _ _ _ _ _ _ _ => applied _ _ _ _ _ _ _ _ _ _
  apply main_spec p logged logged armed (fun _ held => flyTime _ held) fun _ _ held => held
  intro _
  apply mqttInit_spec p (spec_post read fun _ _ held => ⟨fun _ => held, fun _ => held⟩)
  exact startMosquitto_spec logged logged (fun _ held => ctx _ rfl held) (fun _ _ held => held)
    fun _ => usernamePwSet_keeps login

end Start

end Newplat
