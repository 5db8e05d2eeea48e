import Newplat.Booting

/-! The configuration over whole runs: the login, the connection, the subscriptions and the publishes
are made with the configured values, and with an incomplete configuration none of them is made. -/
namespace Newplat

open Base

/-- The quality of service subscriptions are made with. -/
def subscribeQos (p : Platform) (ctx : UciContext) : Int :=
  match mqttOption ctx (CString.lit "sub_qos") with
  | some subQos => p.target.toChar (atoi subQos)
  | none => 0

structure Settings (p : Platform) (ctx : UciContext) (c : MqttContext) : Prop where
  complete : Complete ctx
  host : c.mqttHost = some (setting ctx (CString.lit "host"))
  port : c.mqttPort = atoi (setting ctx (CString.lit "port"))
  keepalive : c.mqttKeepalive = atoi (setting ctx (CString.lit "keepalive"))
  qos : c.publishTopicUploadQos = p.target.toChar (atoi (setting ctx (CString.lit "qos")))
  retain : c.publishTopicUploadRetain = strncmpEq (setting ctx (CString.lit "retain_msg")) (CString.lit "true") 4
  subQos : c.subscribeTopicQos = subscribeQos p ctx

/-- A call of mosquitto is made with the configured values, and only where there is a whole configuration. -/
def AsConfigured (p : Platform) (ctx : UciContext) : Action → Prop
  | .mosquittoPublish _ _ _ qos retain _ => Complete ctx ∧
    qos = p.target.toChar (atoi (setting ctx (CString.lit "qos"))) ∧
    retain = strncmpEq (setting ctx (CString.lit "retain_msg")) (CString.lit "true") 4
  | .mosquittoSubscribe _ qos _ => Complete ctx ∧ qos = subscribeQos p ctx
  | .mosquittoConnectAsync host port keepalive => Complete ctx ∧
    host = some (setting ctx (CString.lit "host")) ∧
    port = atoi (setting ctx (CString.lit "port")) ∧ keepalive = atoi (setting ctx (CString.lit "keepalive"))
  | .mosquittoUsernamePwSet _ _ => Complete ctx
  | _ => True

/-- Without a client there is no connection, and a client is there only for a whole configuration. -/
structure InForce (p : Platform) (ctx : UciContext) (w : World) : Prop where
  down : w.gMqttCtx.mosqUav = none → w.gMqttCtx.connectedUav = false
  settings : w.gMqttCtx.mosqUav ≠ none → Settings p ctx w.gMqttCtx
  record : Recorded (AsConfigured p ctx) w

/-- The client is there, whether it is connected or not. -/
structure HasClient (p : Platform) (ctx : UciContext) (w : World) : Prop where
  client : w.gMqttCtx.mosqUav ≠ none
  settings : Settings p ctx w.gMqttCtx
  record : Recorded (AsConfigured p ctx) w

section Steps

variable {p : Platform} {ctx : UciContext}

theorem inForce_client {w : World} (held : HasClient p ctx w) : InForce p ctx w :=
  ⟨fun none => absurd none held.client, fun _ => held.settings, held.record⟩

theorem settings_flag {c : MqttContext} (settings : Settings p ctx c) (up : Bool) :
    Settings p ctx { c with connectedUav := up } :=
  ⟨settings.complete, settings.host, settings.port, settings.keepalive, settings.qos, settings.retain,
    settings.subQos⟩

theorem inForce_record {w : World} {a : Action} (list : List MsgQueue) (held : InForce p ctx w)
    (meets : AsConfigured p ctx a) : InForce p ctx { w with gMsgList := list, trace := w.trace ++ [a] } :=
  ⟨held.down, held.settings, recorded_snoc held.record list meets⟩

theorem hasClient_record {w : World} {a : Action} (held : HasClient p ctx w) (meets : AsConfigured p ctx a) :
    HasClient p ctx { w with trace := w.trace ++ [a] } :=
  ⟨held.client, held.settings, recorded_snoc held.record w.gMsgList meets⟩

theorem inForce_loge (text : String) (args : List Int) : Keeps (InForce p ctx) (loge text args) :=
  keeps_act fun w held => inForce_record w.gMsgList held trivial

theorem inForce_device (r : Popen) : Keeps (InForce p ctx) (getDeviceId r) :=
  getDeviceId_keeps (fun _ held => ⟨held.down, held.settings, held.record⟩) r

theorem hasClient_device (r : Popen) : Keeps (HasClient p ctx) (getDeviceId r) :=
  getDeviceId_keeps (fun _ held => ⟨held.client, held.settings, held.record⟩) r

theorem inForce_sampled : Sampled (InForce p ctx) := by
  constructor <;> exact fun _ held => ⟨held.down, held.settings, held.record⟩

theorem subMqttTopic_client (topic : CString) (ret : Int) : Keeps (HasClient p ctx) (subMqttTopic topic ret) := by
  apply keeps_get
  intro w held
  have called : Keeps (HasClient p ctx) (act (.mosquittoSubscribe topic w.gMqttCtx.subscribeTopicQos ret)) :=
    keeps_act fun _ held' => hasClient_record held' ⟨held.settings.complete, held.settings.subQos⟩
  apply keeps_bind called
  intro _
  split
  · exact keeps_act fun _ held => hasClient_record held trivial
  · exact keeps_pure

theorem inForce_own {w : World} {mosq : Nat} (held : InForce p ctx w) (own : some mosq = w.gMqttCtx.mosqUav) :
    HasClient p ctx w := by
  have there : w.gMqttCtx.mosqUav ≠ none := by simp [← own]
  exact ⟨there, held.settings there, held.record⟩

theorem mqttCallback_inForce (c : Callback) : Keeps (InForce p ctx) (mqttCallback c) := by
  have after {α : Type} {m : Prog α} {P : World → Prop} {Q : α → World → Prop}
      (client : Spec P m Q (HasClient p ctx)) : Spec P m Q (InForce p ctx) :=
    spec_halting client fun _ => inForce_client
  cases c with
  | connect mosq rc first second subscribe =>
    apply mqttConnectCallback_walk (InForce p ctx) (HasClient p ctx) (HasClient p ctx) (fun _ => HasClient p ctx)
      (fun _ => HasClient p ctx)
    · exact fun _ _ held => held
    · exact fun _ => inForce_device first
    · exact fun _ held _ => held
    · intro w held own
      have client := inForce_own held own
      exact ⟨client.client, settings_flag client.settings true, recorded_snoc held.record w.gMsgList trivial⟩
    · exact after deviceId_keeps
    · exact fun _ _ _ => inForce_client
    · exact fun _ _ => after (hasClient_device second)
    · exact after deviceId_keeps
    · exact fun _ _ _ _ => after (spec_post (subMqttTopic_client _ _) fun _ _ => inForce_client)
  | disconnect mosq rc =>
    apply spec_get
    intro w held
    split
    · rename_i own
      have client := inForce_own held own
      apply spec_modify
      rintro _ rfl
      exact inForce_client ⟨client.client, settings_flag client.settings false, held.record⟩
    · apply spec_pure
      rintro _ rfl
      exact held

theorem inForce_followed : Followed (fun _ : Unit => InForce p ctx) (fun _ _ => True) (fun _ _ => ())
    (fun _ _ => True) (InForce p ctx) where
  step _ m _ := by
    cases m with
    | callback c => exact mqttCallback_inForce c
    | read r => exact inForce_device r
  look _ := spec_post deviceId_keeps fun _ _ held => ⟨trivial, held⟩
  halts _ _ held := held

theorem cjsonMsgAdd_inForce (data : Option Bytes) (report : Option CJson) (i : MsgAdd) :
    Keeps (InForce p ctx) (cjsonMsgAdd data report i) := by
  apply cjsonMsgAdd_spec (inForce_loge _ _) data report (inForce_device _)
  · exact fun {_ w'} _ held => inForce_record w'.gMsgList held trivial
  · exact fun m held => inForce_record _ held trivial
  · exact fun _ held => held
  · exact fun _ held => held

theorem mqttPostRun_inForce (h : Heartbeat) : Keeps (InForce p ctx) (mqttPostRun p h) := by
  have built : Keeps (InForce p ctx) (buildPostData p h.postData) := by
    apply buildPostData_follows inForce_followed p (passes_always () fun _ _ _ => trivial)
    intros
    exact cjsonMsgAdd_inForce _ _ _
  apply mqttPostRun_spec p (collect_keeps inForce_sampled p h) _ built
  · exact fun w held => inForce_record w.gMsgList held trivial
  · exact fun w held => inForce_record w.gMsgList held trivial

theorem doTtyMsgPublish_inForce (data : CString) (len : Int) (topic : Option CString) (publish : Int) :
    Keeps (InForce p ctx) (doTtyMsgPublish data len topic publish) := by
  cases topic with
  | none => exact keeps_throw
  | some topic =>
    simp only [doTtyMsgPublish]
    split
    · apply keeps_get
      intro w held
      cases up : w.gMqttCtx.connectedUav with
      | true =>
        have client : w.gMqttCtx.mosqUav ≠ none := by
          intro none
          cases up.symm.trans (held.down none)
        have settings := held.settings client
        have called : AsConfigured p ctx (.mosquittoPublish topic data len w.gMqttCtx.publishTopicUploadQos
            w.gMqttCtx.publishTopicUploadRetain publish) := ⟨settings.complete, settings.qos, settings.retain⟩
        apply keeps_bind (keeps_act fun w' held' => inForce_record w'.gMsgList held' called)
        intro _
        split
        · exact keeps_bind (inForce_loge _ _) fun _ => keeps_pure
        · exact keeps_pure
      | false => exact keeps_bind (inForce_loge _ _) fun _ => keeps_pure
    · exact keeps_bind (inForce_loge _ _) fun _ => keeps_pure

theorem sendLoop_inForce (turns : Nat → Turn) (k : Nat) (ms : List MsgQueue) :
    Keeps (InForce p ctx) (sendLoop turns k ms) := by
  induction ms generalizing k with
  | nil => exact keeps_pure
  | cons m rest ih =>
    have unlink : Keeps (InForce p ctx) (listDel m) :=
      keeps_modify fun _ held => ⟨held.down, held.settings, held.record⟩
    have turn : Keeps (InForce p ctx) (sendTurn (turns k) m) := by
      apply keeps_bind (keeps_runAll fun c _ => mqttCallback_inForce c)
      intro _
      apply keeps_get
      intro w _
      apply keeps_bind
      · exact keeps_act fun w' held => inForce_record w'.gMsgList held trivial
      intro _
      split
      · exact keeps_bind (doTtyMsgPublish_inForce _ _ _ _) fun _ => unlink
      · exact unlink
    exact keeps_bind turn fun _ => ih (k + 1)

theorem handle_inForce (e : Event) : Keeps (InForce p ctx) (handle p e) := by
  cases e with
  | msgAdd data i => exact cjsonMsgAdd_inForce data none i
  | post h => exact mqttPostRun_inForce h
  | callback c => exact mqttCallback_inForce c
  | send turns =>
    apply keeps_get
    intro w _
    apply keeps_bind (sendLoop_inForce turns 0 _)
    intro _
    exact keeps_act fun w' held => inForce_record w'.gMsgList held trivial

/-- What is started from: nothing has been called yet, and there is no client. -/
structure Unconfigured (p : Platform) (ctx : UciContext) (w : World) : Prop where
  client : w.gMqttCtx.mosqUav = none
  down : w.gMqttCtx.connectedUav = false
  subQos : w.gMqttCtx.subscribeTopicQos = 0
  record : Recorded (AsConfigured p ctx) w

/-- The whole configuration has been read, and there is no client yet. -/
structure ReadIn (p : Platform) (ctx : UciContext) (w : World) : Prop where
  client : w.gMqttCtx.mosqUav = none
  down : w.gMqttCtx.connectedUav = false
  settings : Settings p ctx w.gMqttCtx
  record : Recorded (AsConfigured p ctx) w

theorem unconfigured_inForce {w : World} (held : Unconfigured p ctx w) : InForce p ctx w :=
  ⟨fun _ => held.down, fun client => absurd held.client client, held.record⟩

theorem unconfigured_loge (text : String) (args : List Int) : Keeps (Unconfigured p ctx) (loge text args) :=
  keeps_act fun w held => ⟨held.client, held.down, held.subQos, recorded_snoc held.record w.gMsgList trivial⟩

variable {b : Boot}

/-- The subscriptions' quality of service is set, and nothing else yet. -/
structure HalfRead (p : Platform) (ctx : UciContext) (w : World) : Prop where
  client : w.gMqttCtx.mosqUav = none
  down : w.gMqttCtx.connectedUav = false
  subQos : w.gMqttCtx.subscribeTopicQos = subscribeQos p ctx
  record : Recorded (AsConfigured p ctx) w

theorem halfRead_inForce {w : World} (held : HalfRead p ctx w) : InForce p ctx w :=
  ⟨fun _ => held.down, fun client => absurd held.client client, held.record⟩

theorem setSubQos_halfRead {E : World → Prop} :
    Spec (Unconfigured p b.ctx) (setSubQos p b.ctx) (fun _ => HalfRead p b.ctx) E := by
  unfold setSubQos
  cases subQos : mqttOption b.ctx (CString.lit "sub_qos") with
  | none =>
    exact spec_pure fun _ held => ⟨held.client, held.down, by rw [held.subQos, subscribeQos, subQos], held.record⟩
  | some q => exact spec_modify fun _ held => ⟨held.client, held.down, by rw [subscribeQos, subQos], held.record⟩

theorem setUavMsgCallback_halfRead (manu : CString) : Keeps (HalfRead p ctx) (setUavMsgCallback manu) := by
  unfold setUavMsgCallback
  split
  · exact keeps_modify fun _ held => ⟨held.client, held.down, held.subQos, held.record⟩
  · exact keeps_modify fun _ held => ⟨held.client, held.down, held.subQos, held.record⟩

theorem applyMqttConf_readIn (complete : Complete b.ctx) (topic subTopic head cleanSession : CString)
    (clientId : Option CString) : Spec (HalfRead p b.ctx)
      (applyMqttConf p b (setting b.ctx (CString.lit "host")) (setting b.ctx (CString.lit "port")) topic subTopic head
        clientId cleanSession (setting b.ctx (CString.lit "qos")) (setting b.ctx (CString.lit "keepalive"))
        (setting b.ctx (CString.lit "retain_msg")))
      (fun ret w => ret = 0 ∧ ReadIn p b.ctx w) (HalfRead p b.ctx) := by
  apply spec_bind (getDeviceId_keeps (fun _ held => ⟨held.client, held.down, held.subQos, held.record⟩) b.serial)
  intro _
  have named : Keeps (HalfRead p b.ctx) (setCtx fun c => { c with mqttName := some .gDeviceId }) :=
    keeps_modify fun _ held => ⟨held.client, held.down, held.subQos, held.record⟩
  apply spec_bind named
  intro _
  apply spec_copy
  intro w _
  apply spec_bind keeps_check
  intro len
  generalize aesEcbPkcs5Encrypt _ _ _ _ _ _ _ = sealing
  apply spec_bind keeps_check
  rintro ⟨password, size⟩
  have applied {f : MqttContext → MqttContext} (client : ∀ c, (f c).mosqUav = c.mosqUav)
      (down : ∀ c, (f c).connectedUav = c.connectedUav)
      (settings : ∀ c, c.subscribeTopicQos = subscribeQos p b.ctx → Settings p b.ctx (f c)) :
      Spec (HalfRead p b.ctx) (setCtx f) (fun _ => ReadIn p b.ctx) (HalfRead p b.ctx) :=
    spec_modify fun _ held =>
      ⟨(client _).trans held.client, (down _).trans held.down, settings _ held.subQos, held.record⟩
  refine spec_bind (applied ?_ ?_ ?_) fun _ => spec_pure fun _ held => ⟨rfl, held⟩
  · exact fun _ => rfl
  · exact fun _ => rfl
  · exact fun _ subQos => ⟨complete, rfl, rfl, rfl, rfl, rfl, subQos⟩

theorem readMqttConf_inForce : Spec (Unconfigured p b.ctx) (readMqttConf p b)
    (fun ret w => (ret < 0 → InForce p b.ctx w) ∧ (0 ≤ ret → ReadIn p b.ctx w)) (InForce p b.ctx) := by
  cases first : complaint b.ctx with
  | some c =>
    intro w held
    obtain ⟨q, complains⟩ := readMqttConf_complains (p := p) first w
    rw [complains]
    refine ⟨fun _ => ⟨fun _ => held.down, fun client => absurd held.client client, ?_⟩,
      fun never => absurd never (by decide)⟩
    exact recorded_snoc held.record w.gMsgList trivial
  | none =>
    have complete := complaint_none.mp first
    rw [readMqttConf_complete complete]
    apply spec_bind setSubQos_halfRead
    intro _
    apply spec_bind (spec_halting (setUavMsgCallback_halfRead _) fun _ => halfRead_inForce)
    intro _
    apply spec_weaken (applyMqttConf_readIn complete _ _ _ _ _)
    · exact fun _ held => held
    · rintro ret w ⟨rfl, held⟩
      exact ⟨fun never => absurd never (by decide), fun _ => held⟩
    · exact fun _ => halfRead_inForce

theorem startMosquitto_inForce :
    Spec (ReadIn p ctx) (startMosquitto b) (fun _ => InForce p ctx) (InForce p ctx) := by
  unfold startMosquitto
  cases made : b.mosquittoNew with
  | none =>
    have nothing : Spec (ReadIn p ctx) (setCtx fun c => { c with mosqUav := none }) (fun _ => InForce p ctx)
        (InForce p ctx) :=
      spec_modify fun _ held => ⟨fun _ => held.down, fun client => absurd rfl client, held.record⟩
    apply spec_bind nothing
    intro _
    exact keeps_bind (inForce_loge _ _) fun _ => keeps_pure
  | some mosq =>
    have client : Spec (ReadIn p ctx) (setCtx fun c => { c with mosqUav := some mosq }) (fun _ => HasClient p ctx)
        (HasClient p ctx) := by
      apply spec_modify
      intro w held
      have settings := held.settings
      exact ⟨Option.some_ne_none mosq, ⟨settings.complete, settings.host, settings.port, settings.keepalive,
        settings.qos, settings.retain, settings.subQos⟩, held.record⟩
    have login : Keeps (HasClient p ctx) usernamePwSet := by
      apply keeps_get
      intro w held
      split
      · apply keeps_bind deviceId_keeps
        intro user
        apply keeps_bind keeps_check
        intro password
        exact keeps_act fun _ held' => hasClient_record held' held.settings.complete
      · exact keeps_pure
    have starts : Spec (ReadIn p ctx) (do
        setCtx fun c => { c with mosqUav := some mosq }
        usernamePwSet
        let w ← get
        act (.mosquittoConnectAsync w.gMqttCtx.mqttHost w.gMqttCtx.mqttPort w.gMqttCtx.mqttKeepalive)
        if b.mosquittoLoopStart ≠ 0 then
          loge "uav mosquitto loop err!!" []
          return (-1)
        else return 1) (fun _ => HasClient p ctx) (HasClient p ctx) := by
      apply spec_bind client
      intro _
      apply spec_bind login
      intro _
      apply keeps_get
      intro w held
      have settings := held.settings
      apply keeps_bind
      · exact keeps_act fun _ held' =>
          hasClient_record held' ⟨settings.complete, settings.host, settings.port, settings.keepalive⟩
      intro _
      split
      · apply keeps_bind
        · exact keeps_act fun _ held => hasClient_record held trivial
        · exact fun _ => keeps_pure
      · exact keeps_pure
    exact spec_weaken starts (fun _ held => held) (fun _ _ held => inForce_client held)
      fun _ held => inForce_client held

theorem main_inForce (p : Platform) (b : Boot) :
    Spec (Unconfigured p b.ctx) (main p b) (fun _ => InForce p b.ctx) (InForce p b.ctx) := by
  have uci : Keeps (Unconfigured p b.ctx) (confUciInit b) := by
    unfold confUciInit
    split
    · exact keeps_bind (unconfigured_loge _ _) fun _ => keeps_pure
    split
    · exact keeps_bind (unconfigured_loge _ _) fun _ => keeps_pure
    · exact keeps_pure
  apply spec_bind (spec_halting uci fun _ => unconfigured_inForce)
  intro ret
  split
  · apply spec_bind (spec_halting (unconfigured_loge _ _) fun _ => unconfigured_inForce)
    intro _
    exact spec_throw fun _ => unconfigured_inForce
  apply spec_bind (mqttInit_spec p readMqttConf_inForce startMosquitto_inForce)
  intro _
  have armed : Armed (InForce p b.ctx) := fun w _ _ held => inForce_record w.gMsgList held trivial
  apply spec_bind (mqttBeatInit_spec armed (fun _ held => ⟨held.down, held.settings, held.record⟩) _)
  intro ret
  apply spec_fact
  rintro rfl
  exact spec_modify fun w held => inForce_record w.gMsgList held trivial

end Steps

/-- Over every run from `main` on, whatever the configuration: credentials are set, a connection is begun, a
topic subscribed and a message published only with a complete configuration, and with its values. Where an
option is missing, the start tells of it and the program goes on to its loop. -/
theorem run_as_configured (p : Platform) (b : Boot) (events : List Event) :
    (∀ a ∈ (leaves (newplat p b events (.start p.target))).trace, AsConfigured p b.ctx a) ∧
      (b.Loaded → ¬ Complete b.ctx →
        ∃ c w, complaint b.ctx = some c ∧ main p b (.start p.target) = .ok () w ∧ w.trace = [.loge c.2 [],
          .uloopTimeoutSet .mqttPostTimeout 1000, .uloopTimeoutSet .mqttRunTimeout 1000, .uloopRun]) := by
  have start : Unconfigured p b.ctx (.start p.target) := ⟨rfl, rfl, rfl, by simp [Recorded, World.start]⟩
  have all : Spec (Unconfigured p b.ctx) (newplat p b events) (fun _ => InForce p b.ctx) (InForce p b.ctx) :=
    spec_bind (main_inForce p b) fun _ => keeps_runAll fun e _ => handle_inForce e
  exact ⟨((spec_leaves all start).elim id id).record, main_incomplete p⟩

/-- The broker of the installed device is the one it connects to. -/
def connectsToBroker : Action → Bool
  | .mosquittoConnectAsync host port keepalive =>
    host = some (CString.lit "183.220.194.233") ∧ port = 31883 ∧ keepalive = 60
  | _ => false

/-- The installed device connects to the configured broker; with an empty file it misses the host first. -/
theorem devices_as_configured :
    Action.mosquittoConnectAsync (some (CString.lit "183.220.194.233")) 31883 60 ∈
        (leaves (newplat devicePlatform sealedBoot [] (.start devicePlatform.target))).trace ∧
      setting sealedBoot.ctx (CString.lit "host") = CString.lit "183.220.194.233" ∧
      atoi (setting sealedBoot.ctx (CString.lit "port")) = 31883 ∧
      ∃ w, main devicePlatform unconfiguredBoot (.start devicePlatform.target) = .ok () w ∧
        w.trace = [.loge "read mqtt host conf err!!!" [], .uloopTimeoutSet .mqttPostTimeout 1000,
          .uloopTimeoutSet .mqttRunTimeout 1000, .uloopRun] := by
  have connects : (leaves (newplat devicePlatform sealedBoot [] (.start devicePlatform.target))).trace.any
      connectsToBroker = true := by decide +kernel
  have broker : Action.mosquittoConnectAsync (some (CString.lit "183.220.194.233")) 31883 60 ∈
      (leaves (newplat devicePlatform sealedBoot [] (.start devicePlatform.target))).trace := by
    obtain ⟨a, member, connecting⟩ := List.any_eq_true.mp connects
    cases a with
    | mosquittoConnectAsync host port keepalive =>
      obtain ⟨rfl, rfl, rfl⟩ := of_decide_eq_true connecting
      exact member
    | _ => cases connecting
  obtain ⟨-, host, port, -⟩ := (run_as_configured devicePlatform sealedBoot []).1 _ broker
  have found : complaint unconfiguredBoot.ctx = some (CString.lit "host", "read mqtt host conf err!!!") := by decide
  have incomplete : ¬ Complete unconfiguredBoot.ctx := by
    intro complete
    rw [complaint_none.mpr complete] at found
    cases found
  obtain ⟨c, w, first, run, trace⟩ := (run_as_configured devicePlatform unconfiguredBoot []).2 ⟨rfl, rfl⟩ incomplete
  cases first.symm.trans found
  exact ⟨broker, (Option.some.inj host).symm, port.symm, w, run, trace⟩

end Newplat
