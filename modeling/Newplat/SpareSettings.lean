import Newplat.Messages
import Newplat.Booting

/-! The settings without effect. Two configurations that differ in the texts the program has no
use for, or in two spellings of one value, give the same run. -/
namespace Newplat

open Base

/-- The same options are there, and those that are used have the same meaning. -/
structure SameUse (p : Platform) (ctx ctx' : UciContext) : Prop where
  missing : ∀ c ∈ complaints, missing ctx' c = missing ctx c
  host : mqttOption ctx' (CString.lit "host") = mqttOption ctx (CString.lit "host")
  topic : mqttOption ctx' (CString.lit "topic") = mqttOption ctx (CString.lit "topic")
  subTopic : mqttOption ctx' (CString.lit "sub_topic") = mqttOption ctx (CString.lit "sub_topic")
  port : (mqttOption ctx' (CString.lit "port")).map atoi = (mqttOption ctx (CString.lit "port")).map atoi
  keepalive : (mqttOption ctx' (CString.lit "keepalive")).map atoi = (mqttOption ctx (CString.lit "keepalive")).map atoi
  qos : (mqttOption ctx' (CString.lit "qos")).map (p.target.toChar ∘ atoi) =
    (mqttOption ctx (CString.lit "qos")).map (p.target.toChar ∘ atoi)
  subQos : (mqttOption ctx' (CString.lit "sub_qos")).map (p.target.toChar ∘ atoi) =
    (mqttOption ctx (CString.lit "sub_qos")).map (p.target.toChar ∘ atoi)
  retain : (mqttOption ctx' (CString.lit "retain_msg")).map (strncmpEq · (CString.lit "true") 4) =
    (mqttOption ctx (CString.lit "retain_msg")).map (strncmpEq · (CString.lit "true") 4)

/-- Without the spare settings. -/
def World.used (w : World) : World := w.mapSpare fun _ => MqttContext.zero.spare

def UsedAlike (w w' : World) : Prop := w.used = w'.used

theorem usedAlike_list {w w' : World} (alike : UsedAlike w w') : w.gMsgList = w'.gMsgList := by
  have same : w.used.gMsgList = w'.used.gMsgList := by rw [alike]
  exact same

theorem usedAlike_trace {w w' : World} (alike : UsedAlike w w') : w.trace = w'.trace := by
  have same : w.used.trace = w'.used.trace := by rw [alike]
  exact same

theorem usedAlike_parallel : Parallel UsedAlike where
  same {w w'} alike := by
    cases w
    cases w'
    simp_all [UsedAlike, World.used, World.mapSpare, World.beside, MqttContext.withSpare, MqttContext.spare]
  update {w w'} v alike := by
    simp [UsedAlike, World.used, World.mapSpare, World.beside, MqttContext.withSpare, usedAlike_list alike,
      usedAlike_trace alike]
  history {w w'} a _ alike := by
    cases w
    cases w'
    simp_all [UsedAlike, World.used, World.mapSpare]
  spare g alike := alike
  list alike := (usedAlike_list alike).symm
  queued alike := by rw [usedAlike_trace alike]
  acted {w w'} a alike := by
    cases w
    cases w'
    simp_all [UsedAlike, World.used, World.mapSpare]
  relist {w w'} l alike := by
    cases w
    cases w'
    simp_all [UsedAlike, World.used, World.mapSpare]

section Configurations

variable {p : Platform} {b : Boot} {ctx' : UciContext}

theorem sameUse_find (same : SameUse p b.ctx ctx') {cs : List (CString × String)} (inside : ∀ c ∈ cs, c ∈ complaints) :
    cs.find? (missing ctx') = cs.find? (missing b.ctx) := by
  induction cs with
  | nil => rfl
  | cons c cs ih =>
    have head := same.missing c (inside c List.mem_cons_self)
    have tail := ih fun c' member => inside c' (List.mem_cons_of_mem _ member)
    rw [List.find?_cons, List.find?_cons, head, tail]

theorem usedAlike_spare {w w' : World} (alike : UsedAlike w w') :
    ∃ s, w' = { w with gMqttCtx := w.gMqttCtx.withSpare s } := by
  refine ⟨w'.gMqttCtx.spare, ?_⟩
  cases w
  cases w'
  simp_all [UsedAlike, World.used, World.mapSpare, MqttContext.withSpare, MqttContext.spare]

/-- Two settings of the connection that agree in what is used. -/
theorem setCtx_used {f g : MqttContext → MqttContext}
    (same : ∀ c s, (f c).withSpare MqttContext.zero.spare = (g (c.withSpare s)).withSpare MqttContext.zero.spare) :
    Agree UsedAlike (setCtx f) (setCtx g) UsedAlike := by
  apply simulates_modify
  intro w w' alike
  obtain ⟨s, rfl⟩ := usedAlike_spare alike
  simp only [UsedAlike, World.used, World.mapSpare, same w.gMqttCtx s]
  exact ⟨trivial, trivial⟩

theorem setSubQos_used (same : SameUse p b.ctx ctx') :
    Agree UsedAlike (setSubQos p b.ctx) (setSubQos p ctx') UsedAlike := by
  have quality := same.subQos
  unfold setSubQos
  cases there : mqttOption b.ctx (CString.lit "sub_qos") with
  | none =>
    rw [there, Option.map_none, Option.map_eq_none_iff] at quality
    rw [quality]
    exact agree_pure ()
  | some q =>
    rw [there, Option.map_some, Option.map_eq_some_iff] at quality
    obtain ⟨q', found, value⟩ := quality
    rw [found]
    apply setCtx_used
    intro c s
    simp only [Function.comp_apply] at value
    rw [value]
    rfl

theorem setUavMsgCallback_used (manu manu' : CString) :
    Agree UsedAlike (setUavMsgCallback manu) (setUavMsgCallback manu') UsedAlike := by
  unfold setUavMsgCallback
  split
  · split
    · exact setCtx_used fun _ _ => rfl
    · exact setCtx_used fun _ _ => rfl
  · split
    · exact setCtx_used fun _ _ => rfl
    · exact setCtx_used fun _ _ => rfl

/-- What a setting is used for is all that matters of it. -/
theorem setting_used {α : Type} {ctx ctx' : UciContext} {name : CString} {use : CString → α}
    (same : (mqttOption ctx' name).map use = (mqttOption ctx name).map use) :
    use (setting ctx' name) = use (setting ctx name) := by
  unfold setting
  cases there : mqttOption ctx name with
  | none =>
    rw [there, Option.map_none, Option.map_eq_none_iff] at same
    rw [same]
  | some value =>
    rw [there, Option.map_some, Option.map_eq_some_iff] at same
    obtain ⟨value', found, equal⟩ := same
    rw [found]
    exact equal

theorem applyMqttConf_used (same : SameUse p b.ctx ctx') (head head' : CString) (clientId clientId' : Option CString)
    (cleanSession cleanSession' : CString) :
    Agree UsedAlike
      (applyMqttConf p b (setting b.ctx (CString.lit "host")) (setting b.ctx (CString.lit "port"))
        (setting b.ctx (CString.lit "topic")) (setting b.ctx (CString.lit "sub_topic")) head clientId cleanSession
        (setting b.ctx (CString.lit "qos")) (setting b.ctx (CString.lit "keepalive"))
        (setting b.ctx (CString.lit "retain_msg")))
      (applyMqttConf p { b with ctx := ctx' } (setting ctx' (CString.lit "host")) (setting ctx' (CString.lit "port"))
        (setting ctx' (CString.lit "topic")) (setting ctx' (CString.lit "sub_topic")) head' clientId' cleanSession'
        (setting ctx' (CString.lit "qos")) (setting ctx' (CString.lit "keepalive"))
        (setting ctx' (CString.lit "retain_msg"))) UsedAlike := by
  have aside : Aside UsedAlike := usedAlike_parallel.toAside
  apply agree_bind (getDeviceId_blind _ _ aside)
  intro _
  apply agree_bind (setCtx_blind (fun _ _ => rfl) _ aside)
  intro _
  apply simulates_copy
  intro w w' alike
  obtain ⟨s, rfl⟩ := usedAlike_spare alike
  apply agree_bind (blind_check _ _ aside)
  intro len
  generalize aesEcbPkcs5Encrypt _ _ _ _ _ _ _ = sealing
  apply agree_bind (blind_check sealing _ aside)
  intro sealed
  apply agree_bind _ fun _ => agree_pure 0
  have host : setting ctx' (CString.lit "host") = setting b.ctx (CString.lit "host") := by
    rw [setting, setting, same.host]
  have topic : setting ctx' (CString.lit "topic") = setting b.ctx (CString.lit "topic") := by
    rw [setting, setting, same.topic]
  have subTopic : setting ctx' (CString.lit "sub_topic") = setting b.ctx (CString.lit "sub_topic") := by
    rw [setting, setting, same.subTopic]
  have port := setting_used same.port
  have keepalive := setting_used same.keepalive
  have qos := setting_used same.qos
  have retain := setting_used same.retain
  simp only [Function.comp_apply] at qos
  apply setCtx_used
  intro c s
  rw [host, topic, subTopic, port, keepalive, qos, retain]
  rfl

theorem readMqttConf_used (same : SameUse p b.ctx ctx') :
    Agree UsedAlike (readMqttConf p b) (readMqttConf p { b with ctx := ctx' }) UsedAlike := by
  have aside : Aside UsedAlike := usedAlike_parallel.toAside
  rw [readMqttConf_mandatories, readMqttConf_mandatories, mandatories_find, mandatories_find,
    sameUse_find same fun c member => List.mem_of_mem_dropLast member]
  cases found : complaints.dropLast.find? (missing b.ctx) with
  | some c => exact agree_bind (blind_loge _ _ _ aside) fun _ => agree_pure (-1)
  | none =>
    have found' : complaints.dropLast.find? (missing ctx') = none := by
      rw [sameUse_find same fun c member => List.mem_of_mem_dropLast member, found]
    rw [values_found found, values_found found']
    simp only [complaints, List.dropLast, List.map_cons, List.map_nil]
    apply agree_bind (setSubQos_used same)
    intro _
    have manu : missing ctx' (CString.lit "uav_manufacture", "read uav_manufacture conf err!!!\n") =
        missing b.ctx (CString.lit "uav_manufacture", "read uav_manufacture conf err!!!\n") :=
      same.missing _ (by decide)
    unfold mandatory
    simp only [missing] at manu
    cases there : mqttOption b.ctx (CString.lit "uav_manufacture") with
    | none =>
      rw [there, Option.isNone_none, Option.isNone_iff_eq_none] at manu
      rw [manu]
      exact agree_bind (blind_loge _ _ _ aside) fun _ => agree_pure (-1)
    | some value =>
      rw [there, Option.isNone_some, Option.isNone_eq_false_iff, Option.isSome_iff_exists] at manu
      obtain ⟨value', there'⟩ := manu
      rw [there']
      apply agree_bind (setUavMsgCallback_used _ _)
      intro _
      exact applyMqttConf_used same _ _ _ _ _ _

theorem message_used (mosq : Nat) (message : MosquittoMessage) :
    Agree UsedAlike (mqttMessageCallback mosq message) (mqttMessageCallback mosq message) UsedAlike := by
  rw [mqttMessageCallback, mosquittoUavMessageProcess_idle]
  split
  · apply simulates_copy
    intro w w' _
    rw [ite_self, ite_self]
    exact agree_pure ()
  · exact blind_loge _ _ _ usedAlike_parallel.toAside

theorem incoming_used (p : Platform) (steps : List Incoming) :
    Agree UsedAlike (runAll (handleIncoming p) steps) (runAll (handleIncoming p) steps) UsedAlike := by
  apply agree_runAll
  intro step _
  cases step with
  | event e => exact handle_parallel usedAlike_parallel p e
  | message mosq message => exact message_used mosq message

end Configurations

/-- Both return or both halt for the same reason, with one history, and with one state but for
the spare settings. -/
inductive EndAlike : EStateM.Result Halt World Unit → EStateM.Result Halt World Unit → Prop
  | returns {w w' : World} (same : w.used = w'.used) : EndAlike (.ok () w) (.ok () w')
  | halts {e : Halt} {w w' : World} (same : w.used = w'.used) : EndAlike (.error e w) (.error e w')

/-- Two configurations in which the same mandatory options are there, and the used ones mean the
same, give the same run. -/
theorem spare_settings (p : Platform) (b : Boot) (ctx' : UciContext) (same : SameUse p b.ctx ctx')
    (steps : List Incoming) :
    EndAlike ((do main p b; runAll (handleIncoming p) steps) (.start p.target))
      ((do main p { b with ctx := ctx' }; runAll (handleIncoming p) steps) (.start p.target)) := by
  have both : Agree UsedAlike (do main p b; runAll (handleIncoming p) steps)
      (do main p { b with ctx := ctx' }; runAll (handleIncoming p) steps) UsedAlike :=
    agree_bind (main_agree usedAlike_parallel.toAside (readMqttConf_used same)) fun _ => incoming_used p steps
  cases left : (do main p b; runAll (handleIncoming p) steps : Prog Unit) (.start p.target) with
  | ok a w =>
    obtain ⟨_, w', right, -, alike⟩ := simulates_ok both rfl left
    rw [right]
    exact .returns alike
  | error e w =>
    obtain ⟨w', right, alike⟩ := simulates_error both rfl left
    rw [right]
    exact .halts alike

/-- The installed options with other texts where none is used, and other spellings where one is. -/
def respelledOptions : List (CString × CString) :=
  [(CString.lit "host", CString.lit "183.220.194.233"),
    (CString.lit "port", CString.lit "031883"),
    (CString.lit "topic", CString.lit "property/post"),
    (CString.lit "sub_topic", CString.lit "property/post_reply"),
    (CString.lit "header", CString.empty),
    (CString.lit "client_id", CString.lit "ubox-7"),
    (CString.lit "clean_session", CString.lit "false"),
    (CString.lit "qos", CString.lit "none"),
    (CString.lit "sub_qos", CString.lit "256"),
    (CString.lit "keepalive", CString.lit "60 s"),
    (CString.lit "retain_msg", CString.lit "True"),
    (CString.lit "uav_manufacture", CString.lit "dji")]

theorem respelled_sameUse : SameUse devicePlatform sealedBoot.ctx (configOf respelledOptions) := by
  constructor <;> decide

/-- A connection, a heartbeat, a message from the broker and a drain. -/
def connectedSteps : List Incoming :=
  [.event (.callback (.connect 1 0 serialPrinted serialPrinted 0)), .event (.post deviceHeartbeat),
    .message 1 ⟨CString.lit "property/post_reply", [1, 2, 3], 3⟩, .event (.send fun _ => ⟨[], 0⟩)]

theorem respelled_spare :
    EndAlike
      ((do main devicePlatform sealedBoot; runAll (handleIncoming devicePlatform) connectedSteps)
        (.start devicePlatform.target))
      ((do
        main devicePlatform { sealedBoot with ctx := configOf respelledOptions }
        runAll (handleIncoming devicePlatform) connectedSteps) (.start devicePlatform.target)) :=
  spare_settings devicePlatform sealedBoot (configOf respelledOptions) respelled_sameUse connectedSteps

end Newplat
