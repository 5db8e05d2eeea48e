import Newplat.Identity

/-! Which topic a message gets. A configuration that `read_mqtt_conf` gives up on leaves
`publish_topic_upload` at NULL, and `main` starts the timers all the same. -/
namespace Newplat

open Base

/-- A topic is formatted from the configured one, and so is the one a message is queued under. -/
def Action.OnTopic (ctx : UciContext) : Action → Prop
  | .topicFormatted topic => ∃ t, mqttOption ctx (CString.lit "topic") = some t ∧ topic = some t
  | .queued m _ => ∀ sendTopic, m.sendTopic = some sendTopic →
    ∃ t id, mqttOption ctx (CString.lit "topic") = some t ∧ sendTopic = paasTopic id (some t)
  | _ => True

def TopicsConfigured (ctx : UciContext) : World → Prop := Recorded (Action.OnTopic ctx)

section Complete

variable {p : Platform} {b : Boot} {ctx : UciContext} {t : CString}

theorem topics_steady : Steady (TopicsConfigured ctx) := by
  apply recorded_steady
  intro a quiet
  cases a with
  | topicFormatted topic => cases quiet
  | queued m report => cases quiet
  | _ => trivial

theorem topics_drained : Drained (TopicsConfigured ctx) :=
  recorded_drained (fun _ _ => trivial) (fun _ _ _ _ _ _ => trivial) trivial

structure Uploads (ctx : UciContext) (t : CString) (w : World) : Prop where
  upload : w.gMqttCtx.publishTopicUpload = some t
  topics : TopicsConfigured ctx w

theorem uploads_steady : Steady (Uploads ctx t) where
  connection up held := ⟨held.upload, topics_steady.connection up held.topics⟩
  history quiet held := ⟨held.upload, topics_steady.history quiet held.topics⟩

theorem uploads_armed : Armed (Uploads ctx t) := fun w _ _ held =>
  ⟨held.upload, recorded_snoc held.topics w.gMsgList trivial⟩

theorem uploads_sampled : Sampled (Uploads ctx t) where
  flyTime _ held := ⟨held.upload, held.topics⟩
  netInfo _ held := ⟨held.upload, held.topics⟩
  uavData _ held := ⟨held.upload, held.topics⟩
  strings _ held := ⟨held.upload, held.topics⟩

theorem uploads_drained : Drained (Uploads ctx t) where
  turn m up held := ⟨held.upload, topics_drained.turn m up held.topics⟩
  publish topic data len qos retain ret held :=
    ⟨held.upload, topics_drained.publish topic data len qos retain ret held.topics⟩
  unsupported held := ⟨held.upload, topics_drained.unsupported held.topics⟩
  list list held := ⟨held.upload, topics_drained.list list held.topics⟩

theorem getDeviceId_uploads (r : Popen) : Keeps (Uploads ctx t) (getDeviceId r) :=
  getDeviceId_keeps (fun _ held => ⟨held.upload, held.topics⟩) r

theorem cjsonMsgAdd_uploads (configured : mqttOption ctx (CString.lit "topic") = some t)
    (data : Option Bytes)
    (report : Option CJson) (i : MsgAdd) : Keeps (Uploads ctx t) (cjsonMsgAdd data report i) := by
  apply cjsonMsgAdd_walk (fun _ => Uploads ctx t) (fun _ up w => up = some t ∧ Uploads ctx t w)
    (getDeviceId_uploads i.serial) deviceId_keeps
  · intro id w held
    rw [held.upload]
    apply spec_modify
    intro w' held'
    exact ⟨rfl, held'.upload, recorded_snoc held'.topics w'.gMsgList ⟨t, configured, rfl⟩⟩
  · intro _ up
    exact spec_from (loge_keeps uploads_steady.history (by decide) _) fun _ held => held.2
  · intro id up msg _
    apply spec_fact
    rintro rfl
    apply keeps_modify
    intro w' held'
    refine ⟨held'.upload, recorded_snoc held'.topics _ ?_⟩
    intro sendTopic copied
    dsimp only at copied
    split at copied
    · cases copied
      exact ⟨t, id, configured, rfl⟩
    · cases copied
  · exact fun _ held => held
  · exact fun _ held => held
  · exact fun _ _ _ held => held.2

theorem handle_uploads (configured : mqttOption ctx (CString.lit "topic") = some t) (e : Event) :
    Keeps (Uploads ctx t) (handle p e) := by
  cases e with
  | msgAdd data i => exact cjsonMsgAdd_uploads configured data none i
  | post h =>
    apply mqttPostRun_keeps uploads_steady uploads_armed uploads_sampled
    · exact keeps_act fun w held => ⟨held.upload, recorded_snoc held.topics w.gMsgList trivial⟩
    · exact fun r _ => getDeviceId_uploads r
    · exact fun data report => cjsonMsgAdd_uploads configured data report _
  | send turns => exact mqttSendRun_keeps uploads_steady uploads_armed uploads_drained fun _ r _ =>
      getDeviceId_uploads r
  | callback c => exact mqttCallback_keeps uploads_steady fun r _ => getDeviceId_uploads r

theorem applyMqttConf_uploads (host port subTopic head : CString) (clientId : Option CString)
    (cleanSession qos keepalive retainMsg : CString) :
    Spec (TopicsConfigured ctx) (applyMqttConf p b host port t subTopic head clientId cleanSession qos keepalive
      retainMsg) (fun _ => Uploads ctx t) (TopicsConfigured ctx) := by
  have named : Keeps (TopicsConfigured ctx) (setCtx fun c => { c with mqttName := some .gDeviceId }) :=
    keeps_modify fun _ topics => topics
  apply spec_bind (getDeviceId_keeps (fun _ topics => topics) b.serial)
  intro _
  apply spec_bind named
  intro _
  apply spec_copy
  intro w _
  apply spec_bind keeps_check
  intro len
  generalize aesEcbPkcs5Encrypt _ _ _ _ _ _ _ = sealing
  apply spec_bind keeps_check
  rintro ⟨password, size⟩
  have applied {f : MqttContext → MqttContext} (sets : ∀ c, (f c).publishTopicUpload = some t) :
      Spec (TopicsConfigured ctx) (setCtx f) (fun _ => Uploads ctx t) (TopicsConfigured ctx) :=
    spec_modify fun w topics => ⟨sets w.gMqttCtx, topics⟩
  exact spec_bind (applied fun _ => rfl) fun _ => spec_pure fun _ held => held

theorem main_uploads (complete : Complete b.ctx)
    (configured : mqttOption b.ctx (CString.lit "topic") = some t) :
    Spec (TopicsConfigured b.ctx) (main p b) (fun _ => Uploads b.ctx t) (TopicsConfigured b.ctx) := by
  have anyway {m : Prog Unit} (keeps : Keeps (Uploads b.ctx t) m) :
      Spec (Uploads b.ctx t) m (fun _ => Uploads b.ctx t) (TopicsConfigured b.ctx) :=
    spec_halting keeps fun _ held => held.topics
  apply main_spec p topics_steady.history uploads_steady.history uploads_armed
  · exact fun _ held => ⟨held.upload, held.topics⟩
  · exact fun _ _ topics => topics
  intro _
  apply mqttInit_spec (I := Uploads b.ctx t)
  · apply readMqttConf_spec p topics_steady.history (fun _ topics => topics) (fun _ topics => topics)
    · exact fun incomplete => absurd complete incomplete
    intro _ host port topic subTopic head clientId cleanSession qos keepalive retainMsg found
    have same : topic = t := Option.some.inj (found.symm.trans configured)
    rw [same]
    exact spec_post (applyMqttConf_uploads host port subTopic head clientId cleanSession qos keepalive retainMsg)
      fun _ _ held => ⟨fun _ => held, fun _ => held⟩
  · apply startMosquitto_spec uploads_steady.history uploads_steady.history
    · exact fun _ held => ⟨held.upload, held.topics⟩
    · exact fun _ _ held => held
    · intro _
      apply anyway
      apply usernamePwSet_keeps
      exact fun user password held => ⟨held.upload, recorded_snoc held.topics _ trivial⟩

end Complete

section Signed

variable {p : Platform} {b : Boot} {ctx : UciContext}

/-- With a signed `char` no tick gets as far as a topic. -/
theorem signed_topics (signed : p.target.charSigned = true) {events : List Event}
    (occurs : ∀ e ∈ events, e.Occurs) :
    TopicsConfigured ctx (leaves (newplat p b events (.start p.target))) := by
  have all : Spec (Unasked p.target (TopicsConfigured ctx)) (newplat p b events)
      (fun _ => Unasked p.target (TopicsConfigured ctx)) (TopicsConfigured ctx) := by
    apply newplat_unasked signed topics_steady (recorded_armed fun _ _ => trivial) recorded_sampled topics_drained
    · exact fun _ topics => topics
    · exact fun _ topics => topics
    · exact fun user password topics => recorded_snoc topics _ trivial
    · exact fun data i member => (occurs _ member).elim
  have start : Unasked p.target (TopicsConfigured ctx) (.start p.target) :=
    ⟨rfl, fun _ none => nomatch none⟩
  rcases spec_leaves all start with held | topics
  · exact held.rest
  · exact topics

end Signed

section Incomplete

variable {s : CString} {ctx : UciContext}

def Unset (w : World) : Prop := w.gMqttCtx.publishTopicUpload = none

theorem unset_steady : Steady Unset := ⟨fun _ unset => unset, fun _ unset => unset⟩

theorem unset_sampled : Sampled Unset :=
  ⟨fun _ unset => unset, fun _ unset => unset, fun _ unset => unset, fun _ unset => unset⟩

def FormatsNull (w : World) : Prop := .topicFormatted none ∈ w.trace

theorem formatsNull_steady : Steady FormatsNull :=
  ⟨fun _ member => member, fun _ member => List.mem_append_left _ member⟩

/-- Without one of the options, the timers start on a topic of NULL. -/
theorem main_unset (p : Platform) {b : Boot} (loaded : b.Loaded) (incomplete : ¬ Complete b.ctx) :
    Spec (Knows s Unset false) (main p b) (fun _ => Knows s Unset false) fun _ => False := by
  have steady : Steady (Knows s Unset false) := knows_steady unset_steady
  have armed : Armed (Knows s Unset false) := fun _ _ _ knows => ⟨knows.buffer, knows.rest⟩
  apply main_spec p steady.history steady.history armed (fun _ knows => ⟨knows.buffer, knows.rest⟩)
  · exact fun unloaded => absurd loaded unloaded
  intro _
  apply mqttInit_spec (I := fun _ => False)
  · apply readMqttConf_spec p steady.history (fun _ knows => ⟨knows.buffer, knows.rest⟩)
      (fun _ knows => ⟨knows.buffer, knows.rest⟩)
    · exact fun _ w knows => ⟨fun _ => knows, fun never => absurd never (by decide)⟩
    · exact fun complete => absurd complete incomplete
  · exact fun _ never => never.elim

theorem cjsonMsgAdd_null (six : s.length = 6) (data : Option Bytes) (report : Option CJson) {i : MsgAdd}
    (prints : i.serial.Prints s) :
    Spec (Knows s Unset true) (cjsonMsgAdd data report i) (fun _ => FormatsNull) fun _ => True := by
  apply spec_bind (deviceId_knows six.le)
  intro id
  apply spec_fact
  intro named
  split
  · rename_i nameless
    rw [named] at nameless
    exact absurd (six.symm.trans nameless) (by decide)
  apply spec_bind (getDeviceId_knows six.le (fun _ unset => unset) prints)
  intro _
  apply spec_bind (deviceId_knows six.le)
  intro id
  apply spec_fact
  rintro -
  apply spec_copy
  intro w knows
  have unset : w.gMqttCtx.publishTopicUpload = none := knows.rest
  rw [unset]
  have formatted : Spec (Knows s Unset true) (act (.topicFormatted none)) (fun _ => FormatsNull)
      fun _ => True :=
    spec_modify fun _ _ => List.mem_append_right _ List.mem_cons_self
  apply spec_bind formatted
  intro _
  split
  · exact loge_spec formatsNull_steady.history (by decide) _
  cases data with
  | none => exact spec_throw fun _ _ => trivial
  | some buf =>
    apply spec_bind (spec_keeps keeps_check)
    intro msg
    exact spec_modify fun _ member => List.mem_append_left _ member

theorem mqttPostRun_null (six : s.length = 6) (p : Platform) {h : Heartbeat}
    (reads : ∀ r ∈ h.postData.reads, r.Prints s) (serial : h.postData.add.serial.Prints s)
    (found : h.postData.root.found = true) :
    Spec (Knows s Unset false) (mqttPostRun p h) (fun _ => FormatsNull) fun _ => True := by
  have known : h.postData.atAdd false = true := by
    simp [PostData.atAdd, PostData.atUav, PostData.atDev, PostData.atRoot, found]
  have collected : Keeps (Knows s Unset false) (collect p h) :=
    collect_keeps (knows_sampled unset_sampled) p h
  have built : Spec (Knows s Unset false) (buildPostData p h.postData) (fun _ => FormatsNull)
      fun _ => True := by
    apply buildPostData_knows six.le unset_steady (fun _ unset => unset) reads fun _ _ => trivial
    intro params data len _ _
    rw [known]
    exact cjsonMsgAdd_null six data _ serial
  apply mqttPostRun_spec p (spec_keeps collected) _ built
  · exact fun _ member => List.mem_append_left _ member
  · exact fun _ knows => ⟨knows.buffer, knows.rest⟩

/-- A device that lacks an option and reads its identity formats NULL in its first tick. -/
theorem first_tick_null {p : Platform} {b : Boot} (unsigned : p.target.charSigned = false)
    (prints : Prints p)
    (loaded : b.Loaded) (serial : b.serial.FitsId) (incomplete : ¬ Complete b.ctx) :
    FormatsNull (leaves (newplat p b [.post deviceHeartbeat] (.start p.target))) := by
  have started : Knows (CString.lit "d72e64") Unset false (.start p.target) := ⟨rfl, rfl⟩
  obtain ⟨_, w, main, knows⟩ := spec_returns (main_unset p loaded incomplete) started
  have ready : Ready w := spec_ok (main_ready serial) (start_ready_world unsigned) main
  have printed : serialPrinted.Prints (CString.lit "d72e64") := Or.inr rfl
  have reads : ∀ r ∈ deviceHeartbeat.postData.reads, r.Prints (CString.lit "d72e64") := by
    have same : deviceHeartbeat.postData.reads = List.replicate 3 serialPrinted := rfl
    intro r member
    rw [same] at member
    rw [List.eq_of_mem_replicate member]
    exact printed
  have tick := mqttPostRun_null rfl p reads printed rfl
  have readable : deviceHeartbeat.Readable := ⟨rfl, rfl, rfl, rfl⟩
  rcases mqttPostRun_decides unsigned prints deviceHeartbeat_short devicePostData_works w ready with
    ⟨-, _, w', run, -⟩ | ⟨unreadable, -⟩
  · have ends : newplat p b [.post deviceHeartbeat] (.start p.target) = .ok () w' :=
      (bind_ok main).trans (bind_ok run)
    rw [ends]
    exact spec_ok tick knows run
  · exact absurd readable unreadable

end Incomplete

/-- Exactly with a complete configuration is every topic the configured one, over every run;
a target with a signed `char` apart, where no tick gets that far. -/
theorem topics_configured_iff (t : Target) (ctx : UciContext) :
    (∀ (p : Platform) (b : Boot) (events : List Event),
      p.target = t → b.ctx = ctx → (∀ e ∈ events, e.Occurs) →
        TopicsConfigured ctx (leaves (newplat p b events (.start t)))) ↔
      Complete ctx ∨ t.charSigned = true := by
  constructor
  · intro always
    by_contra neither
    push Not at neither
    obtain ⟨incomplete, unsigned⟩ := neither
    let p : Platform := { devicePlatform with target := t }
    let b : Boot := { deviceBoot with ctx := ctx }
    have null : FormatsNull (leaves (newplat p b [.post deviceHeartbeat] (.start t))) :=
      first_tick_null (by simpa using unsigned) device_prints ⟨rfl, rfl⟩ serialPrinted_fits incomplete
    have occurs : ∀ e ∈ [Event.post deviceHeartbeat], e.Occurs := by
      intro e member
      rw [List.mem_singleton.mp member]
      trivial
    obtain ⟨topic, -, same⟩ := always p b _ rfl rfl occurs _ null
    cases same
  · rintro complete p b events rfl rfl occurs
    rcases complete with complete | signed
    · obtain ⟨topic, configured⟩ := complete (CString.lit "topic") (by decide)
      have all : Spec (TopicsConfigured b.ctx) (newplat p b events) (fun _ => Uploads b.ctx topic)
          (TopicsConfigured b.ctx) := by
        apply spec_bind (main_uploads complete configured)
        intro _
        apply spec_runAll
        intro e _
        exact spec_halting (handle_uploads configured e) fun _ held => held.topics
      have start : TopicsConfigured b.ctx (.start p.target) := fun _ none => nomatch none
      rcases spec_leaves all start with held | topics
      · exact held.topics
      · exact topics
    · exact signed_topics signed occurs

/-- All the installed options but the last one that is read. -/
def unfinishedOptions : List (CString × CString) :=
  deviceOptions.filter fun option => option.1 ≠ CString.lit "uav_manufacture"

def unfinishedBoot : Boot := { deviceBoot with ctx := configOf unfinishedOptions }

theorem unfinished_topic_null : mqttOption unfinishedBoot.ctx (CString.lit "topic") =
    some (CString.lit "property/post") ∧
    ¬ TopicsConfigured unfinishedBoot.ctx
      (leaves (newplat devicePlatform unfinishedBoot [.post deviceHeartbeat]
        (.start devicePlatform.target))) := by
  have incomplete : ¬ Complete unfinishedBoot.ctx := by
    intro complete
    obtain ⟨value, found⟩ := complete (CString.lit "uav_manufacture") (by decide)
    cases found
  refine ⟨rfl, fun topics => ?_⟩
  obtain ⟨topic, -, same⟩ := topics _ (first_tick_null rfl device_prints
    ⟨rfl, rfl⟩ serialPrinted_fits incomplete)
  cases same

end Newplat
