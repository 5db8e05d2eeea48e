import Newplat.Device
import Newplat.Frame

/-! A refused configuration and the context it leaves. `sub_qos` is assigned before the last of the
mandatory options is read. -/
namespace Newplat

open Base

/-- A failure, if there is one, comes before the assignment, or the assignment changes nothing. -/
def RefusedClean (t : Target) (ctx : UciContext) (c : MqttContext) : Prop :=
  (∃ name ∈ frontOptions, mqttOption ctx name = none) ∨
  mqttOption ctx (CString.lit "uav_manufacture") ≠ none ∨
  ∀ subQos, mqttOption ctx (CString.lit "sub_qos") = some subQos →
    t.toChar (atoi subQos) = c.subscribeTopicQos

section Conf

variable {P : World → Prop} {p : Platform} {b : Boot}

/-- A configuration that is applied is not refused. -/
theorem applyMqttConf_done (host port topic subTopic head : CString) (clientId : Option CString)
    (cleanSession qos keepalive retainMsg : CString) :
    Spec P (applyMqttConf p b host port topic subTopic head clientId cleanSession qos keepalive retainMsg)
      (fun r _ => r = 0) fun _ => True := by
  unfold applyMqttConf
  apply spec_bind (spec_any _)
  intro _
  apply spec_bind (spec_any _)
  intro _
  apply spec_copy
  intro w _
  apply spec_bind (spec_any _)
  intro len
  generalize aesEcbPkcs5Encrypt _ _ _ _ _ _ _ = sealing
  apply spec_bind (spec_any _)
  rintro ⟨password, outLen⟩
  apply spec_bind (spec_any _)
  intro _
  exact spec_pure fun _ _ => rfl

theorem setSubQos_some {subQos : CString} (given : mqttOption b.ctx (CString.lit "sub_qos") = some subQos)
    {E : World → Prop} (c : MqttContext) :
    Spec (fun w => w.gMqttCtx = c) (setSubQos p b.ctx)
      (fun _ w => w.gMqttCtx = { c with subscribeTopicQos := p.target.toChar (atoi subQos) }) E := by
  unfold setSubQos
  rw [given]
  exact spec_modify fun w held => by rw [held]

theorem setSubQos_same {E : World → Prop} {c : MqttContext}
    (same : ∀ subQos, mqttOption b.ctx (CString.lit "sub_qos") = some subQos →
      p.target.toChar (atoi subQos) = c.subscribeTopicQos) :
    Spec (fun w => w.gMqttCtx = c) (setSubQos p b.ctx) (fun _ w => w.gMqttCtx = c) E := by
  cases given : mqttOption b.ctx (CString.lit "sub_qos") with
  | none =>
    unfold setSubQos
    rw [given]
    exact spec_pure fun _ held => held
  | some subQos =>
    refine spec_post (setSubQos_some given c) fun _ w held => ?_
    rw [held, same subQos given]

theorem readMqttConf_clean {c : MqttContext} (clean : RefusedClean p.target b.ctx c) :
    Spec (fun w => w.gMqttCtx = c) (readMqttConf p b) (fun r w => r = -1 → w.gMqttCtx = c) fun _ => True := by
  apply readMqttConf_front p (fun _ held => held) (fun _ w held _ => held)
  intro front host port topic subTopic head clientId cleanSession qos keepalive retainMsg _
  -- past the last test nothing is refused
  have applied (manu : CString) (Q : World → Prop) :
      Spec Q (do
        setUavMsgCallback manu
        applyMqttConf p b host port topic subTopic head clientId cleanSession qos keepalive retainMsg)
        (fun r w => r = -1 → w.gMqttCtx = c) fun _ => True := by
    apply spec_bind (spec_any _)
    intro _
    refine spec_post (applyMqttConf_done host port topic subTopic head clientId cleanSession qos keepalive
      retainMsg) fun r w zero minus => ?_
    omega
  rcases clean with ⟨name, option, none⟩ | named | same
  · obtain ⟨value, some⟩ := front name option
    rw [none] at some
    cases some
  · apply spec_bind (spec_any _)
    intro _
    apply mandatory_spec (fun _ _ => trivial) (by decide)
    · exact fun none => absurd none named
    · exact fun manu _ => applied manu _
  · apply spec_bind (setSubQos_same same)
    intro _
    apply mandatory_spec (fun _ held => held) (by decide)
    · exact fun _ w held _ => held
    · exact fun manu _ => applied manu _

theorem readMqttConf_dirty {c : MqttContext} (dirty : ¬ RefusedClean p.target b.ctx c) :
    Spec (fun w => w.gMqttCtx = c) (readMqttConf p b) (fun r w => r = -1 ∧ w.gMqttCtx ≠ c)
      fun _ => False := by
  simp only [RefusedClean, not_or, not_exists, not_and, not_not, not_forall] at dirty
  obtain ⟨read, unnamed, subQos, given, changes⟩ := dirty
  apply readMqttConf_front p (fun _ held => held)
  · rintro ⟨name, option, none⟩
    exact absurd none (read name option)
  intro _ host port topic subTopic head clientId cleanSession qos keepalive retainMsg _
  apply spec_bind (setSubQos_some given c)
  intro _
  apply mandatory_spec (fun _ held => held) (by decide)
  · intro _ w held
    refine ⟨rfl, fun same => changes ?_⟩
    rw [← same, held]
  · intro manu named
    rw [unnamed] at named
    cases named

end Conf

/-- What the failure of `read_mqtt_conf` leaves of the context. -/
theorem refused_conf_clean_iff (p : Platform) (b : Boot) (w : World) :
    (∀ w', readMqttConf p b w = .ok (-1) w' → w'.gMqttCtx = w.gMqttCtx) ↔
      RefusedClean p.target b.ctx w.gMqttCtx := by
  constructor
  · intro restores
    by_contra dirty
    obtain ⟨r, w', run, refused, changed⟩ := spec_returns (readMqttConf_dirty dirty) rfl
    rw [refused] at run
    exact changed (restores w' run)
  · intro clean w' run
    exact spec_ok (readMqttConf_clean clean) rfl run rfl

/-- The installed options with another `sub_qos` and without the last one that is read. -/
def halfOptions : List (CString × CString) :=
  (CString.lit "sub_qos", CString.lit "1") ::
    deviceOptions.filter fun option => option.1 ≠ CString.lit "uav_manufacture"

def halfBoot : Boot := { deviceBoot with ctx := configOf halfOptions }

theorem half_conf_assigned : ∃ w', readMqttConf devicePlatform halfBoot (.start devicePlatform.target) =
    .ok (-1) w' ∧ w'.gMqttCtx ≠ (World.start devicePlatform.target).gMqttCtx := by
  have given : mqttOption halfBoot.ctx (CString.lit "sub_qos") = some (CString.lit "1") := rfl
  have dirty : ¬ RefusedClean devicePlatform.target halfBoot.ctx
      (World.start devicePlatform.target).gMqttCtx := by
    rintro (⟨name, option, none⟩ | named | same)
    · revert none
      revert name
      decide
    · exact named rfl
    · exact absurd (same _ given) (by decide)
  obtain ⟨r, w', run, refused, changed⟩ := spec_returns (readMqttConf_dirty dirty) rfl
  rw [refused] at run
  exact ⟨w', run, changed⟩

end Newplat
