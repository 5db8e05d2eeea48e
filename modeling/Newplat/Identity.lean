import Newplat.Heartbeat

/-! The identity of the device over whole runs. The buffer holds the serial number from the
first successful execution of the command on; before it, it holds the empty string. -/
namespace Newplat

open Base

/-- An execution of the command prints `s`, or fails. -/
def Popen.Prints (s : CString) (r : Popen) : Prop := r.reply = none ∨ r.reply = some s

def Popen.found (r : Popen) : Bool := r.reply.isSome

/-- A callback with an unknown identity reads once, and the second time only on success. -/
def Callback.found : Callback → Bool
  | .connect _ rc first _ _ => decide (rc = 0) && first.found
  | .disconnect _ _ => false

def Moment.found : Moment → Bool
  | .callback c => c.found
  | .read r => r.found

def Read.found (r : Read) : Bool := r.before.any Callback.found || r.popen.found

def identity (s : CString) (known : Bool) : CString := if known then s else CString.empty

/-- `g_device_id` holds the identity, as far as it is known, and `J` holds. -/
structure Knows (s : CString) (J : World → Prop) (known : Bool) (w : World) : Prop where
  buffer : w.gDeviceId = (identity s known).bytes ++ List.replicate (7 - (identity s known).length) 0
  rest : J w

section Reads

variable {s : CString} {J E : World → Prop} {known : Bool}

theorem identity_short (short : s.length ≤ 6) : (identity s known).length ≤ 6 := by
  cases known with
  | true => exact short
  | false => exact Nat.zero_le 6

theorem knows_steady (steady : Steady J) : Steady (Knows s J known) where
  connection up knows := ⟨knows.buffer, steady.connection up knows.rest⟩
  history quiet knows := ⟨knows.buffer, steady.history quiet knows.rest⟩

theorem knows_sampled (sampled : Sampled J) : Sampled (Knows s J known) where
  flyTime t knows := ⟨knows.buffer, sampled.flyTime t knows.rest⟩
  netInfo n knows := ⟨knows.buffer, sampled.netInfo n knows.rest⟩
  uavData u knows := ⟨knows.buffer, sampled.uavData u knows.rest⟩
  strings st knows := ⟨knows.buffer, sampled.strings st knows.rest⟩

theorem deviceId_knows (short : s.length ≤ 6) :
    Spec (Knows s J known) deviceId (fun id w => id = identity s known ∧ Knows s J known w) E := by
  have fits : (identity s known).length ≤ 6 := identity_short short
  apply spec_get
  intro w knows
  have string : cstr w.gDeviceId = .ok (identity s known) := by
    rw [knows.buffer]
    exact cstr_padded _ (by omega)
  rw [string]
  apply spec_pure
  rintro w' rfl
  exact ⟨rfl, knows⟩

theorem getDeviceId_knows (short : s.length ≤ 6) (renamed : ∀ {w} sn, J w → J { w with gDeviceId := sn })
    {r : Popen} (prints : r.Prints s) :
    Spec (Knows s J known) (getDeviceId r) (fun _ => Knows s J (known || r.found)) E := by
  intro w knows
  rcases prints with fails | replies
  · rw [getDeviceId_none fails]
    have nothing : r.found = false := by rw [Popen.found, fails]; rfl
    rw [nothing, Bool.or_false]
    exact knows
  · have size : s.bytes.length ≤ 6 := short
    have written : write w.gDeviceId 0 s.bytes = .ok (s.bytes ++ List.replicate (7 - s.length) 0) := by
      rw [knows.buffer]
      cases known with
      | true => rw [identity, if_pos rfl, write_start (by simp), List.drop_left]
      | false =>
        have zeros : CString.empty.bytes ++ List.replicate (7 - CString.empty.length) 0 =
          List.replicate 7 (0 : UInt8) := rfl
        have fits : s.bytes.length ≤ (List.replicate 7 (0 : UInt8)).length := by
          rw [List.length_replicate]
          omega
        rw [identity, if_neg Bool.false_ne_true, zeros, write_start fits, List.drop_replicate, CString.length]
    rw [getDeviceId_some replies written]
    have something : r.found = true := by rw [Popen.found, replies]; rfl
    rw [something, Bool.or_true]
    refine ⟨?_, renamed _ knows.rest⟩
    rw [identity, if_pos rfl]

theorem identity_known {known : Bool} (named : (identity s known).length ≠ 0) : known = true := by
  by_contra unknown
  rw [identity, if_neg unknown] at named
  exact named rfl

theorem mqttCallback_knows (short : s.length ≤ 6) (steady : Steady J)
    (renamed : ∀ {w} sn, J w → J { w with gDeviceId := sn }) {c : Callback}
    (prints : ∀ r ∈ c.reads, r.Prints s) :
    Spec (Knows s J known) (mqttCallback c) (fun _ => Knows s J (known || c.found)) J := by
  cases c with
  | connect mosq rc first second subscribe =>
    have found (accepted : rc = 0) : (Callback.connect mosq rc first second subscribe).found = first.found := by
      simp [Callback.found, accepted]
    generalize after : (Callback.connect mosq rc first second subscribe).found = later at *
    have steady' : Steady (Knows s J (known || later)) := knows_steady steady
    apply mqttConnectCallback_walk (Knows s J (known || later)) (Knows s J (known || later))
      (Knows s J (known || later))
      (fun id w => id = identity s (known || later) ∧ Knows s J (known || later) w)
      (fun id w => id = identity s (known || later) ∧ Knows s J (known || later) w)
    · exact fun _ _ knows => knows.rest
    · intro accepted
      rw [found accepted]
      exact getDeviceId_knows short renamed (prints first List.mem_cons_self)
    · exact fun _ knows _ => knows
    · exact fun w knows _ => steady'.history (w := { w with
        gMqttCtx := { w.gMqttCtx with connectedUav := true } }) rfl (steady'.connection true knows)
    · exact deviceId_knows short
    · exact fun _ _ _ knows => knows.2
    · intro id named
      apply spec_fact
      rintro rfl
      have read : Spec (Knows s J (known || later)) (getDeviceId second)
          (fun _ => Knows s J ((known || later) || second.found)) J :=
        getDeviceId_knows short renamed (prints second (List.mem_cons_of_mem _ List.mem_cons_self))
      rw [identity_known named] at read ⊢
      exact read
    · exact deviceId_knows short
    · intro id w _ _
      exact spec_fact fun _ => spec_halting (subMqttTopic_keeps steady'.history _ _) fun _ knows => knows.rest
  | disconnect mosq rc =>
    rw [Callback.found, Bool.or_false]
    apply spec_copy
    intro w _
    split
    · exact spec_modify fun _ knows => (knows_steady steady).connection false knows
    · exact spec_pure fun _ knows => knows

theorem knows_followed (short : s.length ≤ 6) (steady : Steady J)
    (renamed : ∀ {w} sn, J w → J { w with gDeviceId := sn }) (halts : ∀ w, J w → E w) :
    Followed (Knows s J) (fun _ m => ∀ r ∈ m.reads, r.Prints s) (fun known m => known || m.found)
      (fun known id => id = identity s known) E where
  step known m prints := by
    cases m with
    | callback c => exact spec_halting (mqttCallback_knows short steady renamed prints) halts
    | read r => exact getDeviceId_knows short renamed (prints r List.mem_cons_self)
  look known := deviceId_knows short
  halts known w knows := halts w knows.rest

theorem found_callbacks (cs : List Callback) :
    (cs.map Moment.callback).foldl (fun known m => known || m.found) known = (known || cs.any Callback.found) := by
  induction cs generalizing known with
  | nil => simp
  | cons c cs ih =>
    rw [List.map_cons, List.foldl_cons, ih, List.any_cons, Bool.or_assoc]
    rfl

theorem found_read (r : Read) :
    r.moments.foldl (fun known m => known || m.found) known = (known || r.found) := by
  rw [Read.moments, List.foldl_append, found_callbacks, Read.found, ← Bool.or_assoc]
  rfl

end Reads

section Report

variable {s : CString} {J E : World → Prop} {Q : Unit → World → Prop} {known : Bool}
variable {p : Platform} {i : PostData}

/-- What is known of the identity at each place of a report, and after it. -/
def PostData.atRoot (i : PostData) (known : Bool) : Bool := known || i.root.found

def PostData.atDev (i : PostData) (known : Bool) : Bool := i.atRoot known || i.dev.found

def PostData.atUav (i : PostData) (known : Bool) : Bool := i.atDev known || i.uav.found

def PostData.atAdd (i : PostData) (known : Bool) : Bool := i.atUav known || i.beforeAdd.any Callback.found

theorem found_postData (i : PostData) :
    i.moments.foldl (fun known m => known || m.found) known = i.atAdd known := by
  simp only [PostData.moments, List.foldl_append, found_read, found_callbacks]
  rfl

theorem buildPostData_knows (short : s.length ≤ 6) (steady : Steady J)
    (renamed : ∀ {w} sn, J w → J { w with gDeviceId := sn }) (prints : ∀ r ∈ i.reads, r.Prints s)
    (halts : ∀ w, J w → E w)
    (add : ∀ params data len,
      EntriesFrom (identity s (i.atDev known)) (identity s (i.atUav known)) params →
      encrypted p i.ssl (p.cJSONPrint (reportRoot i.uuid (identity s (i.atRoot known)) params)) =
        .ok (data, len) →
      Spec (Knows s J (i.atAdd known))
        (cjsonMsgAdd data (some (reportRoot i.uuid (identity s (i.atRoot known)) params)) i.add) Q E) :
    Spec (Knows s J known) (buildPostData p i) Q E := by
  have followed := knows_followed short steady renamed halts
  have passes : Passes (fun _ m => ∀ r ∈ m.reads, r.Prints s) (fun known m => known || m.found) known
      i.moments := passes_always known fun m member _ r read => prints r (postData_reads member read)
  apply buildPostData_follows followed p passes
  intro id devId uavId params data len isId isDev isUav entries sealed
  simp only [found_read, found_postData] at isId isDev isUav ⊢
  subst isId isDev isUav
  exact add params data len entries sealed

end Report

section Credentials

variable {s : CString} {J K E : World → Prop} {p : Platform} {b : Boot}

structure Configured (p : Platform) (b : Boot) (s : CString) (J : World → Prop) (w : World) : Prop where
  knows : Knows s J b.serial.found w
  name : w.gMqttCtx.mqttName = some .gDeviceId
  password : ∃ len, encrypted p b.ssl (identity s b.serial.found) = .ok (w.gMqttCtx.mqttPassword, len)

theorem configured_steady (steady : Steady J) : Steady (Configured p b s J) where
  connection up conf := ⟨(knows_steady steady).connection up conf.knows, conf.name, conf.password⟩
  history quiet conf := ⟨(knows_steady steady).history quiet conf.knows, conf.name, conf.password⟩

theorem applyMqttConf_knows (short : s.length ≤ 6) (renamed : ∀ {w} sn, J w → J { w with gDeviceId := sn })
    (ctx : ∀ {w} c, J w → J { w with gMqttCtx := c }) (prints : b.serial.Prints s)
    (halts : ∀ e w, encrypted p b.ssl (identity s b.serial.found) = .error e → J w → E w)
    (host port topic subTopic head : CString) (clientId : Option CString)
    (cleanSession qos keepalive retainMsg : CString) :
    Spec (Knows s J false) (applyMqttConf p b host port topic subTopic head clientId cleanSession qos keepalive
      retainMsg) (fun ret w => ret = 0 ∧ Configured p b s J w) E := by
  have read : Spec (Knows s J false) (getDeviceId b.serial) (fun _ => Knows s J b.serial.found) E :=
    getDeviceId_knows short renamed prints
  apply spec_bind read
  intro _
  have named : Spec (Knows s J b.serial.found) (setCtx fun c => { c with mqttName := some .gDeviceId })
      (fun _ w => w.gMqttCtx.mqttName = some .gDeviceId ∧ Knows s J b.serial.found w) E :=
    spec_modify fun _ knows => ⟨rfl, knows.buffer, ctx _ knows.rest⟩
  apply spec_bind named
  intro _
  apply spec_get
  rintro w ⟨name, knows⟩
  have fits : (identity s b.serial.found).length ≤ 6 := identity_short short
  have string : strlen w.gDeviceId = .ok (identity s b.serial.found).length := by
    rw [strlen, knows.buffer, cstr_padded _ (by omega)]
    rfl
  have sealing : aesEcbPkcs5Encrypt b.ssl p.rounds w.gDeviceId
      (toInt32 (identity s b.serial.found).length) getDeviceKey 16 true =
        encrypted p b.ssl (identity s b.serial.found) := by
    have small : toInt32 (identity s b.serial.found).length =
        (identity s b.serial.found).bytes.length := toInt32_small (by omega)
    rw [encrypted, small, knows.buffer, CString.buffer, encrypt_front, encrypt_front]
  rw [string, check_ok_bind, sealing]
  generalize same : encrypted p b.ssl (identity s b.serial.found) = sealing at halts
  have failed (e : Halt) (w' : World) (fails : sealing = .error e) (here : w' = w) : E w' := by
    rw [here]
    exact halts e w fails knows.rest
  apply spec_bind (spec_checked failed)
  rintro ⟨password, len⟩
  apply spec_fact
  intro ok
  dsimp only
  have applied {f : MqttContext → MqttContext} (kept : ∀ c, (f c).mqttName = c.mqttName)
      (stored : ∀ c, (f c).mqttPassword = password) :
      Spec (fun w' => w' = w) (setCtx f) (fun _ => Configured p b s J) E := by
    apply spec_modify
    rintro w' rfl
    exact ⟨⟨knows.buffer, ctx _ knows.rest⟩, (kept _).trans name, len, by rw [same, ok, stored]⟩
  exact spec_bind (applied (fun _ => rfl) fun _ => rfl) fun _ => spec_pure fun _ held => ⟨rfl, held⟩

theorem usernamePwSet_knows (short : s.length ≤ 6)
    (nothing : ∀ w, Configured p b s J w → w.gMqttCtx.mqttPassword = none → K w)
    (login : ∀ w password, Configured p b s J w → Sealed p b.ssl (identity s b.serial.found) password →
      K { w with trace := w.trace ++ [.mosquittoUsernamePwSet (identity s b.serial.found) password] })
    (halts : ∀ w buf e, Configured p b s J w → w.gMqttCtx.mqttPassword = some buf →
      cstr buf = .error e → E w) :
    Spec (Configured p b s J) usernamePwSet (fun _ => K) E := by
  apply spec_get
  intro w configured
  obtain ⟨len, sealed⟩ := configured.password
  rw [configured.name]
  cases password : w.gMqttCtx.mqttPassword with
  | none =>
    apply spec_pure
    rintro w' rfl
    exact nothing w' configured password
  | some buf =>
    rw [password] at sealed
    let here := Knows s (fun w' => w' = w) b.serial.found
    apply spec_bind (spec_at (P := here) (deviceId_knows short) ⟨configured.knows.buffer, rfl⟩)
    intro id
    apply spec_fact
    rintro rfl
    have failed (e : Halt) (w' : World) (fails : cstr buf = .error e) (same : here w') : E w' := by
      rw [same.rest]
      exact halts w buf e configured password fails
    apply spec_bind (spec_checked failed)
    intro copied
    apply spec_fact
    intro string
    apply spec_modify
    rintro w' ⟨-, rfl⟩
    exact login w' copied configured ⟨buf, len, sealed, string⟩

end Credentials

/-- The three places of a report that name the device. -/
structure Names (s : CString) (report : CJson) : Prop where
  root : report.getObjectItem "deviceCode" = some (.string s)
  entries : ∀ k < 2, ∃ params entry, report.getObjectItem "params" = some params ∧
    CJson.getArrayItem params k = some entry ∧ CJson.getObjectItem entry "deviceCode" = some (.string s)

def topicHead (s : CString) : CString :=
  CString.lit "/paas/" ++ getProductKey ++ CString.lit "/" ++ s ++ CString.lit "/"

def Action.Identified (p : Platform) (b : Boot) (events : List Event) (s : CString) : Action → Prop
  | .queued m report => ∃ root, report = some root ∧ Names s root ∧
    (∀ msg, m.msg = some msg → ∃ h, .post h ∈ events ∧ Sealed p h.postData.ssl (p.cJSONPrint root) msg) ∧
    ∀ topic, m.sendTopic = some topic → (topicHead s).bytes <+: topic.bytes
  | .mosquittoUsernamePwSet username password => username = s ∧ Sealed p b.ssl s password
  | _ => True

def OneIdentity (p : Platform) (b : Boot) (events : List Event) (s : CString) : World → Prop :=
  Recorded (Action.Identified p b events s)

abbrev Told (p : Platform) (b : Boot) (events : List Event) (s : CString) : Bool → World → Prop :=
  Knows s (OneIdentity p b events s)

/-- `cjson_msg_add` has one caller, the report. -/
def Event.Occurs : Event → Prop
  | .msgAdd _ _ => False
  | _ => True

def Event.Reads (P : Popen → Prop) : Event → Prop
  | .msgAdd _ i => P i.serial
  | .post h => (∀ r ∈ h.postData.reads, P r) ∧ P h.postData.add.serial
  | .send turns => ∀ k, ∀ r ∈ (turns k).before.flatMap Callback.reads, P r
  | .callback c => ∀ r ∈ c.reads, P r

/-- The start gets to handing over credentials, even under an empty name. -/
def Boot.HandsOver (p : Platform) (b : Boot) : Prop :=
  b.Loaded ∧ Complete b.ctx ∧ b.mosquittoNew ≠ none ∧ ∃ text, Sealed p b.ssl CString.empty text

/-- A report that finds the identity at all finds it for its root. -/
def PostData.Consistent (i : PostData) : Prop :=
  i.root.found = true ∨ (i.dev.found = false ∧ i.uav.found = false ∧
    i.beforeAdd.any Callback.found = false)

/-- A tick starts with a known identity, or makes a consistent report. -/
def Event.Consistent : Event → World → Prop
  | .post h, w => strlen w.gDeviceId ≠ .ok 0 ∨ h.postData.Consistent
  | _, _ => True

section Runs

variable {s : CString} {p : Platform} {b : Boot} {events : List Event} {known : Bool}

theorem names_report (uuid : CString) {params : CJson} (entries : EntriesFrom s s params) :
    Names s (reportRoot uuid s params) := by
  obtain ⟨devValue, uavValue, devTime, uavTime, rfl⟩ := entries
  constructor
  · rfl
  · intro k two
    match k, two with
    | 0, _ => exact ⟨_, _, rfl, rfl, rfl⟩
    | 1, _ => exact ⟨_, _, rfl, rfl, rfl⟩

theorem topicHead_paasTopic (six : s.length = 6) (topic : Option CString) :
    (topicHead s).bytes <+: (paasTopic s topic).bytes := by
  have head : (CString.lit "/paas/" ++ getProductKey ++ CString.lit "/").bytes.length = 25 := by decide
  have tail : (CString.lit "/").bytes.length = 1 := by decide
  have size : (topicHead s).bytes.length = 32 := by
    rw [CString.length] at six
    rw [topicHead, CString.append_bytes, CString.append_bytes, List.length_append,
      List.length_append, head, six, tail]
  have cut : (paasTopic s topic).bytes = ((topicHead s).bytes ++ (printString topic).bytes).take 79 := rfl
  rw [cut, List.prefix_take_iff, size]
  exact ⟨List.prefix_append _ _, by decide⟩

theorem oneIdentity_steady : Steady (OneIdentity p b events s) := by
  apply recorded_steady
  intro a quiet
  cases a with
  | queued m report => cases quiet
  | mosquittoUsernamePwSet username password => cases quiet
  | _ => trivial

theorem cjsonMsgAdd_unknown {J E : World → Prop} (short : s.length ≤ 6) (data : Option Bytes)
    (report : Option CJson) (i : MsgAdd) :
    Spec (Knows s J false) (cjsonMsgAdd data report i) (fun _ => Knows s J false) E := by
  apply spec_bind (deviceId_knows short)
  intro id
  apply spec_fact
  rintro rfl
  split
  · exact spec_pure fun _ knows => knows
  · rename_i named
    exact absurd rfl named

theorem cjsonMsgAdd_one (six : s.length = 6) {data : Option Bytes} {root : CJson} {i : MsgAdd}
    (prints : i.serial.Prints s) (names : Names s root)
    (payload : ∀ buf msg, data = some buf → cstr buf = .ok msg →
      ∃ h, .post h ∈ events ∧ Sealed p h.postData.ssl (p.cJSONPrint root) msg) :
    Spec (Told p b events s true) (cjsonMsgAdd data (some root) i)
      (fun _ => Told p b events s true) (OneIdentity p b events s) := by
  apply spec_bind (deviceId_knows six.le)
  intro id
  apply spec_fact
  rintro -
  split
  · exact spec_pure fun _ knows => knows
  apply spec_bind (getDeviceId_knows six.le (fun _ one => one) prints)
  intro _
  apply spec_bind (deviceId_knows six.le)
  intro id
  apply spec_fact
  intro named
  rw [named]
  apply spec_get
  intro w knows
  have formatted : Spec (fun w' => w' = w) (act (.topicFormatted w.gMqttCtx.publishTopicUpload))
      (fun _ => Told p b events s true) (OneIdentity p b events s) := by
    apply spec_modify
    rintro w' rfl
    exact ⟨knows.buffer, recorded_snoc knows.rest w'.gMsgList trivial⟩
  apply spec_bind formatted
  intro _
  split
  · exact loge_spec (knows_steady oneIdentity_steady).history (by decide) _
  cases data with
  | none => exact spec_throw fun _ knows => knows.rest
  | some buf =>
    apply spec_bind (spec_checked fun _ _ _ knows => knows.rest)
    intro msg
    apply spec_fact
    intro string
    apply spec_modify
    intro w' knows'
    refine ⟨knows'.buffer, recorded_snoc knows'.rest _ ⟨root, rfl, names, ?_, ?_⟩⟩
    · intro msg' copied
      split at copied
      · cases copied
        exact payload buf msg rfl string
      · cases copied
    · intro topic copied
      dsimp only at copied
      split at copied
      · cases copied
        exact topicHead_paasTopic six _
      · cases copied

/-- One tick: from a known identity, or with a consistent report. -/
theorem mqttPostRun_one (six : s.length = 6) {h : Heartbeat} (member : .post h ∈ events)
    (reads : ∀ r ∈ h.postData.reads, r.Prints s) (serial : h.postData.add.serial.Prints s)
    (consistent : known = true ∨ h.postData.Consistent) :
    Spec (Told p b events s known) (mqttPostRun p h)
      (fun _ w => ∃ known, Told p b events s known w) (OneIdentity p b events s) := by
  have add (params : CJson) (data : Option Bytes) (len : Int)
      (entries : EntriesFrom (identity s (h.postData.atDev known)) (identity s (h.postData.atUav known)) params)
      (sealed : encrypted p h.postData.ssl (p.cJSONPrint (reportRoot h.postData.uuid
        (identity s (h.postData.atRoot known)) params)) = .ok (data, len)) :
      Spec (Told p b events s (h.postData.atAdd known)) (cjsonMsgAdd data
        (some (reportRoot h.postData.uuid (identity s (h.postData.atRoot known)) params)) h.postData.add)
        (fun _ => Told p b events s (h.postData.atAdd known)) (OneIdentity p b events s) := by
    have same : h.postData.atAdd known = false ∨ (h.postData.atRoot known = true ∧
        h.postData.atDev known = true ∧ h.postData.atUav known = true ∧ h.postData.atAdd known = true) := by
      simp only [PostData.atAdd, PostData.atUav, PostData.atDev, PostData.atRoot]
      rcases consistent with rfl | found | ⟨dev, uav, add⟩
      · simp
      · simp [found]
      · rw [dev, uav, add]
        cases known || h.postData.root.found <;> simp
    rcases same with unknown | ⟨root, dev, uav, add⟩
    · rw [unknown]
      exact cjsonMsgAdd_unknown six.le _ _ _
    · rw [dev, uav] at entries
      rw [root] at sealed ⊢
      rw [add]
      apply cjsonMsgAdd_one six serial (names_report _ entries)
      rintro buf msg rfl string
      exact ⟨h, member, buf, len, sealed, string⟩
  have steady : Steady (OneIdentity p b events s) := oneIdentity_steady
  have collected : Keeps (Told p b events s known) (collect p h) :=
    collect_keeps (knows_sampled recorded_sampled) p h
  have built := buildPostData_knows six.le steady (fun _ one => one) reads (fun _ one => one) add
  apply mqttPostRun_spec p (spec_halting collected fun _ held => held.rest) _ built
  · exact fun w knows => ⟨_, knows.buffer, recorded_snoc knows.rest w.gMsgList trivial⟩
  · exact fun w knows => ⟨knows.buffer, recorded_snoc knows.rest w.gMsgList trivial⟩

def Holds (p : Platform) (b : Boot) (events : List Event) (s : CString) (w : World) : Prop :=
  ∃ known, Told p b events s known w

theorem holds_steady : Steady (Holds p b events s) where
  connection up := fun ⟨known, knows⟩ => ⟨known, (knows_steady oneIdentity_steady).connection up knows⟩
  history quiet := fun ⟨known, knows⟩ => ⟨known, (knows_steady oneIdentity_steady).history quiet knows⟩

theorem holds_armed : Armed (Holds p b events s) := fun w _ _ ⟨known, knows⟩ =>
  ⟨known, knows.buffer, recorded_snoc knows.rest w.gMsgList trivial⟩

theorem holds_drained : Drained (Holds p b events s) := by
  have drained : Drained (OneIdentity p b events s) :=
    recorded_drained (fun _ _ => trivial) (fun _ _ _ _ _ _ => trivial) trivial
  constructor
  · exact fun m up ⟨known, knows⟩ => ⟨known, knows.buffer, drained.turn m up knows.rest⟩
  · exact fun topic data len qos retain ret ⟨known, knows⟩ =>
      ⟨known, knows.buffer, drained.publish topic data len qos retain ret knows.rest⟩
  · exact fun ⟨known, knows⟩ => ⟨known, knows.buffer, drained.unsupported knows.rest⟩
  · exact fun list ⟨known, knows⟩ => ⟨known, knows.buffer, drained.list list knows.rest⟩

theorem getDeviceId_holds (six : s.length = 6) {r : Popen} (prints : r.Prints s) :
    Keeps (Holds p b events s) (getDeviceId r) := by
  rintro w ⟨known, knows⟩
  have reads : Spec (Told p b events s known) (getDeviceId r)
      (fun _ => Told p b events s (known || r.found)) fun _ => False :=
    getDeviceId_knows six.le (fun _ one => one) prints
  obtain ⟨a, w', run, knows'⟩ := spec_returns reads knows
  rw [run]
  exact ⟨_, knows'⟩

theorem handle_one (six : s.length = 6) {e : Event} (member : e ∈ events)
    (reads : e.Reads (Popen.Prints s)) (occurs : e.Occurs) :
    Spec (fun w => e.Consistent w ∧ Holds p b events s w) (handle p e) (fun _ => Holds p b events s)
      (OneIdentity p b events s) := by
  have kept {m : Prog Unit} (keeps : Keeps (Holds p b events s) m) :
      Spec (fun w => e.Consistent w ∧ Holds p b events s w) m (fun _ => Holds p b events s)
        (OneIdentity p b events s) :=
    spec_from (spec_halting keeps fun _ ⟨_, knows⟩ => knows.rest) fun _ held => held.2
  cases e with
  | msgAdd data i => exact occurs.elim
  | post h =>
    rintro w ⟨consistent, known, knows⟩
    refine mqttPostRun_one six member reads.1 reads.2 ?_ w knows
    rcases consistent with named | consistent
    · left
      by_contra unknown
      apply named
      rw [knows.buffer, identity, if_neg unknown]
      rfl
    · exact Or.inr consistent
  | send turns =>
    apply kept
    apply mqttSendRun_keeps holds_steady holds_armed holds_drained
    exact fun k r read => getDeviceId_holds six (reads k r read)
  | callback c =>
    apply kept
    exact mqttCallback_keeps holds_steady fun r read => getDeviceId_holds six (reads r read)

theorem main_one (six : s.length = 6) (prints : b.serial.Prints s)
    (login : b.HandsOver p → b.serial.found = true) :
    Spec (Told p b events s false) (main p b) (fun _ => Holds p b events s)
      (OneIdentity p b events s) := by
  have steady : Steady (OneIdentity p b events s) := oneIdentity_steady
  have configured : Steady fun w => Complete b.ctx ∧ Configured p b s (OneIdentity p b events s) w :=
    ⟨fun up held => ⟨held.1, (configured_steady steady).connection up held.2⟩,
      fun quiet held => ⟨held.1, (configured_steady steady).history quiet held.2⟩⟩
  apply main_spec p (knows_steady steady).history holds_steady.history holds_armed
  · exact fun _ ⟨known, knows⟩ => ⟨known, knows.buffer, knows.rest⟩
  · exact fun _ _ knows => knows.rest
  intro loaded
  apply mqttInit_spec (I := fun w => Complete b.ctx ∧ Configured p b s (OneIdentity p b events s) w)
  · apply readMqttConf_spec p (knows_steady steady).history
    · exact fun _ knows => ⟨knows.buffer, knows.rest⟩
    · exact fun _ knows => ⟨knows.buffer, knows.rest⟩
    · exact fun _ w knows => ⟨fun _ => ⟨false, knows⟩, fun never => absurd never (by decide)⟩
    · intro complete host port topic subTopic head clientId cleanSession qos keepalive retainMsg _
      have applied := applyMqttConf_knows (p := p) (E := OneIdentity p b events s) six.le (fun _ one => one)
        (fun _ one => one) prints (fun _ _ _ one => one) host port topic subTopic head clientId
        cleanSession qos keepalive retainMsg
      apply spec_post applied
      rintro ret w ⟨rfl, conf⟩
      exact ⟨fun never => absurd never (by decide), fun _ => ⟨complete, conf⟩⟩
  · apply startMosquitto_spec configured.history holds_steady.history
    · rintro w m ⟨complete, conf⟩
      exact ⟨complete, ⟨conf.knows.buffer, conf.knows.rest⟩, conf.name, conf.password⟩
    · exact fun _ w held => ⟨_, held.2.knows⟩
    · intro made w held
      have nothing (w' : World) (conf : Configured p b s (OneIdentity p b events s) w')
          (_ : w'.gMqttCtx.mqttPassword = none) : Holds p b events s w' := ⟨_, conf.knows⟩
      refine usernamePwSet_knows six.le nothing ?_ (fun _ _ _ conf _ _ => conf.knows.rest) w held.2
      intro w' password conf sealed
      have found : b.serial.found = true := by
        by_contra unknown
        rw [identity, if_neg unknown] at sealed
        exact unknown (login ⟨loaded, held.1, made, password, sealed⟩)
      rw [found] at sealed ⊢
      refine ⟨true, ?_, recorded_snoc conf.knows.rest w'.gMsgList ⟨rfl, sealed⟩⟩
      rw [conf.knows.buffer, found]

/-- Whatever executions of the command fail: when the start knows the identity it hands over,
and every tick is consistent, all messages and the credentials carry the one identity. -/
theorem one_identity (six : s.length = 6) (prints : b.serial.Prints s)
    (reads : ∀ e ∈ events, e.Reads (Popen.Prints s)) (occurs : ∀ e ∈ events, e.Occurs)
    (login : b.HandsOver p → b.serial.found = true)
    (ticks : ∀ w, main p b (.start p.target) = .ok () w → Along Event.Consistent (handle p) events w) :
    OneIdentity p b events s (leaves (newplat p b events (.start p.target))) := by
  have started : Told p b events s false (.start p.target) :=
    ⟨rfl, fun _ none => nomatch none⟩
  have start : Spec (Told p b events s false) (main p b) (fun _ => Holds p b events s)
      (OneIdentity p b events s) := main_one six prints login
  have rest : Spec (fun w => Along Event.Consistent (handle p) events w ∧ Holds p b events s w)
      (run p events) (fun _ => Holds p b events s) (OneIdentity p b events s) :=
    spec_along fun e member => handle_one six member (reads e member) (occurs e member)
  have all : Spec (fun w => w = .start p.target) (newplat p b events) (fun _ => Holds p b events s)
      (OneIdentity p b events s) := by
    apply spec_bind (Q := fun _ w => Along Event.Consistent (handle p) events w ∧ Holds p b events s w)
    · rintro w rfl
      have held := start _ started
      cases run : main p b (.start p.target) with
      | ok a w =>
        rw [run] at held
        exact ⟨ticks w run, held⟩
      | error e w =>
        rw [run] at held
        exact held
    · exact fun _ => rest
  rcases spec_leaves all rfl with ⟨known, knows⟩ | one
  · exact knows.rest
  · exact one

end Runs

def patchyHeartbeat : Heartbeat := { deviceHeartbeat with
  postData := { devicePostData with dev := ⟨[], .unavailable⟩ } }

theorem patchy_run_identified :
    OneIdentity devicePlatform deviceBoot [.post patchyHeartbeat] (CString.lit "d72e64")
      (leaves (newplat devicePlatform deviceBoot [.post patchyHeartbeat] (.start devicePlatform.target))) := by
  have printed : serialPrinted.Prints (CString.lit "d72e64") := Or.inr rfl
  have failed : Popen.unavailable.Prints (CString.lit "d72e64") := Or.inl rfl
  apply one_identity
  · rfl
  · exact printed
  · intro e member
    rw [List.mem_singleton.mp member]
    refine ⟨?_, printed⟩
    have reads : patchyHeartbeat.postData.reads = [serialPrinted, .unavailable, serialPrinted] := rfl
    rw [reads]
    simp [printed, failed]
  · intro e member
    rw [List.mem_singleton.mp member]
    trivial
  · exact fun _ => rfl
  · intro w _
    apply along_always
    intro e member w'
    rw [List.mem_singleton.mp member]
    exact Or.inr (Or.inl rfl)

theorem device_complete : Complete deviceBoot.ctx := by
  intro name member
  simp only [mandatoryOptions, List.mem_cons, List.not_mem_nil, or_false] at member
  rcases member with rfl | rfl | rfl | rfl | rfl | rfl | rfl | rfl | rfl | rfl <;> exact ⟨_, rfl⟩

def unreadBoot : Boot := { deviceBoot with serial := .unavailable }

theorem unread_login_nameless : unreadBoot.serial.Prints (CString.lit "d72e64") ∧
    ¬ OneIdentity devicePlatform unreadBoot [] (CString.lit "d72e64")
      (leaves (newplat devicePlatform unreadBoot [] (.start devicePlatform.target))) := by
  have six : (CString.lit "d72e64").length = 6 := rfl
  let nameless (w : World) : Prop := ∃ password, .mosquittoUsernamePwSet CString.empty password ∈ w.trace
  have sealing : ∃ text, Sealed devicePlatform deviceOpenSSL CString.empty text :=
    short_sealed devicePlatform device_encrypts (Nat.zero_le _)
  obtain ⟨text, buf, len, sealed, string⟩ := sealing
  have told : Steady nameless :=
    ⟨fun _ held => held, fun _ ⟨password, member⟩ => ⟨password, List.mem_append_left _ member⟩⟩
  have runs : Spec (Knows (CString.lit "d72e64") Anywhere false) (main devicePlatform unreadBoot)
      (fun _ => nameless) fun _ => False := by
    have armed : Armed nameless := fun _ _ _ ⟨password, member⟩ => ⟨password, List.mem_append_left _ member⟩
    apply main_spec devicePlatform (knows_steady anywhere_steady).history told.history armed (fun _ held => held)
    · exact fun unloaded => absurd ⟨rfl, rfl⟩ unloaded
    intro _
    apply mqttInit_spec (I := Configured devicePlatform unreadBoot (CString.lit "d72e64") Anywhere)
    · apply readMqttConf_spec devicePlatform (knows_steady anywhere_steady).history
      · exact fun _ knows => ⟨knows.buffer, trivial⟩
      · exact fun _ knows => ⟨knows.buffer, trivial⟩
      · exact fun incomplete => absurd device_complete incomplete
      · intro _ host port topic subTopic head clientId cleanSession qos keepalive retainMsg _
        have works (e : Halt) (w : World) (fails : encrypted devicePlatform unreadBoot.ssl (identity
            (CString.lit "d72e64") unreadBoot.serial.found) = .error e) (_ : Anywhere w) : False := by
          cases sealed.symm.trans fails
        have applied := applyMqttConf_knows six.le (fun _ held => held) (fun _ held => held) (Or.inl rfl) works
          host port topic subTopic head clientId cleanSession qos keepalive retainMsg
        apply spec_post applied
        rintro ret w ⟨rfl, conf⟩
        exact ⟨fun never => absurd never (by decide), fun _ => conf⟩
    · apply startMosquitto_spec (configured_steady anywhere_steady).history told.history
      · exact fun _ conf => ⟨⟨conf.knows.buffer, trivial⟩, conf.name, conf.password⟩
      · exact fun none => absurd none (by decide)
      intro _
      apply usernamePwSet_knows six.le
      · intro w conf none
        obtain ⟨_, same⟩ := conf.password
        rw [none] at same
        cases sealed.symm.trans same
      · exact fun w password _ _ => ⟨password, List.mem_append_right _ List.mem_cons_self⟩
      · intro w buf' e conf some fails
        obtain ⟨_, same⟩ := conf.password
        rw [some] at same
        cases sealed.symm.trans same
        cases string.symm.trans fails
  refine ⟨Or.inl rfl, fun one => ?_⟩
  have started : Knows (CString.lit "d72e64") Anywhere false (.start devicePlatform.target) :=
    ⟨rfl, trivial⟩
  obtain ⟨_, w, run, password, member⟩ := spec_returns runs started
  have ends : newplat devicePlatform unreadBoot [] (.start devicePlatform.target) = .ok () w :=
    bind_ok run
  rw [ends] at one
  obtain ⟨named, -⟩ := one _ member
  cases named

end Newplat
