import Newplat.Telemetry

/-! The start of the program, exactly: what `main` does for every configuration, up to the loop. -/
namespace Newplat

open Base

/-- The options that must be there, in the order they are read, and the line that tells of each. -/
def complaints : List (CString × String) :=
  [(CString.lit "host", "read mqtt host conf err!!!"),
    (CString.lit "port", "read mqtt port conf err!!!"),
    (CString.lit "topic", "read mqtt topic conf err!!!"),
    (CString.lit "sub_topic", "read mqtt sub_topic conf err!!!"),
    (CString.lit "header", "read mqtt head conf err!!!"),
    (CString.lit "clean_session", "read mqtt clean_session conf err!!!"),
    (CString.lit "qos", "read mqtt qos conf err!!!"),
    (CString.lit "keepalive", "read mqtt keepalive conf err!!!"),
    (CString.lit "retain_msg", "read mqtt retain_msg conf err!!!"),
    (CString.lit "uav_manufacture", "read uav_manufacture conf err!!!\n")]

def missing (ctx : UciContext) (c : CString × String) : Bool := (mqttOption ctx c.1).isNone

/-- The first of them that is missing. -/
def complaint (ctx : UciContext) : Option (CString × String) := complaints.find? (missing ctx)

def setting (ctx : UciContext) (name : CString) : CString := (mqttOption ctx name).getD CString.empty

def mandatories (ctx : UciContext) : List (CString × String) → (List CString → Prog Int) → Prog Int
  | [], rest => rest []
  | c :: cs, rest => mandatory ctx c.1 c.2 fun value => mandatories ctx cs fun values => rest (value :: values)

section Reading

variable {ctx : UciContext} {p : Platform} {b : Boot}

theorem complaint_none : complaint ctx = none ↔ Complete ctx := by
  have names : mandatoryOptions = complaints.map Prod.fst := rfl
  rw [complaint, List.find?_eq_none, Complete, names, List.forall_mem_map]
  simp [missing, Option.ne_none_iff_exists']

theorem setting_found (complete : Complete ctx) {name : CString} (member : name ∈ mandatoryOptions) :
    mqttOption ctx name = some (setting ctx name) := by
  obtain ⟨value, found⟩ := complete name member
  rw [setting, found]
  rfl

/-- The reading stops at the first that is missing, and otherwise goes on with all the values. -/
theorem mandatories_find (cs : List (CString × String)) (rest : List CString → Prog Int) :
    mandatories ctx cs rest = match cs.find? (missing ctx) with
      | some c => loge c.2 [] >>= fun _ => pure (-1)
      | none => rest (cs.filterMap fun c => mqttOption ctx c.1) := by
  induction cs generalizing rest with
  | nil => rfl
  | cons c cs ih =>
    cases option : mqttOption ctx c.1 with
    | none => simp [mandatories, mandatory, missing, option]
    | some value => simp [mandatories, mandatory, missing, option, ih]

theorem values_found {cs : List (CString × String)} (found : cs.find? (missing ctx) = none) :
    cs.filterMap (fun c => mqttOption ctx c.1) = cs.map fun c => setting ctx c.1 := by
  rw [← List.filterMap_eq_map]
  apply List.filterMap_congr
  intro c member
  have there := List.find?_eq_none.mp found c member
  cases option : mqttOption ctx c.1 with
  | none => simp [missing, option] at there
  | some value => simp [setting, option]

theorem readMqttConf_mandatories (p : Platform) (b : Boot) : readMqttConf p b =
    mandatories b.ctx complaints.dropLast fun
      | [host, port, topic, subTopic, head, cleanSession, qos, keepalive, retainMsg] =>
        readMqttConfRest p b host port topic subTopic head (mqttOption b.ctx (CString.lit "client_id"))
          cleanSession qos keepalive retainMsg
      | _ => pure (-1) := rfl

theorem readMqttConf_complete (complete : Complete b.ctx) : readMqttConf p b = (do
    setSubQos p b.ctx
    setUavMsgCallback (setting b.ctx (CString.lit "uav_manufacture"))
    applyMqttConf p b (setting b.ctx (CString.lit "host")) (setting b.ctx (CString.lit "port"))
      (setting b.ctx (CString.lit "topic")) (setting b.ctx (CString.lit "sub_topic"))
      (setting b.ctx (CString.lit "header")) (mqttOption b.ctx (CString.lit "client_id"))
      (setting b.ctx (CString.lit "clean_session")) (setting b.ctx (CString.lit "qos"))
      (setting b.ctx (CString.lit "keepalive")) (setting b.ctx (CString.lit "retain_msg"))) := by
  have none : complaints.dropLast.find? (missing b.ctx) = none := by
    have all := List.find?_eq_none.mp (complaint_none.mpr complete)
    exact List.find?_eq_none.mpr fun c member => all c (List.mem_of_mem_dropLast member)
  have manu : mqttOption b.ctx (CString.lit "uav_manufacture") =
      some (setting b.ctx (CString.lit "uav_manufacture")) := setting_found complete (by decide)
  rw [readMqttConf_mandatories, mandatories_find, none, values_found none]
  simp only [complaints, List.dropLast, List.map_cons, List.map_nil, readMqttConfRest, mandatory, manu]

/-- Without one of them nothing is set but the quality of service of subscriptions. -/
theorem readMqttConf_complains {c : CString × String} (first : complaint b.ctx = some c) (w : World) :
    ∃ q, readMqttConf p b w = .ok (-1) { w with
      gMqttCtx := { w.gMqttCtx with subscribeTopicQos := q }
      trace := w.trace ++ [.loge c.2 []] } := by
  have whole : complaints = complaints.dropLast ++
    [(CString.lit "uav_manufacture", "read uav_manufacture conf err!!!\n")] := rfl
  rw [complaint, whole, List.find?_append] at first
  rw [readMqttConf_mandatories, mandatories_find]
  cases early : complaints.dropLast.find? (missing b.ctx) with
  | some d =>
    rw [early] at first
    cases first
    exact ⟨_, rfl⟩
  | none =>
    rw [early] at first
    have last := List.find?_some first
    have named := List.mem_singleton.mp (List.mem_of_find?_eq_some first)
    subst named
    have manu : mqttOption b.ctx (CString.lit "uav_manufacture") = none := by simpa [missing] using last
    rw [values_found early]
    cases subQos : mqttOption b.ctx (CString.lit "sub_qos") with
    | none =>
      refine ⟨w.gMqttCtx.subscribeTopicQos, ?_⟩
      simp [complaints, readMqttConfRest, setSubQos, mandatory, manu, subQos, loge, -bind_pure_comp]
    | some q =>
      refine ⟨p.target.toChar (atoi q), ?_⟩
      simp [complaints, readMqttConfRest, setSubQos, mandatory, manu, subQos, loge, setCtx, -bind_pure_comp]

end Reading

/-- What the serial-number command told the device at its first run. -/
def loginName (b : Boot) : CString := b.serial.reply.getD CString.empty

/-- The configuration in force, with the sealed password. -/
def configured (p : Platform) (b : Boot) (password : Option Bytes) (c : MqttContext) : MqttContext where
  connectedUav := c.connectedUav
  mosqUav := c.mosqUav
  mqttName := some .gDeviceId
  mqttPassword := password
  mqttHost := some (setting b.ctx (CString.lit "host"))
  mqttPort := atoi (setting b.ctx (CString.lit "port"))
  mqttKeepalive := atoi (setting b.ctx (CString.lit "keepalive"))
  mqttClientId := mqttOption b.ctx (CString.lit "client_id")
  mqttCleanSession := strncmpEq (setting b.ctx (CString.lit "clean_session")) (CString.lit "true") 4
  mqttMessageHeader := some (setting b.ctx (CString.lit "header"))
  uavMsgCallback :=
    if setting b.ctx (CString.lit "uav_manufacture") = CString.lit "dji" then some .mqttUavRecvCallback else none
  publishTopicUpload := some (setting b.ctx (CString.lit "topic"))
  publishTopicUploadQos := p.target.toChar (atoi (setting b.ctx (CString.lit "qos")))
  publishTopicUploadRetain := strncmpEq (setting b.ctx (CString.lit "retain_msg")) (CString.lit "true") 4
  subscribeTopic := some (setting b.ctx (CString.lit "sub_topic"))
  subscribeTopicQos := match mqttOption b.ctx (CString.lit "sub_qos") with
    | some subQos => p.target.toChar (atoi subQos)
    | none => c.subscribeTopicQos

def loginBuffer (b : Boot) : Bytes := (loginName b).bytes ++ List.replicate (7 - (loginName b).length) 0

section Connecting

variable {p : Platform} {b : Boot} {aes : Bytes → Equiv.Perm AesBlock}

theorem getDeviceId_first (fits : b.serial.FitsId) {w : World} (cleared : w.gDeviceId = List.replicate 7 0) :
    getDeviceId b.serial w = .ok () { w with gDeviceId := loginBuffer b } := by
  cases reply : b.serial.reply with
  | none =>
    have same : loginBuffer b = w.gDeviceId := by rw [cleared, loginBuffer, loginName, reply]; rfl
    rw [getDeviceId_none reply, same]
  | some s =>
    have short : s.bytes.length ≤ (List.replicate 7 (0 : UInt8)).length := by
      rw [List.length_replicate]
      exact (fits s reply).trans (by decide)
    have written : write w.gDeviceId 0 s.bytes = .ok (loginBuffer b) := by
      rw [cleared, write_start short, loginBuffer, loginName, reply, List.drop_replicate]
      rfl
    exact getDeviceId_some reply written

theorem loginName_short (fits : b.serial.FitsId) : (loginName b).length ≤ 6 := by
  rw [loginName]
  cases reply : b.serial.reply with
  | none => decide
  | some s => exact fits s reply

theorem loginBuffer_terminated (fits : b.serial.FitsId) :
    loginBuffer b = (loginName b).bytes ++ 0 :: List.replicate (6 - (loginName b).length) 0 := by
  have short := loginName_short fits
  have room : 7 - (loginName b).length = (6 - (loginName b).length) + 1 := by omega
  rw [loginBuffer, room, List.replicate_succ]

theorem password_sealed (fits : b.serial.FitsId) (doc : Documented b.ssl aes) (rounds : Nat) :
    ∃ rest len, aesEcbPkcs5Encrypt b.ssl rounds (loginBuffer b) (toInt32 (loginName b).length) getDeviceKey 16 true =
      .ok (some ((Base64.text (cipherText aes reportKey (loginName b).bytes)).bytes ++ 0 :: rest), len) := by
  have short : (loginName b).bytes.length ≤ 6 := loginName_short fits
  have length : toInt32 (loginName b).length = (loginName b).bytes.length :=
    toInt32_fits ⟨by omega, by simp only [CString.length]; omega⟩
  have small : paddedSize (loginName b).bytes.length * 2 ≤ 2147483647 := by
    unfold paddedSize
    omega
  obtain ⟨rest, sealed⟩ := encrypt_text doc rounds (loginName b).bytes 16 deviceKey_long small
  refine ⟨rest, paddedSize (loginName b).bytes.length, ?_⟩
  rw [length, loginBuffer, encrypt_front, sealed]
  rfl

/-- A complete configuration is read and set, with the identity as the name and its text sealed as the password. -/
theorem readMqttConf_sets (complete : Complete b.ctx) (fits : b.serial.FitsId) (doc : Documented b.ssl aes) {w : World}
    (cleared : w.gDeviceId = List.replicate 7 0) :
    ∃ rest, readMqttConf p b w = .ok 0 { w with
      gDeviceId := loginBuffer b
      gMqttCtx := configured p b
        (some ((Base64.text (cipherText aes reportKey (loginName b).bytes)).bytes ++ 0 :: rest)) w.gMqttCtx } := by
  obtain ⟨rest, len, sealed⟩ := password_sealed fits doc p.rounds
  have measured : strlen (loginBuffer b) = .ok (loginName b).length := by
    rw [loginBuffer_terminated fits, strlen_terminated]
  refine ⟨rest, ?_⟩
  have quality : setSubQos p b.ctx w = .ok () { w with gMqttCtx := { w.gMqttCtx with
      subscribeTopicQos := match mqttOption b.ctx (CString.lit "sub_qos") with
        | some subQos => p.target.toChar (atoi subQos)
        | none => w.gMqttCtx.subscribeTopicQos } } := by
    unfold setSubQos
    cases mqttOption b.ctx (CString.lit "sub_qos") <;> rfl
  have callback (manu : CString) (w : World) : setUavMsgCallback manu w = .ok () { w with gMqttCtx := { w.gMqttCtx with
      uavMsgCallback := if manu = CString.lit "dji" then some .mqttUavRecvCallback else none } } := by
    unfold setUavMsgCallback
    split <;> rfl
  have started (c : MqttContext) : getDeviceId b.serial { w with gMqttCtx := c } =
      .ok () { w with gMqttCtx := c, gDeviceId := loginBuffer b } := getDeviceId_first fits cleared
  rw [readMqttConf_complete complete, bind_ok quality, bind_ok (callback _ _), applyMqttConf, bind_ok (started _)]
  simp only [setCtx, modify_bind_run, get_bind_run, measured, sealed, check_ok_bind]
  rfl

/-- What is done with a complete configuration. -/
def connectActions (aes : Bytes → Equiv.Perm AesBlock) (b : Boot) : List Action :=
  match b.mosquittoNew with
  | none => [.loge "uav Out of memory." []]
  | some _ =>
    [.mosquittoUsernamePwSet (loginName b) (Base64.text (cipherText aes reportKey (loginName b).bytes)),
      .mosquittoConnectAsync (some (setting b.ctx (CString.lit "host")))
        (atoi (setting b.ctx (CString.lit "port"))) (atoi (setting b.ctx (CString.lit "keepalive")))] ++
      if b.mosquittoLoopStart ≠ 0 then [.loge "uav mosquitto loop err!!" []] else []

def initActions (aes : Bytes → Equiv.Perm AesBlock) (b : Boot) : List Action :=
  match complaint b.ctx with
  | some c => [.loge c.2 []]
  | none => connectActions aes b

def bootActions (aes : Bytes → Equiv.Perm AesBlock) (b : Boot) : List Action :=
  if b.uciAllocContext = false then [.loge "Uci init error!!!\n" [], .loge "init uci error!" []]
  else if b.uciLoad ≠ 0 then
    [.loge "Failed to load /etc/config/newplat !!!\n" [], .loge "init uci error!" []]
  else initActions aes b ++
    [.uloopTimeoutSet .mqttPostTimeout 1000, .uloopTimeoutSet .mqttRunTimeout 1000, .uloopRun]

theorem startMosquitto_history (p : Platform) (fits : b.serial.FitsId) (c : MqttContext) (rest : Bytes) {w : World}
    (named : w.gDeviceId = loginBuffer b) (set : w.gMqttCtx = configured p b
      (some ((Base64.text (cipherText aes reportKey (loginName b).bytes)).bytes ++ 0 :: rest)) c) :
    ∃ ret w', startMosquitto b w = .ok ret w' ∧ w'.trace = w.trace ++ connectActions aes b := by
  have user : cstr w.gDeviceId = .ok (loginName b) := by
    rw [named, loginBuffer_terminated fits, cstr_terminated]
  have password := cstr_terminated (Base64.text (cipherText aes reportKey (loginName b).bytes)) rest
  have starts : Spec (fun w' => w' = w) (startMosquitto b)
      (fun _ w' => w'.trace = w.trace ++ connectActions aes b) fun _ => False := by
    rintro _ rfl
    cases made : b.mosquittoNew with
    | none => simp [startMosquitto, connectActions, setCtx, made, loge, -bind_pure_comp]
    | some mosq =>
      by_cases started : b.mosquittoLoopStart = 0
      · simp [startMosquitto, connectActions, usernamePwSet, deviceId, setCtx, made, set, configured, user, password,
          started, -bind_pure_comp]
      · simp [startMosquitto, connectActions, usernamePwSet, deviceId, setCtx, made, set, configured, user, password,
          started, loge, -bind_pure_comp]
  exact spec_returns starts rfl

/-- The first missing option is told of and nothing is begun; with all of them there the connection is. -/
theorem mqttInit_history (fits : b.serial.FitsId) (doc : Documented b.ssl aes) {w : World}
    (cleared : w.gDeviceId = List.replicate 7 0) :
    ∃ ret w', mqttInit p b w = .ok ret w' ∧ w'.trace = w.trace ++ initActions aes b := by
  rw [mqttInit_eq, initActions]
  cases first : complaint b.ctx with
  | some c =>
    obtain ⟨q, complains⟩ := readMqttConf_complains (p := p) first w
    rw [bind_ok complains]
    exact ⟨-1, _, rfl, rfl⟩
  | none =>
    obtain ⟨rest, sets⟩ := readMqttConf_sets (p := p) (complaint_none.mp first) fits doc cleared
    rw [bind_ok sets]
    exact startMosquitto_history p fits w.gMqttCtx rest rfl rfl

/-- What `mqtt_init` returns is not asked for: the timers are set and the loop is entered. -/
theorem main_returns (loaded : b.Loaded) {ret : Int} {w : World} (init : mqttInit p b (.start p.target) = .ok ret w) :
    ∃ w', main p b (.start p.target) = .ok () w' ∧ w'.trace =
      w.trace ++ [.uloopTimeoutSet .mqttPostTimeout 1000, .uloopTimeoutSet .mqttRunTimeout 1000, .uloopRun] := by
  obtain ⟨context, load⟩ := loaded
  refine ⟨{ w with gFlyTime := ubusGetInt b.uptime (CString.lit "uptime") 0, trace := w.trace ++
    [.uloopTimeoutSet .mqttPostTimeout 1000, .uloopTimeoutSet .mqttRunTimeout 1000, .uloopRun] }, ?_, rfl⟩
  simp [main, confUciInit, context, load, bind_ok init, mqttBeatInit, act]

/-- With the configuration loaded the start goes through, whatever the file says. -/
theorem main_loaded (p : Platform) (fits : b.serial.FitsId) (doc : Documented b.ssl aes) (loaded : b.Loaded) :
    ∃ w, w.trace = bootActions aes b ∧ main p b (.start p.target) = .ok () w := by
  obtain ⟨ret, w, init, trace⟩ := mqttInit_history (p := p) (w := .start p.target) fits doc rfl
  obtain ⟨w', run, added⟩ := main_returns loaded init
  refine ⟨w', ?_, run⟩
  rw [added, trace, bootActions, loaded.1, loaded.2]
  rfl

/-- An option that is missing is told of, and then the program runs on without a client. -/
theorem main_incomplete (p : Platform) (loaded : b.Loaded) (incomplete : ¬ Complete b.ctx) :
    ∃ c w, complaint b.ctx = some c ∧ main p b (.start p.target) = .ok () w ∧ w.trace = [.loge c.2 [],
      .uloopTimeoutSet .mqttPostTimeout 1000, .uloopTimeoutSet .mqttRunTimeout 1000, .uloopRun] := by
  obtain ⟨c, first⟩ : ∃ c, complaint b.ctx = some c := by
    rw [← Option.isSome_iff_exists, Option.isSome_iff_ne_none]
    exact fun none => incomplete (complaint_none.mp none)
  obtain ⟨q, complains⟩ := readMqttConf_complains (p := p) first (.start p.target)
  have init : mqttInit p b (.start p.target) = .ok (-1) { World.start p.target with
      gMqttCtx := { (World.start p.target).gMqttCtx with subscribeTopicQos := q }
      trace := (World.start p.target).trace ++ [.loge c.2 []] } := by
    rw [mqttInit_eq, bind_ok complains]
    rfl
  obtain ⟨w, run, added⟩ := main_returns loaded init
  exact ⟨c, w, first, run, added⟩

theorem main_unloaded (aes : Bytes → Equiv.Perm AesBlock) (p : Platform) (unloaded : ¬ b.Loaded) :
    ∃ w, w.trace = bootActions aes b ∧ main p b (.start p.target) = .error (.exit 1) w := by
  by_cases context : b.uciAllocContext = false
  · refine ⟨{ World.start p.target with trace := [.loge "Uci init error!!!\n" [], .loge "init uci error!" []] }, ?_, ?_⟩
    · simp [bootActions, context]
    · simp [main, confUciInit, context, loge, -bind_pure_comp]
      rfl
  · have load : b.uciLoad ≠ 0 := fun load => unloaded ⟨by simpa using context, load⟩
    refine ⟨{ World.start p.target with trace :=
      [.loge "Failed to load /etc/config/newplat !!!\n" [], .loge "init uci error!" []] }, ?_, ?_⟩
    · simp [bootActions, context, load]
    · simp [main, confUciInit, context, load, loge, -bind_pure_comp]
      rfl

/-- The whole start, for every configuration: what is logged, what is asked of mosquitto with which
values, and that only a configuration that could not be loaded ends the program. -/
theorem main_history (aes : Bytes → Equiv.Perm AesBlock) (p : Platform) (b : Boot) (fits : b.serial.FitsId)
    (doc : Documented b.ssl aes) :
    ∃ w, w.trace = bootActions aes b ∧ (b.Loaded ∧ main p b (.start p.target) = .ok () w ∨
      ¬ b.Loaded ∧ main p b (.start p.target) = .error (.exit 1) w) := by
  by_cases loaded : b.Loaded
  · obtain ⟨w, trace, returns⟩ := main_loaded p fits doc loaded
    exact ⟨w, trace, Or.inl ⟨loaded, returns⟩⟩
  · obtain ⟨w, trace, exits⟩ := main_unloaded aes p loaded
    exact ⟨w, trace, Or.inr ⟨loaded, exits⟩⟩

end Connecting

/-- The device as it is installed, with OpenSSL as documented. -/
theorem sealedBoot_history : ∃ w, w.trace = bootActions sampleAes sealedBoot ∧
    (sealedBoot.Loaded ∧ main devicePlatform sealedBoot (.start devicePlatform.target) = .ok () w ∨
      ¬ sealedBoot.Loaded ∧ main devicePlatform sealedBoot (.start devicePlatform.target) = .error (.exit 1) w) :=
  main_history sampleAes devicePlatform sealedBoot serialPrinted_fits sample_documented

/-- Without a port and a keepalive, the port is complained of. -/
example : complaint (configOf (deviceOptions.filter fun option =>
    option.1 ≠ CString.lit "port" ∧ option.1 ≠ CString.lit "keepalive")) =
    some (CString.lit "port", "read mqtt port conf err!!!") := by decide

end Newplat
