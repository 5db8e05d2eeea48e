import Newplat.DeviceId
import Newplat.Encrypt

/-! The connection of mqtt.c: its configuration, the callbacks of the network thread and
the publishing of one message. -/
namespace Newplat

open Base

inductive UciOption where
  | string (v : CString)
  | list

inductive UciElement where
  | sectionType (type : CString)
  | option (o : UciOption)
  | other

/-- What `uci_lookup_ptr` returned and left in `ptr`. -/
structure UciLookup where
  ret : Int
  complete : Bool
  last : UciElement

/-- The loaded configuration: package, section and option to what a lookup finds. -/
abbrev UciContext := CString → CString → CString → UciLookup

def ucixGetOption (ctx : UciContext) (p s o : CString) : Option CString :=
  let ptr := ctx p s o
  if ptr.ret ≠ 0 then none
  else if ptr.complete = false then none
  else
    match ptr.last with
    | .sectionType type => some type
    | .option (.string v) => some v
    | .option .list => none
    | .other => none

def strncmpEq (s t : CString) (n : Nat) : Bool := s.bytes.take n = t.bytes.take n

def printString : Option CString → CString
  | some s => s
  | none => CString.lit "(null)"

def paasTopic (deviceId : CString) (topic : Option CString) : CString :=
  (CString.lit "/paas/" ++ getProductKey ++ CString.lit "/" ++ deviceId ++ CString.lit "/" ++
    printString topic).truncate 79

def setCtx (f : MqttContext → MqttContext) : Prog Unit :=
  modify fun w => { w with gMqttCtx := f w.gMqttCtx }

/-- The return value is what no caller reads; `publish` is what `mosquitto_publish` answers. -/
def doTtyMsgPublish (data : CString) (len : Int) (topic : Option CString) (publish : Int) : Prog Int :=
  match topic with
  | none => throw .nullPointer
  | some topic => do
    if strncmpEq topic (CString.lit "/paas/") 6 then
      let w ← get
      if w.gMqttCtx.connectedUav then
        act (.mosquittoPublish topic data len w.gMqttCtx.publishTopicUploadQos
          w.gMqttCtx.publishTopicUploadRetain publish)
        if publish ≠ 0 then
          loge "mqtt send error" []
          return publish
        else return publish
      else
        loge "mosquitto connected uav = %d" [0]
        return -1
    else
      loge "Unsupport mqtt topic" []
      return -1

def subMqttTopic (topic : CString) (ret : Int) : Prog Unit := do
  let w ← get
  act (.mosquittoSubscribe topic w.gMqttCtx.subscribeTopicQos ret)
  if ret ≠ 0 then loge "mqtt subscribe error:%d" [ret]
  else pure ()

/-- A callback of the network thread, with what it met: the one or two runs of the
serial-number command and the answer of `mosquitto_subscribe`. -/
inductive Callback where
  | connect (mosq : Nat) (rc : Int) (first second : Popen) (subscribe : Int)
  | disconnect (mosq : Nat) (rc : Int)

def mqttConnectCallback (mosq : Nat) (rc : Int) (first second : Popen) (subscribe : Int) : Prog Unit := do
  if rc ≠ 0 then throw (.exit 1)
  else
    getDeviceId first
    let w ← get
    if some mosq = w.gMqttCtx.mosqUav then
      act .uavMqttConnected
      setCtx fun c => { c with connectedUav := true }
      let id ← deviceId
      if id.length ≠ 0 then
        getDeviceId second
        let id ← deviceId
        subMqttTopic (paasTopic id w.gMqttCtx.subscribeTopic) subscribe
      else pure ()
    else pure ()

def mqttDisconnectCallback (mosq : Nat) (_rc : Int) : Prog Unit := do
  let w ← get
  if some mosq = w.gMqttCtx.mosqUav then setCtx fun c => { c with connectedUav := false }
  else pure ()

def mqttCallback : Callback → Prog Unit
  | .connect mosq rc first second subscribe => mqttConnectCallback mosq rc first second subscribe
  | .disconnect mosq rc => mqttDisconnectCallback mosq rc

/-- What the start of the program meets: the loading of the configuration and its content,
the serial-number command, OpenSSL, mosquitto, and the answer to the uptime request. -/
structure Boot where
  uciAllocContext : Bool
  uciLoad : Int
  ctx : UciContext
  serial : Popen
  ssl : OpenSSL
  mosquittoNew : Option Nat
  mosquittoLoopStart : Int
  uptime : BusAnswer

def mqttOption (ctx : UciContext) (name : CString) : Option CString :=
  ucixGetOption ctx (CString.lit "newplat") (CString.lit "mqtt") name

/-- One of the mandatory options: without it the reading ends with -1. -/
def mandatory (ctx : UciContext) (name : CString) (message : String) (rest : CString → Prog Int) :
    Prog Int :=
  match mqttOption ctx name with
  | none => do
    loge message []
    return -1
  | some value => rest value

def applyMqttConf (p : Platform) (b : Boot) (host port topic subTopic head : CString)
    (clientId : Option CString) (cleanSession qos keepalive retainMsg : CString) : Prog Int := do
  getDeviceId b.serial
  setCtx fun c => { c with mqttName := some .gDeviceId }
  let w ← get
  let len ← check (strlen w.gDeviceId)
  let (password, _) ← check (aesEcbPkcs5Encrypt b.ssl p.rounds w.gDeviceId
      (toInt32 len) getDeviceKey 16 true)
  setCtx fun c => { c with
    mqttPassword := password
    mqttHost := some host
    mqttPort := atoi port
    publishTopicUpload := some topic
    subscribeTopic := some subTopic
    mqttMessageHeader := some head
    mqttClientId := clientId
    publishTopicUploadQos := p.target.toChar (atoi qos)
    mqttKeepalive := atoi keepalive
    mqttCleanSession := strncmpEq cleanSession (CString.lit "true") 4
    publishTopicUploadRetain := strncmpEq retainMsg (CString.lit "true") 4 }
  return 0

def setSubQos (p : Platform) (ctx : UciContext) : Prog Unit :=
  match mqttOption ctx (CString.lit "sub_qos") with
  | some subQos => setCtx fun c => { c with subscribeTopicQos := p.target.toChar (atoi subQos) }
  | none => pure ()

def setUavMsgCallback (manu : CString) : Prog Unit :=
  if manu = CString.lit "dji" then setCtx fun c => { c with uavMsgCallback := some .mqttUavRecvCallback }
  else setCtx fun c => { c with uavMsgCallback := none }

def readMqttConf (p : Platform) (b : Boot) : Prog Int :=
  mandatory b.ctx (CString.lit "host") "read mqtt host conf err!!!" fun host =>
  mandatory b.ctx (CString.lit "port") "read mqtt port conf err!!!" fun port =>
  mandatory b.ctx (CString.lit "topic") "read mqtt topic conf err!!!" fun topic =>
  mandatory b.ctx (CString.lit "sub_topic") "read mqtt sub_topic conf err!!!" fun subTopic =>
  mandatory b.ctx (CString.lit "header") "read mqtt head conf err!!!" fun head =>
  let clientId := mqttOption b.ctx (CString.lit "client_id")
  mandatory b.ctx (CString.lit "clean_session") "read mqtt clean_session conf err!!!" fun cleanSession =>
  mandatory b.ctx (CString.lit "qos") "read mqtt qos conf err!!!" fun qos =>
  mandatory b.ctx (CString.lit "keepalive") "read mqtt keepalive conf err!!!" fun keepalive =>
  mandatory b.ctx (CString.lit "retain_msg") "read mqtt retain_msg conf err!!!" fun retainMsg => do
  setSubQos p b.ctx
  mandatory b.ctx (CString.lit "uav_manufacture") "read uav_manufacture conf err!!!\n" fun manu => do
  setUavMsgCallback manu
  applyMqttConf p b host port topic subTopic head clientId cleanSession qos keepalive retainMsg

/-- `mosquitto_username_pw_set` copies the strings the two pointers lead to. -/
def usernamePwSet : Prog Unit := do
  let w ← get
  match w.gMqttCtx.mqttName, w.gMqttCtx.mqttPassword with
  | some _, some password => do
    let user ← deviceId
    let password ← check (cstr password)
    act (.mosquittoUsernamePwSet user password)
  | _, _ => pure ()

def mqttInit (p : Platform) (b : Boot) : Prog Int := do
  let ret ← readMqttConf p b
  if ret < 0 then return -1
  else
    setCtx fun c => { c with mosqUav := b.mosquittoNew }
    if b.mosquittoNew = none then
      loge "uav Out of memory." []
      return -1
    else
      usernamePwSet
      let w ← get
      act (.mosquittoConnectAsync w.gMqttCtx.mqttHost w.gMqttCtx.mqttPort w.gMqttCtx.mqttKeepalive)
      if b.mosquittoLoopStart ≠ 0 then
        loge "uav mosquitto loop err!!" []
        return -1
      else return 1

end Newplat
