import Newplat.Mqtt

/-! The timers of json.c: the heartbeat that collects a report and queues it, and the one
that empties the queue. The network thread may run between the steps named here. -/
namespace Newplat

open Base

structure Read where
  before : List Callback
  popen : Popen

def readDeviceId (r : Read) : Prog CString := do
  runAll mqttCallback r.before
  getDeviceId r.popen
  deviceId

structure Alloc where
  node : Bool
  msg : Bool
  topic : Bool

structure MsgAdd where
  serial : Popen
  alloc : Alloc

def queuedOf (trace : List Action) : List MsgQueue :=
  trace.filterMap fun
    | .queued m _ => some m
    | _ => none

def listAddTail (msg sendTopic : Option CString) (report : Option CJson) : Prog Unit :=
  modify fun w =>
    let m : MsgQueue := ⟨msg, sendTopic, (queuedOf w.trace).length⟩
    { w with gMsgList := w.gMsgList ++ [m], trace := w.trace ++ [.queued m report] }

/-- `data` is the object behind the pointer, when it is not NULL; `report` is history, the
tree it was printed from. -/
def cjsonMsgAdd (data : Option Bytes) (report : Option CJson) (i : MsgAdd) : Prog Unit := do
  let id ← deviceId
  if id.length = 0 then pure ()
  else
    getDeviceId i.serial
    let id ← deviceId
    let w ← get
    act (.topicFormatted w.gMqttCtx.publishTopicUpload)
    let topic := paasTopic id w.gMqttCtx.publishTopicUpload
    if i.alloc.node = false then loge "malloc error" []
    else
      match data with
      | none => throw .nullPointer
      | some data => do
        let msg ← check (cstr data)
        listAddTail (if i.alloc.msg then some msg else none) (if i.alloc.topic then some topic else none)
          report

def uavValue (flyTime : Int) (uav : UavData) : CJson := .object
  [("type", .string (CString.lit "ubox")),
    ("flightTime", .number flyTime),
    ("coordinate", .number uav.coordinate),
    ("longitude", .number uav.lng),
    ("latitude", .number uav.lat),
    ("height", .number uav.height),
    ("altitude", .number uav.alt),
    ("gs", .number uav.spd),
    ("course", .number uav.course)]

def reportFlyTime (w : World) : Int :=
  if w.gUavData.flightTime ≠ 0 then w.gUavData.flightTime
  else if w.gUavData.lng ≠ 0 then w.gFlyTime
  else 0

def uavObject (id : CString) (value : CJson) (time : Int) : CJson := .object
  [("type", .string (CString.lit "property")),
    ("name", .string (CString.lit "uav")),
    ("deviceCode", .string id),
    ("value", value),
    ("time", .number time)]

/-- The test of `g_uav_data.time` is the test of an array's address. -/
def cjsonCreateUavData (p : Platform) (r : Read) : Prog CJson := do
  let w ← get
  let time ← check (cstr w.gUavData.time)
  let id ← readDeviceId r
  return uavObject id (uavValue (reportFlyTime w) w.gUavData) (p.target.atol time)

def netMode (net : Int) : List (String × CJson) :=
  if net = 4 then [("netMode", .string (CString.lit "4G"))]
  else if net = 5 then [("netMode", .string (CString.lit "5G"))]
  else []

def devValue (net : NetInfo) : CJson := .object
  ([("type", .string (CString.lit "ubox")),
    ("rsrp", .number net.rsrp),
    ("snr", .number net.snr),
    ("rsrq", .number net.rsrq),
    ("pci", .number net.pci),
    ("freq", .number net.freq)] ++ netMode net.net)

def devObject (id : CString) (value : CJson) (time : Int) : CJson := .object
  [("type", .string (CString.lit "property")),
    ("name", .string (CString.lit "terminal_network")),
    ("deviceCode", .string id),
    ("value", value),
    ("time", .number time)]

def cjsonCreateDevData (p : Platform) (r : Read) (clock : Timeval) : Prog CJson := do
  let id ← readDeviceId r
  let w ← get
  return devObject id (devValue w.gNetInfo) (timestamp p.target clock)

/-- What `cjson_creat_post_data` meets: the new UUID, the runs of the serial-number command
for the three identity places, the clock, OpenSSL, and what the queueing meets. -/
structure PostData where
  uuid : CString
  root : Read
  dev : Read
  uav : Read
  clock : Timeval
  ssl : OpenSSL
  beforeAdd : List Callback
  add : MsgAdd

def cjsonCreateParamsData (p : Platform) (i : PostData) : Prog CJson := do
  let dev ← cjsonCreateDevData p i.dev i.clock
  let uav ← cjsonCreateUavData p i.uav
  return .array [dev, uav]

def reportRoot (uuid id : CString) (params : CJson) : CJson := .object
  [("id", .string uuid),
    ("deviceCode", .string id),
    ("version", .string (CString.lit "1.0")),
    ("params", params)]

def cjsonCreatPostData (p : Platform) (i : PostData) : Prog Unit := do
  act .cjsonCreatPostData
  let id ← readDeviceId i.root
  let params ← cjsonCreateParamsData p i
  let root := reportRoot i.uuid id params
  let out := p.cJSONPrint root
  let (outBase64, _) ← check
    (aesEcbPkcs5Encrypt i.ssl p.rounds out.buffer (toInt32 out.length) getDeviceKey 16 true)
  runAll mqttCallback i.beforeAdd
  cjsonMsgAdd outBase64 (some root) i.add

def setNet (f : NetInfo → NetInfo) : Prog Unit := modify fun w => { w with gNetInfo := f w.gNetInfo }

def setUav (f : UavData → UavData) : Prog Unit := modify fun w => { w with gUavData := f w.gUavData }

/-- One call of `ubus_get_string`; `fresh` fills what it allocates. -/
structure StringReply where
  answer : BusAnswer
  fresh : Nat → UInt8

def getString (p : Platform) (r : StringReply) (param : CString) : Prog (Option CString) := do
  let w ← get
  let (s, st) ← check (ubusGetString p.target r.fresh w.ubusString r.answer param)
  modify fun w => { w with ubusString := st }
  return s

/-- `atof(s) * k`, which reads through `s`. -/
def atofTimes (p : Platform) (s : Option CString) (k : Int) : Prog Int :=
  match s with
  | none => throw .nullPointer
  | some s => return p.atofTimes s k

structure Heartbeat where
  pci : BusAnswer
  freq : BusAnswer
  rsrp : BusAnswer
  rsrq : BusAnswer
  snr : BusAnswer
  net : BusAnswer
  netStyle : StringReply
  coordinate : BusAnswer
  flightTime : BusAnswer
  lat : StringReply
  lng : StringReply
  alt : BusAnswer
  height : StringReply
  time : StringReply
  cog : BusAnswer
  speed : StringReply
  postData : PostData

def readModeminfo (p : Platform) (h : Heartbeat) : Prog Unit := do
  setNet fun n => { n with pci := ubusGetInt h.pci (CString.lit "pci") 0 }
  setNet fun n => { n with freq := toUInt32 (ubusGetInt h.freq (CString.lit "freq") 0) }
  setNet fun n => { n with rsrp := ubusGetInt h.rsrp (CString.lit "rsrp") 0 }
  setNet fun n => { n with rsrq := ubusGetInt h.rsrq (CString.lit "rsrq") 0 }
  setNet fun n => { n with snr := ubusGetInt h.snr (CString.lit "snr") 0 }
  setNet fun n => { n with net := ubusGetInt h.net (CString.lit "net") 0 }
  let netStyle ← getString p h.netStyle (CString.lit "net_style")
  setNet fun n => { n with netStr := netStyle.map fun _ => .ubusRet }

/-- `memcpy` into the array of 16 bytes, when the pointer is not NULL. -/
def copyTime (uavtime : Option CString) : Prog Unit :=
  match uavtime with
  | some uavtime => do
    let w ← get
    let time ← check (memcpy w.gUavData.time 0 uavtime.buffer 0 uavtime.length)
    setUav fun u => { u with time := time }
  | none => pure ()

def readUavinfo (p : Platform) (h : Heartbeat) : Prog Unit := do
  setUav fun u => { u with coordinate := toUChar (ubusGetInt h.coordinate (CString.lit "coordinate") 0) }
  setUav fun u => { u with flightTime := ubusGetInt h.flightTime (CString.lit "flight_time") 0 }
  let lat ← getString p h.lat (CString.lit "lat")
  let lat ← atofTimes p lat 10000000
  setUav fun u => { u with lat := toInt32 lat }
  let lng ← getString p h.lng (CString.lit "lng")
  let lng ← atofTimes p lng 10000000
  setUav fun u => { u with lng := toInt32 lng }
  setUav fun u => { u with alt := ubusGetInt h.alt (CString.lit "alt") 0 }
  let height ← getString p h.height (CString.lit "height")
  let height ← atofTimes p height 10
  setUav fun u => { u with height := toInt32 height }
  let uavtime ← getString p h.time (CString.lit "time")
  copyTime uavtime
  setUav fun u => { u with course := toInt32 (ubusGetInt h.cog (CString.lit "cog") 0 * 10) }
  let spd ← getString p h.speed (CString.lit "speed")
  let spd ← atofTimes p spd 10
  setUav fun u => { u with spd := toShort spd }

def mqttPostRun (p : Platform) (h : Heartbeat) : Prog Unit := do
  setUav fun _ => .zero
  modify fun w => { w with gFlyTime := toInt32 (w.gFlyTime + 1) }
  readModeminfo p h
  readUavinfo p h
  cjsonCreatPostData p h.postData
  act (.uloopTimeoutSet .mqttPostTimeout 1000)

/-- A message's turn in a drain: the callbacks before it, and what publishing answers. -/
structure Turn where
  before : List Callback
  publish : Int

/-- `list_del` unlinks the node itself, wherever it stands. -/
def listDel (m : MsgQueue) : Prog Unit :=
  modify fun w => { w with gMsgList := w.gMsgList.eraseP fun n => n.serial = m.serial }

def sendMsg (publish : Int) (m : MsgQueue) : Prog Unit := do
  let w ← get
  act (.turn m w.gMqttCtx.connectedUav)
  match m.msg with
  | some msg => do
    let _ ← doTtyMsgPublish msg (toInt32 msg.length) m.sendTopic publish
    listDel m
  | none => listDel m

def sendTurn (t : Turn) (m : MsgQueue) : Prog Unit := do
  runAll mqttCallback t.before
  sendMsg t.publish m

def sendLoop (turns : Nat → Turn) (k : Nat) : List MsgQueue → Prog Unit
  | [] => pure ()
  | m :: rest => do
    sendTurn (turns k) m
    sendLoop turns (k + 1) rest

def mqttSendRun (turns : Nat → Turn) : Prog Unit := do
  let w ← get
  sendLoop turns 0 w.gMsgList
  act (.uloopTimeoutSet .mqttRunTimeout 10)

def mqttBeatInit (uptime : BusAnswer) : Prog Int := do
  modify fun w => { w with gFlyTime := ubusGetInt uptime (CString.lit "uptime") 0 }
  act (.uloopTimeoutSet .mqttPostTimeout 1000)
  act (.uloopTimeoutSet .mqttRunTimeout 1000)
  return 0

end Newplat
