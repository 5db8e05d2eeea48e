import Newplat.Base.Heap
import Newplat.Main

/-! The replies of the bus as they lie in memory: the copies serv_ubus.c makes of a reply and of
one attribute of it, the pointers it keeps of them, and what it frees. -/
namespace Newplat.BlobMemory

open Base

/-- A block holds the attributes of one message, or one attribute. -/
structure Machine where
  world : World
  blobs : Heap BlobAttr

abbrev BlobProg := EStateM Halt Machine

def onWorld {α : Type} (m : Prog α) : BlobProg α := fun s =>
  match m s.world with
  | .ok a w => .ok a { s with world := w }
  | .error e w => .error e { s with world := w }

def blobCheck {α : Type} (c : Checked α) : BlobProg α :=
  match c with
  | .ok a => pure a
  | .error e => throw e

def blobMemdup (cells : List BlobAttr) (works : Bool) : BlobProg (Option Nat) := do
  if works then
    let s ← get
    let (q, blobs) := s.blobs.alloc cells
    modify fun s => { s with blobs := blobs }
    return some q
  else return none

/-- `free` of the null pointer does nothing. -/
def freeBlob : Option Nat → BlobProg Unit
  | some q => do
    let s ← get
    let blobs ← blobCheck (s.blobs.free q)
    modify fun s => { s with blobs := blobs }
  | none => pure ()

def loadBlob (q : Nat) : BlobProg (List BlobAttr) := do
  let s ← get
  match s.blobs.block q with
  | some attrs => return attrs
  | none => throw .outOfBounds

def loadAttr (q : Nat) : BlobProg BlobAttr := do
  let s ← get
  blobCheck (s.blobs.load q 0)

/-- A message of a reply, and whether there is memory for its copy. -/
structure Part where
  attrs : List BlobAttr
  works : Bool

/-- What a call meets. The service may answer in any number of messages; `copies` is whether
there is memory for the copy of the attribute. -/
structure BusCall where
  connected : Bool
  lookup : Int
  invoke : Int
  parts : List Part
  copies : Bool

/-- The pointer `priv` leads to is overwritten, whatever it held. -/
def recvCallReply (priv : Option (Option Nat)) (msg : Part) : BlobProg (Option (Option Nat)) :=
  match priv with
  | some _ => do
    let ret ← blobMemdup msg.attrs msg.works
    return some ret
  | none => return none

def ubusCall (c : BusCall) (ret : Option (Option Nat)) : BlobProg (Int × Option (Option Nat)) := do
  if c.connected = false then return (-1, ret)
  else if c.lookup ≠ 0 then return (-1, ret)
  else
    let ret ← c.parts.foldlM recvCallReply ret
    return (c.invoke, ret)

/-- The copy of the first attribute of that name in a reply. -/
def findOption (c : BusCall) (param : CString) (ret : Int) : Option Nat → BlobProg (Option Nat)
  | some result => do
    if ret ≠ 0 then return none
    else
      let attrs ← loadBlob result
      match attrs.find? fun cur => param = cur.name with
      | some cur => blobMemdup [cur] c.copies
      | none => return none
  | none => return none

def ubusGetOption (c : BusCall) (param : CString) : BlobProg (Option Nat) := do
  let (ret, result) ← ubusCall c (some none)
  let option ← findOption c param ret result.join
  freeBlob result.join
  return option

def intValue (dflt : Int) : BlobValue → Int
  | .int8 bits => bits.toNat
  | .int16 bits => bits.toNat
  | .int32 bits => bits.toInt
  | .int64 bits => (bits.setWidth 32).toInt
  | _ => dflt

def ubusGetInt (c : BusCall) (param : CString) (dflt : Int) : BlobProg Int := do
  let result ← ubusGetOption c param
  match result with
  | some q => do
    let attr ← loadAttr q
    freeBlob result
    return intValue dflt attr.value
  | none => return dflt

structure StringBusCall where
  call : BusCall
  fresh : Nat → UInt8

/-- The text of an attribute goes into the static buffer. -/
def storeResult (t : Target) (fresh : Nat → UInt8) (ret : Bytes) (size : Int) : Option Nat → BlobProg (Bytes × Int)
  | some q => do
    let attr ← loadAttr q
    match attr.value with
    | .string value => blobCheck (storeString t fresh ret size value)
    | _ => return (ret, size)
  | none => return (ret, size)

def ubusGetString (p : Platform) (c : StringBusCall) (param : CString) : BlobProg (Option CString) := do
  let s ← get
  let ret ← blobCheck (allocRet p.target c.fresh s.world.ubusString)
  let ret ← blobCheck (memset ret 0 0 (p.target.sizeT s.world.ubusString.size))
  let result ← ubusGetOption c.call param
  let (ret, size) ← storeResult p.target c.fresh ret s.world.ubusString.size result
  freeBlob result
  let text ← blobCheck (cstr ret)
  onWorld (modify fun w => { w with ubusString := ⟨some ret, size⟩ })
  return if 0 < text.length then some text else none

/-- The calls a heartbeat makes, in the order it makes them. -/
structure HeartbeatCalls where
  pci : BusCall
  freq : BusCall
  rsrp : BusCall
  rsrq : BusCall
  snr : BusCall
  net : BusCall
  netStyle : StringBusCall
  coordinate : BusCall
  flightTime : BusCall
  lat : StringBusCall
  lng : StringBusCall
  alt : BusCall
  height : StringBusCall
  time : StringBusCall
  cog : BusCall
  speed : StringBusCall
  postData : PostData

def readModeminfo (p : Platform) (h : HeartbeatCalls) : BlobProg Unit := do
  let pci ← ubusGetInt h.pci (CString.lit "pci") 0
  onWorld (setNet fun n => { n with pci := pci })
  let freq ← ubusGetInt h.freq (CString.lit "freq") 0
  onWorld (setNet fun n => { n with freq := toUInt32 freq })
  let rsrp ← ubusGetInt h.rsrp (CString.lit "rsrp") 0
  onWorld (setNet fun n => { n with rsrp := rsrp })
  let rsrq ← ubusGetInt h.rsrq (CString.lit "rsrq") 0
  onWorld (setNet fun n => { n with rsrq := rsrq })
  let snr ← ubusGetInt h.snr (CString.lit "snr") 0
  onWorld (setNet fun n => { n with snr := snr })
  let net ← ubusGetInt h.net (CString.lit "net") 0
  onWorld (setNet fun n => { n with net := net })
  let netStyle ← ubusGetString p h.netStyle (CString.lit "net_style")
  onWorld (setNet fun n => { n with netStr := netStyle.map fun _ => .ubusRet })

def readUavinfo (p : Platform) (h : HeartbeatCalls) : BlobProg Unit := do
  let coordinate ← ubusGetInt h.coordinate (CString.lit "coordinate") 0
  onWorld (setUav fun u => { u with coordinate := toUChar coordinate })
  let flightTime ← ubusGetInt h.flightTime (CString.lit "flight_time") 0
  onWorld (setUav fun u => { u with flightTime := flightTime })
  let lat ← ubusGetString p h.lat (CString.lit "lat")
  let lat ← onWorld (Newplat.atofTimes p lat 10000000)
  onWorld (setUav fun u => { u with lat := toInt32 lat })
  let lng ← ubusGetString p h.lng (CString.lit "lng")
  let lng ← onWorld (Newplat.atofTimes p lng 10000000)
  onWorld (setUav fun u => { u with lng := toInt32 lng })
  let alt ← ubusGetInt h.alt (CString.lit "alt") 0
  onWorld (setUav fun u => { u with alt := alt })
  let height ← ubusGetString p h.height (CString.lit "height")
  let height ← onWorld (Newplat.atofTimes p height 10)
  onWorld (setUav fun u => { u with height := toInt32 height })
  let uavtime ← ubusGetString p h.time (CString.lit "time")
  onWorld (copyTime uavtime)
  let cog ← ubusGetInt h.cog (CString.lit "cog") 0
  onWorld (setUav fun u => { u with course := toInt32 (cog * 10) })
  let spd ← ubusGetString p h.speed (CString.lit "speed")
  let spd ← onWorld (Newplat.atofTimes p spd 10)
  onWorld (setUav fun u => { u with spd := toShort spd })

def mqttPostRun (p : Platform) (h : HeartbeatCalls) : BlobProg Unit := do
  onWorld (setUav fun _ => .zero)
  onWorld (modify fun w => { w with gFlyTime := toInt32 (w.gFlyTime + 1) })
  readModeminfo p h
  readUavinfo p h
  onWorld (cjsonCreatPostData p h.postData)
  onWorld (act (.uloopTimeoutSet .mqttPostTimeout 1000))

def mqttBeatInit (uptime : BusCall) : BlobProg Int := do
  let uptime ← ubusGetInt uptime (CString.lit "uptime") 0
  onWorld (modify fun w => { w with gFlyTime := uptime })
  onWorld (act (.uloopTimeoutSet .mqttPostTimeout 1000))
  onWorld (act (.uloopTimeoutSet .mqttRunTimeout 1000))
  return 0

/-- The uptime is asked for over the bus; the boot's own answer is not used. -/
def main (p : Platform) (b : Boot) (uptime : BusCall) : BlobProg Unit := do
  let ret ← onWorld (confUciInit b)
  if ret < 0 then
    onWorld (loge "init uci error!" [])
    throw (.exit 1)
  else
    let _ ← onWorld (mqttInit p b)
    let ret ← mqttBeatInit uptime
    if ret < 0 then
      onWorld (loge "init mqtt app error!" [])
      throw (.exit 1)
    else onWorld (act .uloopRun)

inductive BusEvent where
  | msgAdd (data : Option Bytes) (i : MsgAdd)
  | post (h : HeartbeatCalls)
  | send (turns : Nat → Turn)
  | callback (c : Callback)

def handle (p : Platform) : BusEvent → BlobProg Unit
  | .msgAdd data i => onWorld (cjsonMsgAdd data none i)
  | .post h => mqttPostRun p h
  | .send turns => onWorld (mqttSendRun turns)
  | .callback c => onWorld (mqttCallback c)

def newplat (p : Platform) (b : Boot) (uptime : BusCall) (events : List BusEvent) : BlobProg Unit := do
  main p b uptime
  runAll (handle p) events

def Machine.start (t : Target) : Machine := ⟨.start t, .empty⟩

end Newplat.BlobMemory
