import Newplat.Base.Heap
import Newplat.Blind
import Newplat.ListRuns

/-! The message queue of json.c as it lies in memory: nodes that malloc gave, linked by list.h,
with pointers to strings that strdup gave. Two requests never get the same address. -/
namespace Newplat.MsgMemory

open Base Links

/-- The `struct list_head` of the static list, and the one in each node. -/
inductive ListAddr where
  | gMsgList
  | node (m : Nat)
  deriving DecidableEq

/-- The two pointers of a `struct msg_queue`. -/
structure MsgNode where
  msg : Option Nat
  sendTopic : Option Nat

structure Mem where
  links : Links ListAddr
  nodes : Heap MsgNode
  strings : Heap UInt8

/-- What malloc left in a node. -/
structure Fresh where
  node : MsgNode
  link : Link ListAddr

/-- The world's own list is not used: the queue is in the memory. -/
structure Machine where
  world : World
  mem : Mem

abbrev MemProg := EStateM Halt Machine

def onWorld {α : Type} (m : Prog α) : MemProg α := fun s =>
  match m s.world with
  | .ok a w => .ok a { s with world := w }
  | .error e w => .error e { s with world := w }

def onLinks {α : Type} (m : ListHead.ListProg ListAddr α) : MemProg α := fun s =>
  match m s.mem.links with
  | .ok a l => .ok a { s with mem := { s.mem with links := l } }
  | .error e l => .error e { s with mem := { s.mem with links := l } }

def memCheck {α : Type} (c : Checked α) : MemProg α :=
  match c with
  | .ok a => pure a
  | .error e => throw e

def modifyMem (f : Mem → Mem) : MemProg Unit := modify fun s => { s with mem := f s.mem }

def mallocNode (fresh : Fresh) : MemProg Nat := do
  let s ← get
  let (m, nodes) := s.mem.nodes.alloc [fresh.node]
  modifyMem fun mem => { mem with nodes := nodes, links := Function.update mem.links (.node m) (some fresh.link) }
  return m

def freeNode (m : Nat) : MemProg Unit := do
  let s ← get
  let nodes ← memCheck (s.mem.nodes.free m)
  modifyMem fun mem => { mem with nodes := nodes, links := Function.update mem.links (.node m) none }

def loadNode (m : Nat) : MemProg MsgNode := do
  let s ← get
  memCheck (s.mem.nodes.load m 0)

def storeNode (m : Nat) (f : MsgNode → MsgNode) : MemProg Unit := do
  let node ← loadNode m
  let s ← get
  let nodes ← memCheck (s.mem.nodes.store m 0 (f node))
  modifyMem fun mem => { mem with nodes := nodes }

def mallocString (cells : Bytes) : MemProg Nat := do
  let s ← get
  let (q, strings) := s.mem.strings.alloc cells
  modifyMem fun mem => { mem with strings := strings }
  return q

def strdup (s : CString) (works : Bool) : MemProg (Option Nat) := do
  if works then
    let q ← mallocString s.buffer
    return some q
  else return none

def loadString (q : Nat) : MemProg CString := do
  let s ← get
  match s.mem.strings.block q with
  | some cells => memCheck (cstr cells)
  | none => throw .outOfBounds

/-- `free` of the null pointer does nothing. -/
def freeString : Option Nat → MemProg Unit
  | some q => do
    let s ← get
    let strings ← memCheck (s.mem.strings.free q)
    modifyMem fun mem => { mem with strings := strings }
  | none => pure ()

/-- The text behind a pointer, for the history. -/
def Mem.text (mem : Mem) (p : Option Nat) : Option CString := do
  let q ← p
  let cells ← mem.strings.block q
  return CString.ofBuffer cells

def Mem.message (mem : Mem) (m : Nat) (node : MsgNode) : MsgQueue := ⟨mem.text node.msg, mem.text node.sendTopic, m⟩

def cjsonMsgAdd (fresh : Nat → Fresh) (data : Option Bytes) (report : Option CJson) (i : MsgAdd) : MemProg Unit := do
  let id ← onWorld deviceId
  if id.length = 0 then pure ()
  else
    onWorld (getDeviceId i.serial)
    let id ← onWorld deviceId
    let s ← get
    onWorld (act (.topicFormatted s.world.gMqttCtx.publishTopicUpload))
    let topic := paasTopic id s.world.gMqttCtx.publishTopicUpload
    if i.alloc.node = false then onWorld (loge "malloc error" [])
    else
      let m ← mallocNode (fresh s.mem.nodes.blocks.length)
      match data with
      | none => throw .nullPointer
      | some data => do
        let text ← onWorld (check (cstr data))
        let msg ← strdup text i.alloc.msg
        storeNode m fun n => { n with msg := msg }
        let sendTopic ← strdup topic i.alloc.topic
        storeNode m fun n => { n with sendTopic := sendTopic }
        onLinks (ListHead.listAddTail (.node m) .gMsgList)
        let s ← get
        onWorld (act (.queued (s.mem.message m ⟨msg, sendTopic⟩) report))

/-- `out` and `out_base64` are freed at the end; the message has a copy of its own. -/
def addSealed (fresh : Nat → Fresh) (out : Nat) (outBase64 : Option Bytes) (root : CJson) (i : PostData) :
    MemProg Unit := do
  let sealed ← match outBase64 with
    | some bytes => do
      let q ← mallocString bytes
      pure (some q)
    | none => pure none
  onWorld (runAll mqttCallback i.beforeAdd)
  cjsonMsgAdd fresh outBase64 (some root) i.add
  freeString sealed
  freeString (some out)

def cjsonCreatPostData (fresh : Nat → Fresh) (p : Platform) (i : PostData) : MemProg Unit := do
  onWorld (act .cjsonCreatPostData)
  let id ← onWorld (readDeviceId i.root)
  let params ← onWorld (cjsonCreateParamsData p i)
  let root := reportRoot i.uuid id params
  let out ← mallocString (p.cJSONPrint root).buffer
  let text ← loadString out
  let (outBase64, _) ← onWorld (check
    (aesEcbPkcs5Encrypt i.ssl p.rounds text.buffer (toInt32 text.length) getDeviceKey 16 true))
  addSealed fresh out outBase64 root i

def mqttPostRun (fresh : Nat → Fresh) (p : Platform) (h : Heartbeat) : MemProg Unit := do
  onWorld (setUav fun _ => .zero)
  onWorld (modify fun w => { w with gFlyTime := toInt32 (w.gFlyTime + 1) })
  onWorld (readModeminfo p h)
  onWorld (readUavinfo p h)
  cjsonCreatPostData fresh p h.postData
  onWorld (act (.uloopTimeoutSet .mqttPostTimeout 1000))

def unlinkMsg (m : Nat) : MemProg Unit := do
  onLinks (ListHead.listDel (.node m))
  freeNode m

/-- The topic that publishing is given, null or not. -/
def loadTopic : Option Nat → MemProg (Option CString)
  | some q => do
    let topic ← loadString q
    return some topic
  | none => return none

/-- With a text the message is published and its strings are freed, without one only its node is. -/
def serveMsg (publish : Int) (m : Nat) (node : MsgNode) : MemProg Unit :=
  match node.msg with
  | some msg => do
    let text ← loadString msg
    let topic ← loadTopic node.sendTopic
    let _ ← onWorld (doTtyMsgPublish text (toInt32 text.length) topic publish)
    freeString node.msg
    freeString node.sendTopic
    unlinkMsg m
  | none => unlinkMsg m

/-- The body of the loop, for the list head its cursor stands at. -/
def sendMsg (publish : Int) : ListAddr → MemProg Unit
  | .gMsgList => throw .outOfBounds
  | .node m => do
    let node ← loadNode m
    let s ← get
    onWorld (act (.turn (s.mem.message m node) s.world.gMqttCtx.connectedUav))
    serveMsg publish m node

def sendTurn (t : Turn) (pos : ListAddr) : MemProg Unit := do
  onWorld (runAll mqttCallback t.before)
  sendMsg t.publish pos

/-- The loop is followed for one round more than nodes were ever there. -/
def mqttSendRun (turns : Nat → Turn) : MemProg Unit := do
  let s ← get
  ListHead.listForEachEntrySafe (fun pos => onLinks (ListHead.readNext pos)) (fun k pos => sendTurn (turns k) pos)
    .gMsgList (s.mem.nodes.blocks.length + 1)
  onWorld (act (.uloopTimeoutSet .mqttRunTimeout 10))

def handle (fresh : Nat → Fresh) (p : Platform) : Event → MemProg Unit
  | .msgAdd data i => cjsonMsgAdd fresh data none i
  | .post h => mqttPostRun fresh p h
  | .send turns => mqttSendRun turns
  | .callback c => onWorld (mqttCallback c)

def run (fresh : Nat → Fresh) (p : Platform) (events : List Event) : MemProg Unit := runAll (handle fresh p) events

def newplat (fresh : Nat → Fresh) (p : Platform) (b : Boot) (events : List Event) : MemProg Unit := do
  onWorld (main p b)
  run fresh p events

/-- `LIST_HEAD_INIT`, and nothing allocated. -/
def Mem.start : Mem where
  links := fun a => if a = .gMsgList then some ⟨.gMsgList, .gMsgList⟩ else none
  nodes := .empty
  strings := .empty

def Machine.start (t : Target) : Machine := ⟨.start t, .start⟩

end Newplat.MsgMemory
