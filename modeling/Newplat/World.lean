import Newplat.Base.Runs
import Newplat.ServUbus

/-! The state newplat's functions share, and the history of what they did. A program over
it may halt; what came back from outside is an argument of the step that received it. -/
namespace Newplat

open Base

inductive CJson where
  | string (valuestring : CString)
  | number (value : Int)
  | object (items : List (String × CJson))
  | array (items : List CJson)

def CJson.getObjectItem : CJson → String → Option CJson
  | .object items, name => (items.find? (fun item => item.1 = name)).map (fun item => item.2)
  | _, _ => none

def CJson.getArrayItem : CJson → Nat → Option CJson
  | .array items, index => items[index]?
  | _, _ => none

inductive StaticBuffer where
  | gDeviceId
  | ubusRet
  deriving DecidableEq

inductive UavMsgCallback where
  | mqttUavRecvCallback
  deriving DecidableEq

structure MqttContext where
  connectedUav : Bool
  mosqUav : Option Nat
  mqttName : Option StaticBuffer
  mqttPassword : Option Bytes
  mqttHost : Option CString
  mqttPort : Int
  mqttKeepalive : Int
  mqttClientId : Option CString
  mqttCleanSession : Bool
  mqttMessageHeader : Option CString
  uavMsgCallback : Option UavMsgCallback
  publishTopicUpload : Option CString
  publishTopicUploadQos : Int
  publishTopicUploadRetain : Bool
  subscribeTopic : Option CString
  subscribeTopicQos : Int

structure NetInfo where
  pci : Int
  freq : Int
  rsrp : Int
  rsrq : Int
  snr : Int
  net : Int
  netStr : Option StaticBuffer

/-- `struct dev_data`; `time` is the array of 16 bytes. -/
structure UavData where
  coordinate : Int
  flightTime : Int
  lat : Int
  lng : Int
  alt : Int
  height : Int
  time : Bytes
  course : Int
  spd : Int

/-- `struct msg_queue`. The serial number stands for the node's address. -/
structure MsgQueue where
  msg : Option CString
  sendTopic : Option CString
  serial : Nat
  deriving DecidableEq

inductive Timer where
  | mqttPostTimeout
  | mqttRunTimeout
  deriving DecidableEq

/-- What a run does that can be seen: the calls to outside, and the steps of a message.
With a queued message stands the tree its text was printed from. `uavMqttConnected` is the
log line of a new connection. -/
inductive Action where
  | loge (text : String) (args : List Int)
  | cjsonCreatPostData
  | topicFormatted (publishTopicUpload : Option CString)
  | queued (m : MsgQueue) (report : Option CJson)
  | turn (m : MsgQueue) (connectedUav : Bool)
  | mosquittoPublish (topic data : CString) (len qos : Int) (retain : Bool) (ret : Int)
  | uavMqttConnected
  | mosquittoSubscribe (topic : CString) (qos ret : Int)
  | mosquittoUsernamePwSet (username password : CString)
  | mosquittoConnectAsync (host : Option CString) (port keepalive : Int)
  | uloopTimeoutSet (timer : Timer) (msecs : Int)
  | uloopRun

/-- `trace` is history: no branch of the program reads it. -/
structure World where
  gDeviceId : Bytes
  gMqttCtx : MqttContext
  gMsgList : List MsgQueue
  gFlyTime : Int
  gNetInfo : NetInfo
  gUavData : UavData
  ubusString : StringStatics
  trace : List Action

def MqttContext.zero : MqttContext :=
  ⟨false, none, none, none, none, 0, 0, none, false, none, none, none, 0, false, none, 0⟩

def NetInfo.zero : NetInfo := ⟨0, 0, 0, 0, 0, 0, none⟩

def UavData.zero : UavData := ⟨0, 0, 0, 0, 0, 0, List.replicate 16 0, 0, 0⟩

/-- What the machine decides: the target's types, how long a loop is followed, the integral
part of `atof(s) * k`, and the text of a JSON tree. -/
structure Platform where
  target : Target
  rounds : Nat
  atofTimes : CString → Int → Int
  cJSONPrint : CJson → CString

def World.start (t : Target) : World :=
  ⟨List.replicate 7 0, .zero, [], 0, .zero, .zero, .start t, []⟩

abbrev Prog := EStateM Halt World

def act (a : Action) : Prog Unit := modify fun w => { w with trace := w.trace ++ [a] }

def loge (text : String) (args : List Int) : Prog Unit := act (.loge text args)

def check {α : Type} (c : Checked α) : Prog α :=
  match c with
  | .ok a => pure a
  | .error e => throw e

@[simp] theorem act_bind_run {α : Type} (a : Action) (f : Unit → Prog α) (w : World) :
    (act a >>= f) w = f () { w with trace := w.trace ++ [a] } := rfl

@[simp] theorem check_ok_bind {α β : Type} (a : α) (f : α → Prog β) : (check (.ok a) >>= f) = f a :=
  pure_bind a f

theorem keeps_act {I : World → Prop} {a : Action}
    (h : ∀ w, I w → I { w with trace := w.trace ++ [a] }) : Keeps I (act a) :=
  keeps_modify h

theorem spec_check {α : Type} {P E : World → Prop} {Q : α → World → Prop} {c : Checked α}
    (returns : ∀ a w, c = .ok a → P w → Q a w) (halts : ∀ e w, c = .error e → P w → E w) :
    Spec P (check c) Q E := by
  intro w before
  cases c with
  | ok a => exact returns a w rfl before
  | error e => exact halts e w rfl before

/-- What a computation gave is known from then on. -/
theorem spec_checked {α : Type} {P E : World → Prop} {c : Checked α} (halts : ∀ e w, c = .error e → P w → E w) :
    Spec P (check c) (fun a w => c = .ok a ∧ P w) E :=
  spec_check (fun _ _ ok before => ⟨ok, before⟩) halts

theorem keeps_check {α : Type} {I : World → Prop} {c : Checked α} : Keeps I (check c) :=
  spec_check (fun _ _ _ held => held) fun _ _ _ held => held

theorem decides_check {α : Type} {P : World → Prop} {Q : α → World → Prop} {c : Checked α} {a : α}
    (returns : c = .ok a) (post : ∀ w, P w → Q a w) : Decides P True (check c) Q := by
  subst returns
  exact decides_pure post

/-! The integer conversions. Out of range they keep the low bits, as the usual compilers do. -/

/-- Out of range this is one platform's choice: C leaves it to the implementation, and where the value
is a double undefined. -/
def toInt32 (x : Int) : Int := x.bmod (2 ^ 32)

theorem toInt32_fits {v : Int} (fits : FitsInt v) : toInt32 v = v := by
  unfold FitsInt at fits
  rw [toInt32, Int.bmod_eq_of_le (by omega) (by omega)]

def toUInt32 (x : Int) : Int := x % 2 ^ 32

def toShort (x : Int) : Int := x.bmod (2 ^ 16)

def toUChar (x : Int) : Int := x % 2 ^ 8

def Target.toLong (t : Target) (x : Int) : Int := x.bmod (2 ^ t.addressBits)

/-- The number that starts a string, after white space and a sign. -/
def decimal (s : CString) : Int :=
  let digits : Bytes → Nat := fun bs =>
    (bs.takeWhile fun b => 48 ≤ b ∧ b ≤ 57).foldl (fun n b => 10 * n + (b.toNat - 48)) 0
  match s.bytes.dropWhile fun b => b = 32 ∨ (9 ≤ b ∧ b ≤ 13) with
  | 45 :: rest => -(digits rest)
  | 43 :: rest => digits rest
  | bs => digits bs

theorem decimal_digits {s : CString} (digits : ∀ b ∈ s.bytes, 48 ≤ b ∧ b ≤ 57) :
    decimal s = (s.bytes.foldl (fun n b => 10 * n + (b.toNat - 48)) 0 : Nat) := by
  have starts : s.bytes.dropWhile (fun b => b = 32 ∨ (9 ≤ b ∧ b ≤ 13)) = s.bytes := by
    cases text : s.bytes with
    | nil => rfl
    | cons b rest =>
      have first := digits b (text ▸ List.mem_cons_self)
      rw [List.dropWhile_cons_of_neg]
      simp only [decide_eq_true_eq]
      grind
  have whole : s.bytes.takeWhile (fun b => 48 ≤ b ∧ b ≤ 57) = s.bytes := by
    rw [List.takeWhile_eq_self_iff]
    intro b member
    exact decide_eq_true (digits b member)
  unfold decimal
  simp only [starts]
  split
  · rename_i rest text
    exact absurd (digits 45 (text ▸ List.mem_cons_self)).1 (by decide)
  · rename_i rest text
    exact absurd (digits 43 (text ▸ List.mem_cons_self)).1 (by decide)
  · rw [whole]

/-- C leaves a number that does not fit an `int` undefined. The low bits, kept here, are what musl
returns; glibc returns the `int` next to it. -/
def atoi (s : CString) : Int := toInt32 (decimal s)

def Target.atol (t : Target) (s : CString) : Int := t.toLong (decimal s)

end Newplat
