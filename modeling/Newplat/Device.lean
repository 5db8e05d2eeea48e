import Newplat.CipherText
import Newplat.Main

/-! A device to run the program on: AES-128 itself, the layout of cJSON's text, and the
configuration file the package installs. -/
namespace Newplat

open Base

def xtime (b : UInt8) : UInt8 := if b < 128 then b <<< 1 else (b <<< 1) ^^^ 27

/-- Multiplication in the field of AES, along the bits of the second factor. -/
def gmul (a b : UInt8) : UInt8 :=
  ((List.range 8).foldl (fun (s : UInt8 × UInt8) i =>
    (if b.toNat.testBit i then s.1 ^^^ s.2 else s.1, xtime s.2)) (0, a)).1

/-- The S-box: the inverse, which is the power 254, then the affine map. -/
def subByte (b : UInt8) : UInt8 :=
  let inv := (List.range 253).foldl (fun x _ => gmul x b) b
  let rotl (k : UInt8) : UInt8 := (inv <<< k) ||| (inv >>> (8 - k))
  inv ^^^ rotl 1 ^^^ rotl 2 ^^^ rotl 3 ^^^ rotl 4 ^^^ 99

def shiftRows (s : Bytes) : Bytes := (List.range 16).map fun i => s.getD ((i + 4 * (i % 4)) % 16) 0

def mixColumns : Bytes → Bytes
  | a :: b :: c :: d :: rest =>
    (gmul a 2 ^^^ gmul b 3 ^^^ c ^^^ d) :: (a ^^^ gmul b 2 ^^^ gmul c 3 ^^^ d) ::
      (a ^^^ b ^^^ gmul c 2 ^^^ gmul d 3) :: (gmul a 3 ^^^ b ^^^ c ^^^ gmul d 2) :: mixColumns rest
  | _ => []

def xorBytes (s t : Bytes) : Bytes := List.zipWith (· ^^^ ·) s t

def nextRoundKey (rcon : UInt8) (key : Bytes) : Bytes :=
  let t := (key.drop 13 ++ (key.drop 12).take 1).map subByte
  let w0 := xorBytes (key.take 4) (xorBytes t [rcon, 0, 0, 0])
  let w1 := xorBytes ((key.drop 4).take 4) w0
  let w2 := xorBytes ((key.drop 8).take 4) w1
  w0 ++ w1 ++ w2 ++ xorBytes (key.drop 12) w2

def aesRounds : Nat → UInt8 → Bytes → Bytes → Bytes
  | 0, _, _, s => s
  | n + 1, rcon, key, s =>
    let key := nextRoundKey rcon key
    let s := shiftRows (s.map subByte)
    aesRounds n (xtime rcon) key (xorBytes key (if n = 0 then s else mixColumns s))

def aes128 (key block : Bytes) : Bytes := aesRounds 10 1 key (xorBytes key block)

def aesEcb (key xs : Bytes) : Bytes :=
  ((List.range (xs.length / 16)).flatMap fun i =>
    aes128 key ((xs.drop (16 * i)).take 16)).takeD xs.length 0

def deviceOpenSSL : OpenSSL := { sampleOpenSSL with
  evpEncryptUpdate := fun key xs =>
    ⟨1, aesEcb key (xs.take (16 * (xs.length / 16))), some (16 * (xs.length / 16) : Nat)⟩ }

theorem device_encrypts : Encrypts deviceOpenSSL aesEcb where
  ctxNew := rfl
  encryptInit _ := rfl
  encryptUpdate key xs whole := by
    have size : 16 * (xs.length / 16) = xs.length := Nat.mul_div_cancel' whole
    simp only [deviceOpenSSL, size, List.take_length]
  cipherLength key xs whole := List.takeD_length _ _ _
  encodeBlock _ := rfl

def quoted (bs : Bytes) : Bytes := CString.ascii "\"" ++ bs ++ CString.ascii "\""

mutual

def CJson.print (depth : Nat) : CJson → Bytes
  | .string s => quoted s.bytes
  | .number n => CString.ascii (toString n)
  | .object items =>
    CString.ascii "\x7b\n" ++ printItems (depth + 1) items ++ List.replicate depth 9 ++ CString.ascii "\x7d"
  | .array items => CString.ascii "[" ++ printElements (depth + 1) items ++ CString.ascii "]"

def printItems (depth : Nat) : List (String × CJson) → Bytes
  | [] => []
  | (name, v) :: rest =>
    List.replicate depth 9 ++ quoted (CString.ascii name) ++ CString.ascii ":\t" ++ v.print depth ++
      (if rest.isEmpty then [] else CString.ascii ",") ++ CString.ascii "\n" ++ printItems depth rest

def printElements (depth : Nat) : List CJson → Bytes
  | [] => []
  | v :: rest =>
    v.print depth ++ (if rest.isEmpty then [] else CString.ascii ", ") ++ printElements depth rest

end

/-- Plain `char` is unsigned, as on ARM. No report is longer than 4096 bytes, and no reading
has a fraction. -/
def devicePlatform : Platform where
  target := ⟨false, true⟩
  rounds := 1000
  atofTimes s k := decimal s * k
  cJSONPrint root := (CString.ofBuffer (root.print 0)).truncate 4096

def deviceOptions : List (CString × CString) :=
  [(CString.lit "user", CString.lit "cmlc"),
    (CString.lit "passwd", CString.lit "odD8#Ve7.B"),
    (CString.lit "host", CString.lit "183.220.194.233"),
    (CString.lit "port", CString.lit "31883"),
    (CString.lit "topic", CString.lit "property/post"),
    (CString.lit "sub_topic", CString.lit "property/post_reply"),
    (CString.lit "header", CString.lit "hhh"),
    (CString.lit "client_id", CString.empty),
    (CString.lit "clean_session", CString.lit "true"),
    (CString.lit "qos", CString.lit "0"),
    (CString.lit "sub_qos", CString.lit "0"),
    (CString.lit "keepalive", CString.lit "60"),
    (CString.lit "retain_msg", CString.lit "false"),
    (CString.lit "uav_manufacture", CString.lit "general")]

def configOf (options : List (CString × CString)) : UciContext := fun p s o =>
  if p = CString.lit "newplat" ∧ s = CString.lit "mqtt" then
    match options.find? fun option => option.1 = o with
    | some option => ⟨0, true, .option (.string option.2)⟩
    | none => ⟨0, false, .other⟩
  else ⟨3, false, .other⟩

def serialPrinted : Popen := .stream (CString.ascii "d72e64") false

def deviceBoot : Boot where
  uciAllocContext := true
  uciLoad := 0
  ctx := configOf deviceOptions
  serial := serialPrinted
  ssl := deviceOpenSSL
  mosquittoNew := some 1
  mosquittoLoopStart := 0
  uptime := ⟨false, 0, 0, none⟩

def replied (name : CString) (value : BlobValue) : BusAnswer := ⟨true, 0, 0, some [⟨name, value⟩]⟩

def stringReplied (name value : CString) : StringReply := ⟨replied name (.string value), fun _ => 0⟩

def devicePostData : PostData where
  uuid := CString.lit "5ab0e22f-7bd4-4c8e-9d43-7f3a2b1c0d9e"
  root := ⟨[], serialPrinted⟩
  dev := ⟨[], serialPrinted⟩
  uav := ⟨[], serialPrinted⟩
  clock := ⟨1700000000, 0⟩
  ssl := deviceOpenSSL
  beforeAdd := []
  add := ⟨serialPrinted, ⟨true, true, true⟩⟩

def deviceHeartbeat : Heartbeat where
  pci := replied (CString.lit "pci") (.int32 101)
  freq := replied (CString.lit "freq") (.int32 1850)
  rsrp := replied (CString.lit "rsrp") (.int32 (-95))
  rsrq := replied (CString.lit "rsrq") (.int32 (-11))
  snr := replied (CString.lit "snr") (.int32 12)
  net := replied (CString.lit "net") (.int32 4)
  netStyle := stringReplied (CString.lit "net_style") (CString.lit "LTE")
  coordinate := replied (CString.lit "coordinate") (.int32 1)
  flightTime := replied (CString.lit "flight_time") (.int32 60)
  lat := stringReplied (CString.lit "lat") (CString.lit "31")
  lng := stringReplied (CString.lit "lng") (CString.lit "121")
  alt := replied (CString.lit "alt") (.int32 80)
  height := stringReplied (CString.lit "height") (CString.lit "50")
  time := stringReplied (CString.lit "time") (CString.lit "20231114221320")
  cog := replied (CString.lit "cog") (.int32 90)
  speed := stringReplied (CString.lit "speed") (CString.lit "3")
  postData := devicePostData

example : mqttOption deviceBoot.ctx (CString.lit "topic") = some (CString.lit "property/post") := rfl

end Newplat
