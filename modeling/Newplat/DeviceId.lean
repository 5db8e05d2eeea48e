import Newplat.World

/-! Where the device's identity comes from: the serial-number command of utils.c and the
static buffers of json.c. -/
namespace Newplat

open Base

/-- What `popen` and `fread` gave: no stream, or the command's output and `ferror`. -/
inductive Popen where
  | unavailable
  | stream (out : Bytes) (ferror : Bool)
  deriving DecidableEq

def execProcess (r : Popen) (result : Bytes) (size : Int) : Checked (Int × Bytes) := do
  let result ← memset result 0 0 size
  match r with
  | .unavailable => return (-1, result)
  | .stream out ferror =>
    let got := out.take (size - 1).toNat
    let result ← write result 0 got
    if ferror then return (-1, result)
    else if got.length = 0 then return (-1, result)
    else return (0, result)

def getDevSn (r : Popen) (sn : Bytes) : Checked Bytes := do
  let (ret, reply) ← execProcess r (List.replicate 16 0) 16
  if ret = -1 then return sn
  else
    let len ← strlen reply
    memcpy sn 0 reply 0 len

/-- The buffer is updated; the returned pointer always leads to it. -/
def getDeviceId (r : Popen) : Prog Unit := do
  let w ← get
  let sn ← check (getDevSn r w.gDeviceId)
  modify fun w => { w with gDeviceId := sn }

def deviceId : Prog CString := do
  let w ← get
  check (cstr w.gDeviceId)

def getProductKey : CString := CString.lit "7060j90u98y928y98y"

/-- The array `g_device_key` of 20 bytes. -/
def getDeviceKey : Bytes := CString.ascii "hb0iojui87890oi9" ++ List.replicate 4 0

structure Timeval where
  tvSec : Int
  tvUsec : Int

def timestamp (t : Target) (tv : Timeval) : Int := t.toLong (tv.tvSec * 1000 + tv.tvUsec.tdiv 1000)

def Popen.reply : Popen → Option CString
  | .stream out false => if out.length = 0 then none else some (CString.ofBuffer (out.take 15))
  | _ => none

/-- The buffer is written exactly when the command succeeds, and then with its reply. -/
theorem getDevSn_reply (r : Popen) (sn : Bytes) :
    getDevSn r sn = match r.reply with
      | none => .ok sn
      | some s => write sn 0 s.bytes := by
  have cleared : memset (List.replicate 16 0) 0 0 16 = .ok (List.replicate 16 0) :=
    memset_whole 0 List.length_replicate rfl
  cases r with
  | unavailable =>
    simp only [getDevSn, execProcess, cleared, ok_bind]
    rfl
  | stream out ferror =>
    have size : (out.take 15).length ≤ 15 := List.length_take_le 15 out
    have got : write (List.replicate 16 0) 0 (out.take 15) =
        .ok (out.take 15 ++ List.replicate (16 - (out.take 15).length) 0) := by
      rw [write_start (by rw [List.length_replicate]; omega), List.drop_replicate]
    have fread : (16 - 1 : Int).toNat = 15 := rfl
    simp only [getDevSn, execProcess, cleared, ok_bind, fread, got]
    cases ferror with
    | true => rfl
    | false =>
      by_cases nothing : out.length = 0
      · have none : (out.take 15).length = 0 := by rw [List.length_take, nothing]; rfl
        simp [Popen.reply, nothing, none]
      · have some : (out.take 15).length ≠ 0 := by
          rw [List.length_take]
          omega
        have string := cstr_zeros (out.take 15) (k := 16 - (out.take 15).length) (by omega)
        have copied := memcpy_string string sn
        have worked : ¬ ((0 : Int) = -1) := by decide
        simp only [Popen.reply, if_neg nothing, Bool.false_eq_true, if_false, if_neg some, pure_ok,
          ok_bind, if_neg worked, strlen, string, copied]

theorem getDeviceId_none {r : Popen} (fails : r.reply = none) (w : World) :
    getDeviceId r w = .ok () w := by
  simp [getDeviceId, getDevSn_reply, fails]

theorem getDeviceId_some {r : Popen} {s : CString} {sn : Bytes} {w : World} (replies : r.reply = some s)
    (fits : write w.gDeviceId 0 s.bytes = .ok sn) :
    getDeviceId r w = .ok () { w with gDeviceId := sn } := by
  simp [getDeviceId, getDevSn_reply, replies, fits]

end Newplat
