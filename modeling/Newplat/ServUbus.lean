import Newplat.Base.Memory

/-! The reading side of serv_ubus.c. A call to the bus is what came back from it: whether
the context was there, the two return codes, and the attributes the reply callback kept. -/
namespace Newplat

open Base

/-- The types of `blobmsg` attributes; the integer getters give the bits unsigned. -/
inductive BlobValue where
  | int8 (bits : BitVec 8)
  | int16 (bits : BitVec 16)
  | int32 (bits : BitVec 32)
  | int64 (bits : BitVec 64)
  | string (value : CString)
  | other

structure BlobAttr where
  name : CString
  value : BlobValue

structure BusAnswer where
  connected : Bool
  lookup : Int
  invoke : Int
  reply : Option (List BlobAttr)

def ubusCall (a : BusAnswer) : Int × Option (List BlobAttr) :=
  if a.connected = false then (-1, none)
  else if a.lookup ≠ 0 then (-1, none)
  else (a.invoke, a.reply)

def ubusGetOption (a : BusAnswer) (param : CString) : Option BlobAttr :=
  match ubusCall a with
  | (_, none) => none
  | (ret, some attrs) => if ret ≠ 0 then none else attrs.find? (fun cur => param = cur.name)

abbrev FitsInt (v : Int) : Prop := -2147483648 ≤ v ∧ v ≤ 2147483647

def ubusGetInt (a : BusAnswer) (param : CString) (dflt : Int) : Int :=
  match ubusGetOption a param with
  | none => dflt
  | some attr =>
    match attr.value with
    | .int8 bits => bits.toNat
    | .int16 bits => bits.toNat
    | .int32 bits => bits.toInt
    | .int64 bits => (bits.setWidth 32).toInt
    | _ => dflt

/-- What the compiler's target decides: the sign of plain `char` and the width of `size_t`. -/
structure Target where
  charSigned : Bool
  wide : Bool

def Target.addressBits (t : Target) : Nat := if t.wide then 64 else 32

def Target.toChar (t : Target) (x : Int) : Int := if t.charSigned then x.bmod 256 else x % 256

def Target.sizeT (t : Target) (x : Int) : Nat := (x % 2 ^ t.addressBits).toNat

/-- `malloc` and `realloc` answer NULL for more than half the address space. -/
def Target.grants (t : Target) (n : Nat) : Bool := n ≤ 2 ^ (t.addressBits - 1)

/-- The static locals `ret` and `size` of `ubus_get_string`. -/
structure StringStatics where
  ret : Option Bytes
  size : Int

def StringStatics.start (t : Target) : StringStatics := ⟨none, t.toChar 128⟩

def allocRet (t : Target) (fresh : Nat → UInt8) (st : StringStatics) : Checked Bytes :=
  match st.ret with
  | some ret => .ok ret
  | none =>
    if t.grants (t.sizeT st.size) then .ok ((List.range (t.sizeT st.size)).map fresh)
    else .error .nullPointer

/-- The growth test compares as `size_t`; the new size goes back into a `char`. -/
def storeString (t : Target) (fresh : Nat → UInt8) (ret : Bytes) (size : Int) (value : CString) :
    Checked (Bytes × Int) :=
  if 0 < value.length then do
    let (ret, size) ←
      if t.sizeT size ≤ value.length then
        if t.grants (value.length + 1) then
          .ok (regrow fresh ret (value.length + 1), t.toChar (value.length + 1))
        else .error .nullPointer
      else .ok (ret, size)
    let ret ← strncpy ret value (t.sizeT size)
    return (ret, size)
  else .ok (ret, size)

/-- The string at the returned pointer, and the statics after the call. -/
def ubusGetString (t : Target) (fresh : Nat → UInt8) (st : StringStatics) (a : BusAnswer)
    (param : CString) : Checked (Option CString × StringStatics) := do
  let ret ← allocRet t fresh st
  let ret ← memset ret 0 0 (t.sizeT st.size)
  let (ret, size) ←
    match ubusGetOption a param with
    | none => .ok (ret, st.size)
    | some attr =>
      match attr.value with
      | .string value => storeString t fresh ret st.size value
      | _ => .ok (ret, st.size)
  let s ← cstr ret
  return (if 0 < s.length then some s else none, ⟨some ret, size⟩)

end Newplat
