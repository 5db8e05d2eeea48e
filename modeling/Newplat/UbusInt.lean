import Newplat.ServUbus

/-! Numbers over the bus. A sender fills an attribute with a signed value, the getters give
its bits unsigned, and each width has a conversion to `int` of its own. -/
namespace Newplat

open Base

/-- The first attribute of a name, in the reply of a call that worked. -/
def busValue (a : BusAnswer) (name : CString) : Option BlobValue :=
  if a.connected = true ∧ a.lookup = 0 ∧ a.invoke = 0 then
    (a.reply.bind fun attrs => attrs.find? fun attr => attr.name = name).map BlobAttr.value
  else none

/-- The signed value a caller expects. Of an 8-bit attribute nothing is said. -/
def expectedInt (a : BusAnswer) (name : CString) (dflt : Int) : Option Int :=
  match busValue a name with
  | some (.int8 _) => none
  | some (.int16 bits) => some bits.toInt
  | some (.int32 bits) => some bits.toInt
  | some (.int64 bits) => some (if FitsInt bits.toInt then bits.toInt else dflt)
  | _ => some dflt

def IntFaithful (a : BusAnswer) (name : CString) (dflt : Int) : Prop :=
  ∀ v, expectedInt a name dflt = some v → ubusGetInt a name dflt = v

/-- Of 16 bits no negative value comes through; of 64 bits one that is too large for `int`
comes through as its low half, which is right only when that is the default. -/
def KeepsInt (dflt : Int) : Option BlobValue → Prop
  | some (.int16 bits) => 0 ≤ bits.toInt
  | some (.int64 bits) => FitsInt bits.toInt ∨ (bits.setWidth 32).toInt = dflt
  | _ => True

theorem ubusGetOption_value (a : BusAnswer) (name : CString) :
    (ubusGetOption a name).map BlobAttr.value = busValue a name := by
  obtain ⟨connected, lookup, invoke, reply⟩ := a
  unfold ubusGetOption ubusCall busValue
  cases connected with
  | false => simp
  | true =>
    by_cases found : lookup = 0
    · cases reply with
      | none => simp [found]
      | some attrs =>
        by_cases worked : invoke = 0
        · simp [found, worked, eq_comm]
        · simp [found, worked]
    · simp [found]

theorem ubusGetInt_value (a : BusAnswer) (name : CString) (dflt : Int) :
    ubusGetInt a name dflt = match busValue a name with
      | some (.int8 bits) => bits.toNat
      | some (.int16 bits) => bits.toNat
      | some (.int32 bits) => bits.toInt
      | some (.int64 bits) => (bits.setWidth 32).toInt
      | _ => dflt := by
  rw [← ubusGetOption_value, ubusGetInt]
  cases ubusGetOption a name with
  | none => rfl
  | some attr =>
    obtain ⟨name, value⟩ := attr
    cases value <;> rfl

/-- The unsigned getter of 16 bits is exact where the sign bit is clear. -/
theorem zero_extended_iff (bits : BitVec 16) : (bits.toNat : Int) = bits.toInt ↔ 0 ≤ bits.toInt := by
  have bound := bits.isLt
  rw [BitVec.toInt_eq_toNat_cond]
  split <;> omega

theorem low_half (bits : BitVec 64) (fits : FitsInt bits.toInt) :
    (bits.setWidth 32).toInt = bits.toInt := by
  obtain ⟨low, high⟩ := fits
  have bound := bits.isLt
  rw [BitVec.toInt_setWidth, Int.bmod_def]
  rw [BitVec.toInt_eq_toNat_cond] at low high ⊢
  split at low <;> split <;> omega

/-- `ubus_get_int` gives a caller what it expects exactly where no 16-bit value is negative
and no 64-bit value is outside `int`, unless its low half is the default. -/
theorem intFaithful_iff (a : BusAnswer) (name : CString) (dflt : Int) :
    IntFaithful a name dflt ↔ KeepsInt dflt (busValue a name) := by
  unfold IntFaithful expectedInt
  rw [ubusGetInt_value]
  cases busValue a name with
  | none => simp [KeepsInt]
  | some value =>
    cases value with
    | int8 bits => simp [KeepsInt]
    | int16 bits => simpa [KeepsInt] using zero_extended_iff bits
    | int32 bits => simp [KeepsInt]
    | int64 bits =>
      by_cases fits : FitsInt bits.toInt
      · have keeps : KeepsInt dflt (some (.int64 bits)) := Or.inl fits
        simp [keeps, fits, low_half bits fits]
      · simp [KeepsInt, fits]
    | string s => simp [KeepsInt]
    | other => simp [KeepsInt]

/-- A modem that reports -95 dBm in 16 bits. -/
def shortRsrp : BusAnswer := ⟨true, 0, 0, some [⟨CString.lit "rsrp", .int16 (-95)⟩]⟩

theorem short_rsrp_unsigned : ¬ IntFaithful shortRsrp (CString.lit "rsrp") 0 := by
  intro faithful
  have read : ubusGetInt shortRsrp (CString.lit "rsrp") 0 = -95 := faithful (-95) (by decide)
  exact absurd read (by decide)

end Newplat
