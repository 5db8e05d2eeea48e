import Newplat.Base.Numerals
import Newplat.Uci

/-! The options that hold an `int`: what a function wrote is what the getter reads. -/
namespace Newplat.Uci

open Base

theorem decimal_numeral {s : CString} {n : Nat} (text : s.bytes = numeral n) : decimal s = n := by
  have digits : ∀ b ∈ s.bytes, 48 ≤ b ∧ b ≤ 57 := by
    rw [text]
    exact fun b member => numeral_digits member
  rw [decimal_digits digits, text, numeral_value]

theorem decimal_negative {s : CString} {n : Nat} (text : s.bytes = 45 :: numeral n) : decimal s = -n := by
  have starts : s.bytes.dropWhile (fun b => b = 32 ∨ (9 ≤ b ∧ b ≤ 13)) = 45 :: numeral n := by
    rw [text, List.dropWhile_cons_of_neg (by decide)]
  unfold decimal
  simp only [starts]
  rw [numeral_takeWhile, numeral_value]

theorem decimal_ascii {s : CString} {v : Int} (text : s.bytes = CString.ascii (toString v)) :
    decimal s = v := by
  rw [ascii_int] at text
  by_cases nonneg : 0 ≤ v
  · rw [if_pos nonneg] at text
    rw [decimal_numeral text, Int.toNat_of_nonneg nonneg]
  · rw [if_neg nonneg] at text
    rw [decimal_negative text]
    omega

/-- The most negative `int` takes eleven bytes. -/
theorem ascii_length {v : Int} (fits : FitsInt v) : (CString.ascii (toString v)).length ≤ 11 := by
  obtain ⟨low, high⟩ := fits
  rw [ascii_int]
  split
  · have digits : (numeral v.toNat).length ≤ 11 := (numeral_length (by decide)).mpr (by omega)
    exact digits
  · have digits : (numeral (-v).toNat).length ≤ 10 := (numeral_length (by decide)).mpr (by omega)
    rw [List.length_cons]
    omega

theorem ascii_terminated (v : Int) : (0 : UInt8) ∉ CString.ascii (toString v) := by
  intro member
  have digit (n : Nat) : (0 : UInt8) ∉ numeral n :=
    fun member => absurd (numeral_digits member).1 (by decide)
  rw [ascii_int] at member
  split at member
  · exact digit _ member
  · cases member with
    | tail _ member => exact digit _ member

theorem printInt_bytes {v : Int} (fits : FitsInt v) {n : Nat} (room : 12 ≤ n) :
    (printInt n v).bytes = CString.ascii (toString v) := by
  have length := ascii_length fits
  have whole : (CString.ofBuffer (CString.ascii (toString v))).bytes = CString.ascii (toString v) := by
    apply List.takeWhile_eq_self_iff.mpr
    intro b member
    exact decide_eq_true (ne_of_mem_of_not_mem member (ascii_terminated v))
  rw [printInt, CString.truncate_bytes, whole, List.take_of_length_le (by omega)]

theorem atoi_printInt {v : Int} (fits : FitsInt v) {n : Nat} (room : 12 ≤ n) : atoi (printInt n v) = v := by
  rw [atoi, decimal_ascii (printInt_bytes fits room), toInt32_fits fits]

section Store

/-- The fields of the static `ptr` that name an element. -/
structure Names where
  package : Option CString
  sec : Option CString
  option : Option CString
  deriving DecidableEq

/-- What libuci holds for one option, where a call of this program tells it; `ptr` and `value`
are the fields of the static `ptr`. -/
structure Store where
  ptr : Names
  value : Option CString
  stored : Option CString

def Store.zero : Store := ⟨⟨none, none, none⟩, none, none⟩

/-- `uci_set` stores the value that `ptr` points to, whatever was saved or reverted before. -/
def Store.call (option : Names) (h : Store) : Call → Store
  | .uciLookupPtr package sec option value => { h with ptr := ⟨package, sec, option⟩, value := value }
  | .uciSet => if h.ptr = option then { h with stored := h.value } else h
  | .uciDelete | .uciRevert | .uciLoad _ | .uciUnload _ => { h with stored := none }
  | .uciSetSavedir _ | .uciSave _ _ _ _ | .uciCommit _ => h

def storeOf (option : Names) (calls : List Call) : Store := calls.foldl (Store.call option) .zero

/-- The lookup finds the option complete, with the text `t`. -/
structure Lookup.Finds (l : Lookup) (t : CString) : Prop where
  ret : l.ret = 0
  complete : l.complete = true
  last : l.last = .option (.string t)

/-- The functions that write an `int`, with what they meet beside the lookup of the option. -/
inductive IntWrite where
  | setInt
  | addOptionInt
  | setStateInt (a : Saving)
  | setStateIntEx (revert : Edit) (reverted a : Saving)

def IntWrite.op (p s o : Option CString) (v : Int) (e : Edit) : IntWrite → Op
  | .setInt => .setInt p s o v e
  | .addOptionInt => .addOptionInt p s o v e
  | .setStateInt a => .setStateInt p s o v e a
  | .setStateIntEx revert reverted a => .setStateIntEx p s o v revert reverted e a

/-- The size of the buffer the text is formatted in. -/
def IntWrite.size : IntWrite → Nat
  | .addOptionInt => 64
  | _ => 12

theorem storeOf_append (option : Names) (calls : List Call) (c : Call) :
    storeOf option (calls ++ [c]) = (storeOf option calls).call option c := List.foldl_concat ..

/-- It returns, whatever libuci answers. -/
abbrev Gives {α : Type} (P : Context → Prop) (m : Ucix α) (Q : α → Context → Prop) : Prop :=
  Spec P m Q fun _ => False

abbrev Stores (option : Names) (t : CString) (u : Context) : Prop :=
  (storeOf option u.calls).stored = some t

/-- `ptr` names the option, with the text to be set. -/
structure Points (option : Names) (t : CString) (u : Context) : Prop where
  ptr : (storeOf option u.calls).ptr = option
  value : (storeOf option u.calls).value = some t

variable {option : Names} {text : CString} {e : Edit}

theorem ptr_stores (p : Option Package) :
    Gives (Stores option text) (modify fun u => { u with ptrP := p }) fun _ => Stores option text :=
  spec_modify fun _ stores => stores

theorem ucixGetPtr_stores (p s o t : Option CString) (l : Lookup) :
    Gives (Stores option text) (ucixGetPtr p s o t l) fun _ => Stores option text := by
  have looked : Gives (Stores option text) (call (.uciLookupPtr p s o t)) fun _ => Stores option text := by
    apply spec_modify
    intro u stores
    simpa only [Stores, storeOf_append, Store.call] using stores
  apply spec_bind looked
  intro _
  apply spec_bind (ptr_stores l.p)
  intro _
  exact spec_pure fun _ stores => stores

theorem uciSave_stores (saver : Saver) (p : Option Package) (changed : Bool) :
    Gives (Stores option text) (uciSave saver p changed) fun _ => Stores option text := by
  apply spec_modify
  intro u stores
  simpa only [Stores, storeOf_append, Store.call] using stores

theorem uciSetSavedir_stores (savedir : CString) :
    Gives (Stores option text) (uciSetSavedir savedir) fun _ => Stores option text := by
  apply spec_modify
  intro u stores
  simpa only [Stores, Context.setSavedir, storeOf_append, Store.call] using stores

/-- The save after the set looks another element up, in the same `ptr`. -/
theorem ucixSaveState_stores (package : Option Package) (p : Option CString) (a : Saving) :
    Gives (Stores option text) (ucixSaveState package p a) fun _ => Stores option text := by
  apply ucixSaveState_spec (uciSetSavedir_stores varState)
  · exact ucixGetPtr_stores p none none none a.lookup
  · exact fun p => uciSave_stores _ p a.changed
  · exact fun _ stores => stores

theorem ucixGetPtr_points (p s o : Option CString) (t : CString) (l : Lookup) :
    Gives (fun _ => True) (ucixGetPtr p s o (some t) l) fun ret u => ret = l.ret ∧ Points ⟨p, s, o⟩ t u := by
  intro u _
  refine ⟨rfl, ?_, ?_⟩ <;> simp [storeOf_append, Store.call]

theorem uciSet_stores : Gives (Points option text) (call .uciSet) fun _ => Stores option text := by
  apply spec_modify
  intro u points
  simp [Stores, storeOf_append, Store.call, points.ptr, points.value]

theorem ucixSet_stores (p s o : Option CString) (t : CString) (found : e.found = true) :
    Gives (fun _ => True) (editPtr .uciSet p s o (some t) e)
      fun done u => done = e.found ∧ Stores ⟨p, s, o⟩ t u := by
  apply editPtr_spec (ucixGetPtr_points p s o t e.lookup) uciSet_stores
  · exact fun _ stores => stores
  · intro missing
    rw [found] at missing
    cases missing

theorem ucixSetState_stores (p s o : Option CString) (t : CString) (found : e.found = true) (a : Saving) :
    Gives (fun _ => True) (ucixSetState p s o (some t) e a) fun _ => Stores ⟨p, s, o⟩ t := by
  apply spec_bind (ucixSet_stores p s o t found)
  intro done
  apply spec_fact
  rintro rfl
  rw [if_pos found]
  apply spec_copy
  intro u _
  exact ucixSaveState_stores _ _ _

/-- A revert returns, whatever it met. -/
theorem ucixRevert_returns (p s o : Option CString) (e : Edit) (a : Saving) :
    Gives (fun _ => True) (ucixRevert p s o e a) fun _ _ => True := by
  intro u _
  have before : At u.savedir (writesOf u.calls) u := ⟨rfl, rfl⟩
  obtain ⟨_, u', run, -⟩ := spec_returns (editState_at (f := .uciRevert) rfl p s o none e a) before
  have returned : ucixRevert p s o e a u = .ok () u' := run
  rw [returned]
  trivial

theorem intWrite_stores (p s o : Option CString) (v : Int) (found : e.found = true) (w : IntWrite) :
    Gives (fun _ => True) (ucix (w.op p s o v e)) fun _ => Stores ⟨p, s, o⟩ (printInt w.size v) := by
  have set (n : Nat) : Gives (fun _ => True) (ucixSet p s o (some (printInt n v)) e)
      fun _ => Stores ⟨p, s, o⟩ (printInt n v) :=
    spec_bind (ucixSet_stores p s o _ found) fun _ => spec_pure fun _ stores => stores.2
  cases w with
  | setInt => exact set 12
  | addOptionInt => exact set 64
  | setStateInt a => exact ucixSetState_stores p s o _ found a
  | setStateIntEx revert reverted a =>
    apply spec_bind (ucixRevert_returns p s o revert reverted)
    intro _
    exact ucixSetState_stores p s o _ found a

theorem ucixGetOptionInt_finds (p s o : CString) (dflt : Int) {l : Lookup} {t : CString} (finds : l.Finds t)
    (u : Context) : ∃ u', ucixGetOptionInt (some p) (some s) (some o) dflt l u = .ok (atoi t) u' := by
  have value := ucixGetOption_value p s o l u
  simp only [Newplat.ucixGetOption, finds.ret, finds.complete, finds.last] at value
  exact ⟨_, bind_ok value⟩

end Store

/-- An `int` written to an option is read back from it, whatever the default; with its
terminator the text fits the buffer it is formatted in. -/
theorem option_int_round_trip {v : Int} (fits : FitsInt v) (p s o : CString) {e : Edit}
    (found : e.found = true) (w : IntWrite) (u : Context) :
    (CString.ascii (toString v)).length < w.size ∧
    ∃ u' t, ucix (w.op (some p) (some s) (some o) v e) u = .ok () u' ∧
      (storeOf ⟨some p, some s, some o⟩ u'.calls).stored = some t ∧
      ∀ (l : Lookup) (dflt : Int), l.Finds t →
        ∃ u'', ucixGetOptionInt (some p) (some s) (some o) dflt l u' = .ok v u'' := by
  have room : 12 ≤ w.size := by cases w <;> simp [IntWrite.size]
  have length := ascii_length fits
  refine ⟨by omega, ?_⟩
  obtain ⟨_, u', run, stores⟩ := spec_returns (intWrite_stores (some p) (some s) (some o) v found w) trivial
  refine ⟨u', printInt w.size v, run, stores, ?_⟩
  intro l dflt finds
  rw [← atoi_printInt fits room]
  exact ucixGetOptionInt_finds p s o dflt finds u'

def absentIn (package : Package) : Lookup := ⟨3, some package, false, .other⟩

def setLeast : Op := .setStateIntEx (some (CString.lit "newplat")) (some (CString.lit "mqtt"))
  (some (CString.lit "offset")) (-2147483648) ⟨absentIn 1, 0, some 1⟩ ⟨absentIn 1, false⟩
  ⟨foundIn 1, 0, some 1⟩ ⟨foundIn 1, true⟩

def optionIn (package : Package) (v : CString) : Lookup := ⟨0, some package, true, .option (.string v)⟩

theorem least_int_round_trip : ∃ u t u', ucix setLeast ⟨libuciSavedir, none, []⟩ = .ok () u ∧
    ucixGetOptionInt (some (CString.lit "newplat")) (some (CString.lit "mqtt"))
      (some (CString.lit "offset")) 0 (optionIn 1 t) u = .ok (-2147483648) u' := by
  have fits : FitsInt (-2147483648) := by decide
  have found : (⟨foundIn 1, 0, some 1⟩ : Edit).found = true := by decide
  obtain ⟨-, u, t, run, -, reads⟩ := option_int_round_trip fits (CString.lit "newplat")
    (CString.lit "mqtt") (CString.lit "offset") found
    (.setStateIntEx ⟨absentIn 1, 0, some 1⟩ ⟨absentIn 1, false⟩ ⟨foundIn 1, true⟩)
    ⟨libuciSavedir, none, []⟩
  obtain ⟨u', got⟩ := reads (optionIn 1 t) 0 ⟨rfl, rfl, rfl⟩
  exact ⟨u, t, u', run, got⟩

end Newplat.Uci
