import Newplat.Mqtt

/-! uci.c over one libuci context. What libuci answered is an argument of the operation that
asked; `uci_save` writes to the save directory the context has at that time. -/
namespace Newplat.Uci

open Base

/-- A `struct uci_package *` that is not NULL. -/
abbrev Package := Nat

/-- The two functions that call `uci_save`. -/
inductive Saver where
  | ucixSave
  | ucixSaveState
  deriving DecidableEq

/-- The calls into libuci. -/
inductive Call where
  | uciSetSavedir (savedir : CString)
  | uciLoad (config : CString)
  | uciLookupPtr (package sec option value : Option CString)
  | uciSet
  | uciDelete
  | uciRevert
  | uciSave (saver : Saver) (p : Option Package) (changed : Bool) (savedir : CString)
  | uciCommit (p : Option Package)
  | uciUnload (p : Option Package)

/-- `ptrP` is the package of the static `ptr`; `calls` is history. -/
structure Context where
  savedir : CString
  ptrP : Option Package
  calls : List Call

abbrev Ucix := EStateM Halt Context

def varState : CString := CString.lit "/var/state"

/-- What `uci_lookup_ptr` answered, and what it left in `ptr`. -/
structure Lookup where
  ret : Int
  p : Option Package
  complete : Bool
  last : UciElement

/-- What a function that changes the package meets: the lookup, what libuci then answered, and
the package it left in `ptr`. -/
structure Edit where
  lookup : Lookup
  ret : Int
  p : Option Package

/-- What a save meets: the lookup of the package, when it makes one, and whether the package
has changes to be written. -/
structure Saving where
  lookup : Lookup
  changed : Bool

def call (c : Call) : Ucix Unit := modify fun u => { u with calls := u.calls ++ [c] }

def Context.setSavedir (u : Context) (savedir : CString) : Context :=
  { u with savedir := savedir, calls := u.calls ++ [.uciSetSavedir savedir] }

def uciSetSavedir (savedir : CString) : Ucix Unit := modify fun u => u.setSavedir savedir

def uciSave (saver : Saver) (p : Option Package) (changed : Bool) : Ucix Unit :=
  modify fun u => { u with calls := u.calls ++ [.uciSave saver p changed u.savedir] }

def ucixGetPtr (p s o t : Option CString) (l : Lookup) : Ucix Int := do
  call (.uciLookupPtr p s o t)
  modify fun u => { u with ptrP := l.p }
  return l.ret

/-- `uciSavedir` is libuci's default. -/
def ucixInit (uciSavedir : CString) (uciAllocContext : Bool) (savedir : Option CString) : Option Context :=
  if uciAllocContext = false then none
  else
    let ctx : Context := ⟨uciSavedir, none, []⟩
    match savedir with
    | some savedir => some (ctx.setSavedir savedir)
    | none => some ctx

/-- Whether the context is returned. -/
def ucixLoadConfig (config : Option CString) (ret : Int) : Ucix Bool :=
  match config with
  | some config => do
    call (.uciLoad config)
    return ret = 0
  | none => return true

def ucixSave (p : Option CString) (a : Saving) : Ucix Unit := do
  let ret ← ucixGetPtr p none none none a.lookup
  if ret = 0 then
    let u ← get
    uciSave .ucixSave u.ptrP a.changed
  else pure ()

def ucixSaveState (package : Option Package) (p : Option CString) (a : Saving) : Ucix Unit := do
  uciSetSavedir varState
  match package with
  | some package => uciSave .ucixSaveState (some package) a.changed
  | none => do
    let ret ← ucixGetPtr p none none none a.lookup
    if ret = 0 then
      let u ← get
      uciSave .ucixSaveState u.ptrP a.changed
    else pure ()

def ucixGetOption (p s o : Option CString) (l : Lookup) : Ucix (Option CString) := do
  let ret ← ucixGetPtr p s o none l
  if ret ≠ 0 then return none
  else if l.complete = false then return none
  else
    match l.last with
    | .sectionType type => return some type
    | .option (.string v) => return some v
    | .option .list => return none
    | .other => return none

/-- On names that are not NULL it reads what the start of the program reads. -/
theorem ucixGetOption_value (p s o : CString) (l : Lookup) (u : Context) :
    ucixGetOption (some p) (some s) (some o) l u =
      .ok (Newplat.ucixGetOption (fun _ _ _ => ⟨l.ret, l.complete, l.last⟩) p s o)
        { u with ptrP := l.p, calls := u.calls ++ [.uciLookupPtr (some p) (some s) (some o) none] } := by
  obtain ⟨ret, package, complete, last⟩ := l
  by_cases found : ret = 0
  · cases complete with
    | false => simp [ucixGetOption, ucixGetPtr, call, Newplat.ucixGetOption, found, -bind_pure_comp]
    | true =>
      rcases last with type | (v | _) | _ <;>
        simp [ucixGetOption, ucixGetPtr, call, Newplat.ucixGetOption, found, -bind_pure_comp]
  · simp [ucixGetOption, ucixGetPtr, call, Newplat.ucixGetOption, found, -bind_pure_comp]

def ucixGetOptionInt (p s o : Option CString) (dflt : Int) (l : Lookup) : Ucix Int := do
  let tmp ← ucixGetOption p s o l
  match tmp with
  | some tmp => return atoi tmp
  | none => return dflt

/-- Looks an element up and hands it to libuci: `f` is `uci_set` or `uci_delete`. -/
def editPtr (f : Call) (p s o t : Option CString) (e : Edit) : Ucix Bool := do
  let ret ← ucixGetPtr p s o t e.lookup
  if ret = 0 then
    call f
    modify fun u => { u with ptrP := e.p }
    return true
  else return false

def ucixAddSection (p s t : Option CString) (e : Edit) : Ucix Unit := do
  let _ ← editPtr .uciSet p s none t e

def ucixAddOption (p s o t : Option CString) (e : Edit) : Ucix Unit := do
  let _ ← editPtr .uciSet p s o (some (t.getD CString.empty)) e

/-- `snprintf(tmp, n, "%d", v)`. -/
def printInt (n : Nat) (v : Int) : CString := (CString.ofBuffer (CString.ascii (toString v))).truncate (n - 1)

def ucixAddOptionInt (p s o : Option CString) (t : Int) (e : Edit) : Ucix Unit :=
  ucixAddOption p s o (some (printInt 64 t)) e

def ucixSet (p s o v : Option CString) (e : Edit) : Ucix Unit := do
  let _ ← editPtr .uciSet p s o v e

def ucixSetInt (p s o : Option CString) (v : Int) (e : Edit) : Ucix Unit :=
  ucixSet p s o (some (printInt 12 v)) e

/-- Where the element was found, its package is saved as state. -/
def editState (f : Call) (p s o v : Option CString) (e : Edit) (a : Saving) : Ucix Unit := do
  let found ← editPtr f p s o v e
  if found then
    let u ← get
    ucixSaveState u.ptrP none a
  else pure ()

def ucixSetState (p s o v : Option CString) (e : Edit) (a : Saving) : Ucix Unit :=
  editState .uciSet p s o v e a

def ucixSetStateInt (p s o : Option CString) (v : Int) (e : Edit) (a : Saving) : Ucix Unit :=
  ucixSetState p s o (some (printInt 12 v)) e a

def ucixRevert (p s o : Option CString) (e : Edit) (a : Saving) : Ucix Unit :=
  editState .uciRevert p s o none e a

def ucixSetStateEx (p s o v : Option CString) (revert : Edit) (reverted : Saving) (e : Edit) (a : Saving) :
    Ucix Unit := do
  ucixRevert p s o revert reverted
  ucixSetState p s o v e a

def ucixSetStateIntEx (p s o : Option CString) (v : Int) (revert : Edit) (reverted : Saving) (e : Edit)
    (a : Saving) : Ucix Unit :=
  ucixSetStateEx p s o (some (printInt 12 v)) revert reverted e a

def ucixDelete (p s o : Option CString) (e : Edit) : Ucix Unit := do
  let _ ← editPtr .uciDelete p s o none e

/-- `f` is `uci_commit` or `uci_unload`; its answer is the lookup's second one. -/
def finishPackage (f : Option Package → Call) (p : Option CString) (e : Edit) : Ucix Int := do
  let ret ← ucixGetPtr p none none none e.lookup
  if ret = 0 then
    let u ← get
    call (f u.ptrP)
    modify fun u => { u with ptrP := e.p }
    return e.ret
  else return -1

def ucixCommit (p : Option CString) (e : Edit) : Ucix Int := finishPackage .uciCommit p e

def ucixUnload (p : Option CString) (e : Edit) : Ucix Int := finishPackage .uciUnload p e

/-- The operations on a context, until `ucix_cleanup` frees it. -/
inductive Op where
  | loadConfig (config : Option CString) (ret : Int)
  | save (p : Option CString) (a : Saving)
  | saveState (package : Option Package) (p : Option CString) (a : Saving)
  | getOption (p s o : Option CString) (l : Lookup)
  | getOptionInt (p s o : Option CString) (dflt : Int) (l : Lookup)
  | addSection (p s t : Option CString) (e : Edit)
  | addOption (p s o t : Option CString) (e : Edit)
  | addOptionInt (p s o : Option CString) (t : Int) (e : Edit)
  | set (p s o v : Option CString) (e : Edit)
  | setInt (p s o : Option CString) (v : Int) (e : Edit)
  | setState (p s o v : Option CString) (e : Edit) (a : Saving)
  | setStateInt (p s o : Option CString) (v : Int) (e : Edit) (a : Saving)
  | setStateEx (p s o v : Option CString) (revert : Edit) (reverted : Saving) (e : Edit) (a : Saving)
  | setStateIntEx (p s o : Option CString) (v : Int) (revert : Edit) (reverted : Saving) (e : Edit) (a : Saving)
  | delete (p s o : Option CString) (e : Edit)
  | revert (p s o : Option CString) (e : Edit) (a : Saving)
  | commit (p : Option CString) (e : Edit)
  | unload (p : Option CString) (e : Edit)

def ucix : Op → Ucix Unit
  | .loadConfig config ret => do let _ ← ucixLoadConfig config ret
  | .save p a => ucixSave p a
  | .saveState package p a => ucixSaveState package p a
  | .getOption p s o l => do let _ ← ucixGetOption p s o l
  | .getOptionInt p s o dflt l => do let _ ← ucixGetOptionInt p s o dflt l
  | .addSection p s t e => ucixAddSection p s t e
  | .addOption p s o t e => ucixAddOption p s o t e
  | .addOptionInt p s o t e => ucixAddOptionInt p s o t e
  | .set p s o v e => ucixSet p s o v e
  | .setInt p s o v e => ucixSetInt p s o v e
  | .setState p s o v e a => ucixSetState p s o v e a
  | .setStateInt p s o v e a => ucixSetStateInt p s o v e a
  | .setStateEx p s o v revert reverted e a => ucixSetStateEx p s o v revert reverted e a
  | .setStateIntEx p s o v revert reverted e a => ucixSetStateIntEx p s o v revert reverted e a
  | .delete p s o e => ucixDelete p s o e
  | .revert p s o e a => ucixRevert p s o e a
  | .commit p e => do let _ ← ucixCommit p e
  | .unload p e => do let _ ← ucixUnload p e

def Edit.found (e : Edit) : Bool := e.lookup.ret = 0

/-- The operation gets as far as `ucix_save_state`. -/
def Op.reachesState : Op → Bool
  | .saveState _ _ _ => true
  | .setState _ _ _ _ e _ => e.found
  | .setStateInt _ _ _ _ e _ => e.found
  | .setStateEx _ _ _ _ first _ e _ => first.found || e.found
  | .setStateIntEx _ _ _ _ first _ e _ => first.found || e.found
  | .revert _ _ _ e _ => e.found
  | _ => false

/-- The operation is a `ucix_save` that finds its package, with changes to be written. -/
def Op.saves : Op → Bool
  | .save _ a => a.lookup.ret = 0 && a.lookup.p.isSome && a.changed
  | _ => false

structure Write where
  saver : Saver
  package : Package
  savedir : CString

/-- `uci_save` writes nothing where there is no package or no change. -/
def writesBy (saver : Saver) (p : Option Package) (changed : Bool) (savedir : CString) : List Write :=
  if changed then p.toList.map fun package => ⟨saver, package, savedir⟩ else []

def writesOf (calls : List Call) : List Write := calls.flatMap fun
  | .uciSave saver p changed savedir => writesBy saver p changed savedir
  | _ => []

/-- Every save writes to the place its function stands for. -/
def WritesApart (savedir : CString) (u : Context) : Prop :=
  ∀ w ∈ writesOf u.calls, w.savedir = match w.saver with
    | .ucixSave => savedir
    | .ucixSaveState => varState

/-- The save directory, and what has been written where. -/
structure At (savedir : CString) (writes : List Write) (u : Context) : Prop where
  savedir : u.savedir = savedir
  writes : writesOf u.calls = writes

/-! The two functions that others are made of, for any conditions their steps lead through. -/
section Walks

variable {P R Q : Context → Prop}

theorem ucixSaveState_spec {package : Option Package} {p : Option CString} {a : Saving}
    (moved : Spec P (uciSetSavedir varState) (fun _ => R) fun _ => False)
    (looked : Spec R (ucixGetPtr p none none none a.lookup) (fun _ => R) fun _ => False)
    (saved : ∀ p, Spec R (uciSave .ucixSaveState p a.changed) (fun _ => Q) fun _ => False)
    (unsaved : ∀ u, R u → Q u) : Spec P (ucixSaveState package p a) (fun _ => Q) fun _ => False := by
  apply spec_bind moved
  intro _
  cases package with
  | some package => exact saved _
  | none =>
    apply spec_bind looked
    intro ret
    split
    · apply spec_copy
      intro u _
      exact saved _
    · exact spec_pure unsaved

theorem editPtr_spec {f : Call} {p s o t : Option CString} {e : Edit}
    (looked : Spec P (ucixGetPtr p s o t e.lookup) (fun ret u => ret = e.lookup.ret ∧ R u) fun _ => False)
    (edited : Spec R (call f) (fun _ => Q) fun _ => False) (pointed : ∀ u, Q u → Q { u with ptrP := e.p })
    (missed : e.found = false → ∀ u, R u → Q u) :
    Spec P (editPtr f p s o t e) (fun done u => done = e.found ∧ Q u) fun _ => False := by
  apply spec_bind looked
  intro ret
  apply spec_fact
  rintro rfl
  split
  · rename_i found
    apply spec_bind edited
    intro _
    have stored : Spec Q (modify fun u => { u with ptrP := e.p } : Ucix Unit) (fun _ => Q) fun _ => False :=
      spec_modify pointed
    apply spec_bind stored
    intro _
    exact spec_pure fun _ held => ⟨(decide_eq_true found).symm, held⟩
  · rename_i missing
    have absent : e.found = false := decide_eq_false missing
    exact spec_pure fun u held => ⟨absent.symm, missed absent u held⟩

end Walks

section Steps

variable {d : CString} {ws : List Write}

abbrev Goes (d : CString) (ws : List Write) (m : Ucix Unit) (d' : CString) (ws' : List Write) : Prop :=
  Spec (At d ws) m (fun _ => At d' ws') fun _ => False

theorem call_at {c : Call} (silent : writesOf [c] = []) : Goes d ws (call c) d ws := by
  apply spec_modify
  rintro u ⟨rfl, rfl⟩
  refine ⟨rfl, ?_⟩
  have split : writesOf (u.calls ++ [c]) = writesOf u.calls ++ writesOf [c] := List.flatMap_append
  rw [split, silent, List.append_nil]

theorem ptr_at (p : Option Package) : Goes d ws (modify fun u => { u with ptrP := p }) d ws :=
  spec_modify fun _ held => ⟨held.savedir, held.writes⟩

theorem uciSetSavedir_at (savedir : CString) : Goes d ws (uciSetSavedir savedir) savedir ws := by
  apply spec_modify
  rintro u ⟨-, rfl⟩
  refine ⟨rfl, ?_⟩
  simp [Context.setSavedir, writesOf]

theorem uciSave_at (saver : Saver) (p : Option Package) (changed : Bool) :
    Goes d ws (uciSave saver p changed) d (ws ++ writesBy saver p changed d) := by
  apply spec_modify
  rintro u ⟨rfl, rfl⟩
  refine ⟨rfl, ?_⟩
  simp [writesOf]

/-- After a lookup `ptr` has the package it found. -/
theorem ucixGetPtr_at (p s o t : Option CString) (l : Lookup) : Spec (At d ws) (ucixGetPtr p s o t l)
    (fun ret u => ret = l.ret ∧ u.ptrP = l.p ∧ At d ws u) fun _ => False := by
  apply spec_bind (call_at rfl)
  intro _
  have stored : Spec (At d ws) (modify fun u => { u with ptrP := l.p } : Ucix Unit)
      (fun _ u => u.ptrP = l.p ∧ At d ws u) fun _ => False :=
    spec_modify fun _ held => ⟨rfl, held.savedir, held.writes⟩
  apply spec_bind stored
  intro _
  exact spec_pure fun _ held => ⟨rfl, held⟩

/-- Whatever was there before, `/var/state` is the directory now, and the only one written to. -/
def Stated (ws : List Write) (u : Context) : Prop :=
  ∃ more, (∀ w ∈ more, w.saver = .ucixSaveState ∧ w.savedir = varState) ∧ At varState (ws ++ more) u

theorem stated_nothing {u : Context} (held : At varState ws u) : Stated ws u := by
  refine ⟨[], by simp, ?_⟩
  rwa [List.append_nil]

theorem stated_append {more : List Write} {u : Context}
    (front : ∀ w ∈ more, w.saver = .ucixSaveState ∧ w.savedir = varState) (held : Stated (ws ++ more) u) :
    Stated ws u := by
  obtain ⟨rest, back, held⟩ := held
  refine ⟨more ++ rest, ?_, by rwa [← List.append_assoc]⟩
  intro w member
  rcases List.mem_append.mp member with old | new
  · exact front w old
  · exact back w new

theorem writesBy_mem {saver : Saver} {p : Option Package} {changed : Bool} {w : Write}
    (member : w ∈ writesBy saver p changed d) : w.saver = saver ∧ w.savedir = d := by
  unfold writesBy at member
  split at member
  · obtain ⟨package, -, rfl⟩ := List.mem_map.mp member
    exact ⟨rfl, rfl⟩
  · cases member

theorem stateSave_at (p : Option Package) (changed : Bool) :
    Spec (At varState ws) (uciSave .ucixSaveState p changed) (fun _ => Stated ws) fun _ => False :=
  spec_post (uciSave_at .ucixSaveState p changed) fun _ _ held => ⟨_, fun _ => writesBy_mem, held⟩

theorem ucixSaveState_at (package : Option Package) (p : Option CString) (a : Saving) :
    Spec (At d ws) (ucixSaveState package p a) (fun _ => Stated ws) fun _ => False := by
  apply ucixSaveState_spec (uciSetSavedir_at varState)
  · exact spec_post (ucixGetPtr_at p none none none a.lookup) fun _ _ held => held.2.2
  · exact fun p => stateSave_at p a.changed
  · exact fun _ held => stated_nothing held

def Op.saved (d : CString) : Op → List Write
  | .save _ a => if a.lookup.ret = 0 then writesBy .ucixSave a.lookup.p a.changed d else []
  | _ => []

theorem ucixSave_at (p : Option CString) (a : Saving) :
    Goes d ws (ucixSave p a) d (ws ++ (Op.save p a).saved d) := by
  apply spec_bind (ucixGetPtr_at p none none none a.lookup)
  intro ret
  apply spec_fact
  rintro rfl
  by_cases found : a.lookup.ret = 0
  · simp only [Op.saved, if_pos found]
    apply spec_get
    rintro u ⟨ptr, held⟩
    rw [ptr]
    exact spec_at (uciSave_at .ucixSave _ a.changed) held
  · simp only [Op.saved, if_neg found, List.append_nil]
    exact spec_pure fun _ held => held.2

theorem editPtr_at {f : Call} (silent : writesOf [f] = []) (p s o t : Option CString) (e : Edit) :
    Spec (At d ws) (editPtr f p s o t e) (fun done u => done = e.found ∧ At d ws u) fun _ => False := by
  apply editPtr_spec (R := At d ws) _ (call_at silent)
  · exact fun _ held => ⟨held.savedir, held.writes⟩
  · exact fun _ _ held => held
  · exact spec_post (ucixGetPtr_at p s o t e.lookup) fun _ _ held => ⟨held.1, held.2.2⟩

theorem edit_at {f : Call} (silent : writesOf [f] = []) (p s o t : Option CString) (e : Edit) :
    Goes d ws (do let _ ← editPtr f p s o t e) d ws := by
  apply spec_bind (editPtr_at silent p s o t e)
  intro _
  exact spec_pure fun _ held => held.2

theorem editState_at {f : Call} (silent : writesOf [f] = []) (p s o v : Option CString) (e : Edit) (a : Saving) :
    Spec (At d ws) (editState f p s o v e a) (fun _ u => if e.found then Stated ws u else At d ws u)
      fun _ => False := by
  apply spec_bind (editPtr_at silent p s o v e)
  intro found
  apply spec_fact
  rintro rfl
  split
  · apply spec_copy
    intro u _
    exact ucixSaveState_at _ _ _
  · exact spec_pure fun _ held => held

theorem ucixSetStateEx_at (p s o v : Option CString) (revert : Edit) (reverted : Saving) (e : Edit) (a : Saving) :
    Spec (At d ws) (ucixSetStateEx p s o v revert reverted e a)
      (fun _ u => if revert.found || e.found then Stated ws u else At d ws u) fun _ => False := by
  apply spec_bind (editState_at rfl p s o none revert reverted)
  intro _
  cases first : revert.found with
  | false => exact editState_at rfl p s o v e a
  | true =>
    apply spec_exists
    intro more
    apply spec_fact
    intro front
    apply spec_post (editState_at rfl p s o v e a)
    intro _ u
    split
    · exact stated_append front
    · exact fun held => ⟨more, front, held⟩

theorem ucixGetOption_at (p s o : Option CString) (l : Lookup) :
    Spec (At d ws) (ucixGetOption p s o l) (fun _ => At d ws) fun _ => False := by
  apply spec_bind (ucixGetPtr_at p s o none l)
  intro ret
  apply spec_from (P := At d ws) _ fun _ held => held.2.2
  split
  · exact spec_pure fun _ held => held
  split
  · exact spec_pure fun _ held => held
  split <;> exact spec_pure fun _ held => held

theorem finishPackage_at {f : Option Package → Call} (silent : ∀ p, writesOf [f p] = []) (p : Option CString)
    (e : Edit) : Goes d ws (do let _ ← finishPackage f p e) d ws := by
  simp only [finishPackage, bind_assoc]
  apply spec_bind (ucixGetPtr_at p none none none e.lookup)
  intro ret
  apply spec_from (P := At d ws) _ fun _ held => held.2.2
  split
  · simp only [bind_assoc]
    apply spec_copy
    intro u _
    apply spec_bind (call_at (silent _))
    intro _
    apply spec_bind (ptr_at e.p)
    intro _
    exact spec_pure fun _ held => held
  · exact spec_pure fun _ held => held

/-- What one operation does to the save directory, and what it writes. -/
theorem ucix_step (op : Op) : Spec (At d ws) (ucix op)
    (fun _ u => if op.reachesState then Stated ws u else At d (ws ++ op.saved d) u) fun _ => False := by
  have nothing : ws ++ [] = ws := List.append_nil ws
  cases op with
  | loadConfig config ret =>
    cases config with
    | none => exact spec_pure fun _ held => nothing.symm ▸ held
    | some config =>
      apply spec_bind (R := fun _ => At d (ws ++ [])) (Q := fun _ => At d ws)
      · exact spec_bind (call_at rfl) fun _ => spec_pure fun _ held => held
      · exact fun _ => spec_pure fun _ held => nothing.symm ▸ held
  | save p a => exact ucixSave_at p a
  | saveState package p a => exact ucixSaveState_at package p a
  | getOption p s o l =>
    exact spec_bind (ucixGetOption_at p s o l) fun _ => spec_pure fun _ held => nothing.symm ▸ held
  | getOptionInt p s o dflt l =>
    apply spec_bind (Q := fun _ => At d ws)
    · apply spec_bind (ucixGetOption_at p s o l)
      intro tmp
      cases tmp <;> exact spec_pure fun _ held => held
    · exact fun _ => spec_pure fun _ held => nothing.symm ▸ held
  | addSection p s t e => exact nothing.symm ▸ edit_at rfl p s none t e
  | addOption p s o t e => exact nothing.symm ▸ edit_at rfl p s o _ e
  | addOptionInt p s o t e => exact nothing.symm ▸ edit_at rfl p s o _ e
  | set p s o v e => exact nothing.symm ▸ edit_at rfl p s o v e
  | setInt p s o v e => exact nothing.symm ▸ edit_at rfl p s o _ e
  | setState p s o v e a => exact nothing.symm ▸ editState_at rfl p s o v e a
  | setStateInt p s o v e a => exact nothing.symm ▸ editState_at rfl p s o _ e a
  | setStateEx p s o v revert reverted e a => exact nothing.symm ▸ ucixSetStateEx_at p s o v revert reverted e a
  | setStateIntEx p s o v revert reverted e a =>
    exact nothing.symm ▸ ucixSetStateEx_at p s o _ revert reverted e a
  | delete p s o e => exact nothing.symm ▸ edit_at rfl p s o none e
  | revert p s o e a => exact nothing.symm ▸ editState_at rfl p s o none e a
  | commit p e => exact nothing.symm ▸ finishPackage_at (fun _ => rfl) p e
  | unload p e => exact nothing.symm ▸ finishPackage_at (fun _ => rfl) p e

end Steps

section Runs

variable {c d : CString} {ws more : List Write}

def Apart (c : CString) (ws : List Write) : Prop :=
  ∀ w ∈ ws, w.savedir = match w.saver with
    | .ucixSave => c
    | .ucixSaveState => varState

theorem apart_append : Apart c (ws ++ more) ↔ Apart c ws ∧ Apart c more := List.forall_mem_append

theorem apart_stated (stated : ∀ w ∈ more, w.saver = .ucixSaveState ∧ w.savedir = varState) : Apart c more := by
  intro w member
  obtain ⟨saver, savedir⟩ := stated w member
  rw [saver, savedir]

theorem apart_saved (op : Op) : Apart c (op.saved d) ↔ (op.saves = true → d = c) := by
  cases op with
  | save p a =>
    by_cases found : a.lookup.ret = 0
    · cases package : a.lookup.p <;> cases changed : a.changed <;>
        simp [Op.saved, Op.saves, writesBy, found, package, changed, Apart]
    · simp [Op.saved, Op.saves, found, Apart]
  | _ => simp [Op.saved, Op.saves, Apart]

/-- Every save that writes finds the chosen directory, when `d` is the first one. -/
def Undisturbed (c : CString) : CString → List Op → Prop
  | _, [] => True
  | d, op :: ops => (op.saves = true → d = c) ∧ Undisturbed c (if op.reachesState then varState else d) ops

theorem ucix_run (ops : List Op) : Spec (At d ws) (runAll ucix ops)
    (fun _ u => ∃ more, writesOf u.calls = ws ++ more ∧ (Apart c more ↔ Undisturbed c d ops)) fun _ => False := by
  induction ops generalizing d ws with
  | nil =>
    apply spec_pure
    intro u held
    refine ⟨[], by rw [held.writes, List.append_nil], ?_⟩
    simp [Apart, Undisturbed]
  | cons op ops ih =>
    -- What the first operation wrote is right exactly when its condition holds; the rest starts after it.
    have after (d' : CString) (first : List Write) (right : Apart c first ↔ (op.saves = true → d = c)) :
        Spec (At d' (ws ++ first)) (runAll ucix ops) (fun _ u => ∃ more, writesOf u.calls = ws ++ more ∧
          (Apart c more ↔ (op.saves = true → d = c) ∧ Undisturbed c d' ops)) fun _ => False := by
      apply spec_post (@ih d' (ws ++ first))
      rintro _ u ⟨rest, written, rest_right⟩
      refine ⟨first ++ rest, by rw [written, List.append_assoc], ?_⟩
      rw [apart_append, right, rest_right]
    rw [runAll]
    apply spec_bind (ucix_step op)
    intro _
    cases reached : op.reachesState with
    | false =>
      simp only [Undisturbed, reached, Bool.false_eq_true, if_false]
      exact after d (op.saved d) (apart_saved op)
    | true =>
      simp only [Undisturbed, reached, if_true]
      apply spec_exists
      intro first
      apply spec_fact
      intro stated
      apply after varState first
      have other : op.saves = false := by
        cases op with
        | save p a => cases reached
        | _ => rfl
      simp [apart_stated stated, other]

theorem undisturbed_state (ops : List Op) :
    Undisturbed c varState ops ↔ ∀ op ∈ ops, op.saves = true → varState = c := by
  induction ops with
  | nil => simp [Undisturbed]
  | cons op ops ih => simp [Undisturbed, ih]

/-- No save that writes comes after an operation that got as far as `ucix_save_state`. -/
def SavesFirst (ops : List Op) : Prop :=
  ops.Pairwise fun before later => before.reachesState = true → later.saves = false

instance (ops : List Op) : Decidable (SavesFirst ops) :=
  inferInstanceAs (Decidable (ops.Pairwise fun before later => before.reachesState = true → later.saves = false))

theorem undisturbed_chosen (ops : List Op) : Undisturbed c c ops ↔ c = varState ∨ SavesFirst ops := by
  induction ops with
  | nil => simp [Undisturbed, SavesFirst]
  | cons op ops ih =>
    cases reached : op.reachesState with
    | false => simp [Undisturbed, SavesFirst, reached, ih]
    | true =>
      have first : Undisturbed c c (op :: ops) ↔ ∀ op ∈ ops, op.saves = true → varState = c := by
        simp [Undisturbed, reached, undisturbed_state]
      have rest : SavesFirst (op :: ops) ↔ (∀ later ∈ ops, later.saves = false) ∧ SavesFirst ops := by
        simp [SavesFirst, reached]
      rw [first, rest]
      constructor
      · intro places
        by_cases same : c = varState
        · exact Or.inl same
        · have none : ∀ later ∈ ops, later.saves = false := by
            intro later member
            by_contra writes
            exact same (places later member (by simpa using writes)).symm
          exact Or.inr ⟨none, List.pairwise_of_forall_mem_list fun _ _ later member _ => none later member⟩
      · rintro (same | ⟨none, -⟩) later member writes
        · exact same.symm
        · rw [none later member] at writes
          cases writes

theorem ucixInit_at {uciSavedir : CString} {alloc : Bool} {savedir : Option CString} {u : Context}
    (made : ucixInit uciSavedir alloc savedir = some u) : At (savedir.getD uciSavedir) [] u := by
  unfold ucixInit at made
  split at made
  · cases made
  · cases savedir <;> cases made <;> exact ⟨rfl, rfl⟩

/-- Each of the two functions keeps to its own directory exactly when `ucix_init` was given
`/var/state`, or no save that writes comes after an operation that saved a state. -/
theorem saves_apart_iff {uciSavedir : CString} {alloc : Bool} {savedir : Option CString} {u : Context}
    (made : ucixInit uciSavedir alloc savedir = some u) (ops : List Op) :
    ∃ u', runAll ucix ops u = .ok () u' ∧
      (WritesApart (savedir.getD uciSavedir) u' ↔ savedir.getD uciSavedir = varState ∨ SavesFirst ops) := by
  obtain ⟨_, u', run, more, written, right⟩ := spec_returns (ucix_run ops) (ucixInit_at made)
  refine ⟨u', run, ?_⟩
  rw [← undisturbed_chosen, ← right, WritesApart, written]
  rfl

end Runs

def libuciSavedir : CString := CString.lit "/tmp/.uci"

def foundIn (package : Package) : Lookup := ⟨0, some package, true, .other⟩

def setConnected : Op := .setState (some (CString.lit "newplat")) (some (CString.lit "mqtt"))
  (some (CString.lit "connected")) (some (CString.lit "1")) ⟨foundIn 1, 0, some 1⟩ ⟨foundIn 1, true⟩

def setHost : Op := .set (some (CString.lit "newplat")) (some (CString.lit "mqtt"))
  (some (CString.lit "host")) (some (CString.lit "10.0.0.1")) ⟨foundIn 1, 0, some 1⟩

def saveNewplat : Op := .save (some (CString.lit "newplat")) ⟨foundIn 1, true⟩

theorem saves_then_states_apart : ∃ u u', ucixInit libuciSavedir true none = some u ∧
    runAll ucix [setHost, saveNewplat, setConnected] u = .ok () u' ∧ WritesApart libuciSavedir u' := by
  have made : ucixInit libuciSavedir true none = some ⟨libuciSavedir, none, []⟩ := rfl
  obtain ⟨u', run, apart⟩ := saves_apart_iff made [setHost, saveNewplat, setConnected]
  exact ⟨_, u', rfl, run, apart.mpr (Or.inr (by decide))⟩

theorem save_after_state_misplaced : ∃ u u', ucixInit libuciSavedir true none = some u ∧
    runAll ucix [setConnected, setHost, saveNewplat] u = .ok () u' ∧ ¬ WritesApart libuciSavedir u' := by
  refine ⟨_, _, rfl, rfl, ?_⟩
  intro apart
  have place : varState = libuciSavedir :=
    apart ⟨.ucixSave, 1, varState⟩ (List.mem_cons_of_mem _ List.mem_cons_self)
  exact absurd place (by decide)

end Newplat.Uci
