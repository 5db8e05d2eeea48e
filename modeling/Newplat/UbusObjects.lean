import Newplat.Base.Heap

/-! The publishing side of serv_ubus.c: the table of methods and the list of events that grow
with every registration, and what the connect callback makes of them. -/
namespace Newplat

open Base

/-- A pointer to a function or to a policy table, when it is not NULL. -/
abbrev Pointer := Option Nat

structure UbusMethod where
  name : Option CString
  handler : Pointer
  mask : Nat
  tags : Nat
  policy : Pointer
  nPolicy : Int

def UbusMethod.zero : UbusMethod := ⟨none, none, 0, 0, none, 0⟩

structure UbusObjectType where
  name : Option CString
  id : Nat
  methods : Option Nat
  nMethods : Int

structure UbusObject where
  name : Option CString
  type : Option UbusObjectType
  methods : Option Nat
  nMethods : Int

/-- `struct event_item_s`; `cb` is the handler behind its `ev`. -/
structure EventItem where
  pattern : Option CString
  cb : Pointer

inductive BusCall where
  | ubusAddUloop (ctx : Nat)
  | ubusAddObject (ctx : Nat)
  | ubusRegisterEventHandler (ctx : Nat) (ev : EventItem)

/-- The file's statics, the heap its tables live on, and the calls to libubus. The object that
`ubus_add_object` was given is the static one. -/
structure Registry where
  ubusName : Option CString
  ubusCtx : Option Nat
  tables : Heap UbusMethod
  mainObjectMethods : Option Nat
  mainObjectMethodsSize : Int
  mainObject : UbusObject
  eventList : List EventItem
  calls : List BusCall

def Registry.start (ubusName : Option CString) : Registry :=
  ⟨ubusName, none, .empty, none, 0, ⟨none, none, none, 0⟩, [], []⟩

/-- What `realloc` did: whether the table moved, and what its new cell held. -/
structure Realloc where
  moves : Bool
  fresh : UbusMethod

/-- The new size of the table, and where it is. -/
def growMethods (i : Realloc) (r : Registry) : Checked (Int × Nat × Heap UbusMethod) :=
  if r.mainObjectMethodsSize ≤ 0 then
    let (methods, tables) := r.tables.alloc [UbusMethod.zero]
    .ok (1, methods, tables)
  else do
    let size ← int (r.mainObjectMethodsSize + 1)
    let (methods, tables) ← r.tables.realloc r.mainObjectMethods size.toNat i.fresh i.moves
    return (size, methods, tables)

def addUbusMethod (name : Option CString) (handler policy : Pointer) (nPolicy : Int) (i : Realloc)
    (r : Registry) : Checked Registry := do
  let (size, methods, tables) ← growMethods i r
  let tables ← tables.store methods (size - 1).toNat ⟨name, handler, 0, 0, policy, nPolicy⟩
  return { r with tables := tables, mainObjectMethods := some methods, mainObjectMethodsSize := size }

def regUbusEvent (pattern : Option CString) (handler : Pointer) (r : Registry) : Registry :=
  { r with eventList := r.eventList ++ [⟨pattern, handler⟩] }

def getObjectType (r : Registry) : UbusObjectType :=
  ⟨r.ubusName, 0, r.mainObjectMethods, r.mainObjectMethodsSize⟩

def getMainObject (r : Registry) : UbusObject :=
  ⟨r.ubusName, some (getObjectType r), r.mainObjectMethods, r.mainObjectMethodsSize⟩

def ubusConnectHandler (ctx : Nat) (r : Registry) : Registry :=
  { r with
    ubusCtx := some ctx
    mainObject := getMainObject r
    calls := r.calls ++ [.ubusAddUloop ctx, .ubusAddObject ctx] ++
      r.eventList.map fun e => .ubusRegisterEventHandler ctx e }

inductive Registration where
  | addUbusMethod (name : Option CString) (handler policy : Pointer) (nPolicy : Int) (i : Realloc)
  | regUbusEvent (pattern : Option CString) (handler : Pointer)

def register (r : Registry) : Registration → Checked Registry
  | .addUbusMethod name handler policy nPolicy i => addUbusMethod name handler policy nPolicy i r
  | .regUbusEvent pattern handler => .ok (regUbusEvent pattern handler r)

/-- The methods a caller has registered, in order, each with what it was given. -/
def methodsOf (regs : List Registration) : List UbusMethod :=
  regs.filterMap fun
    | .addUbusMethod name handler policy nPolicy _ => some ⟨name, handler, 0, 0, policy, nPolicy⟩
    | .regUbusEvent _ _ => none

def eventsOf (regs : List Registration) : List EventItem :=
  regs.filterMap fun
    | .addUbusMethod _ _ _ _ _ => none
    | .regUbusEvent pattern handler => some ⟨pattern, handler⟩

/-- The methods an object offers: the first cells of a table that is still there. -/
def Registry.offers (r : Registry) (o : UbusObject) : Option (List UbusMethod) :=
  match o.methods with
  | none => if o.nMethods = 0 then some [] else none
  | some p =>
    match r.tables.block p with
    | none => none
    | some cells => if o.nMethods ≤ cells.length then some (cells.take o.nMethods.toNat) else none

def handledOf (calls : List BusCall) : List EventItem :=
  calls.filterMap fun
    | .ubusRegisterEventHandler _ ev => some ev
    | _ => none

/-- The published object offers exactly the registered methods, and each registered event was
handed to libubus once. -/
structure Tracks (regs : List Registration) (r : Registry) : Prop where
  methods : r.offers r.mainObject = some (methodsOf regs)
  events : (handledOf r.calls).Perm (eventsOf regs)

/-- Registrations, the connect callback, and more registrations. -/
def runBus (ubusName : Option CString) (ctx : Nat) (before later : List Registration) : Checked Registry := do
  let r ← before.foldlM register (.start ubusName)
  later.foldlM register (ubusConnectHandler ctx r)

/-- From the connect callback on, every step returns and leaves the bus up to date. -/
def UpToDate (ubusName : Option CString) (ctx : Nat) (before later : List Registration) : Prop :=
  ∀ done, done <+: later → ∃ r, runBus ubusName ctx before done = .ok r ∧ Tracks (before ++ done) r

section Registering

variable {regs later : List Registration} {r r' : Registry}

/-- What the statics hold when these registrations have been made. -/
structure Registered (regs : List Registration) (r : Registry) : Prop where
  size : r.mainObjectMethodsSize = (methodsOf regs).length
  table : (methodsOf regs = [] ∧ r.mainObjectMethods = none) ∨
    ∃ p, r.mainObjectMethods = some p ∧ r.tables.block p = some (methodsOf regs)
  events : r.eventList = eventsOf regs
  calls : r.calls = []

theorem start_registered (ubusName : Option CString) : Registered [] (.start ubusName) :=
  ⟨rfl, Or.inl ⟨rfl, rfl⟩, rfl, rfl⟩

/-- The size of the table is an `int`. -/
def Countable (regs : List Registration) : Prop := (methodsOf regs).length ≤ 2147483647

theorem methodsOf_append (regs later : List Registration) :
    methodsOf (regs ++ later) = methodsOf regs ++ methodsOf later := List.filterMap_append

theorem eventsOf_append (regs later : List Registration) :
    eventsOf (regs ++ later) = eventsOf regs ++ eventsOf later := List.filterMap_append

theorem countable_front (count : Countable (regs ++ later)) : Countable regs := by
  rw [Countable, methodsOf_append, List.length_append] at count
  exact (Nat.le_add_right _ _).trans count

/-- The table grows by one cell, behind the methods it holds. -/
theorem growMethods_registered (held : Registered regs r) (i : Realloc)
    (room : (methodsOf regs).length < 2147483647) :
    ∃ p tables cells, growMethods i r = .ok ((methodsOf regs).length + 1, p, tables) ∧
      tables.block p = some cells ∧ cells.length = (methodsOf regs).length + 1 ∧
      ∀ m, cells.set (methodsOf regs).length m = methodsOf regs ++ [m] := by
  by_cases none : methodsOf regs = []
  · have size : r.mainObjectMethodsSize ≤ 0 := by simp [held.size, none]
    refine ⟨_, _, [UbusMethod.zero], ?_, Heap.block_alloc r.tables _, by simp [none], by simp [none]⟩
    simp [growMethods, size, none]
  · have positive : 0 < (methodsOf regs).length := List.length_pos_iff.mpr none
    have size : ¬ r.mainObjectMethodsSize ≤ 0 := by
      rw [held.size]
      omega
    have counted : int (r.mainObjectMethodsSize + 1) = .ok ((methodsOf regs).length + 1) := by
      rw [held.size]
      exact int_ok (by omega) (by omega)
    rcases held.table with ⟨empty, -⟩ | ⟨p, pointer, block⟩
    · exact absurd empty none
    obtain ⟨q, tables, grown, there⟩ := Heap.realloc_block block ((methodsOf regs).length + 1) i.fresh i.moves
    refine ⟨q, tables, _, ?_, there, Heap.resize_length _ _, Heap.resize_set _ _⟩
    have whole : ((methodsOf regs).length + 1 : Int).toNat = (methodsOf regs).length + 1 := by omega
    simp [growMethods, size, counted, pointer, whole, grown]

theorem growMethods_full (held : Registered regs r) (i : Realloc) (full : 2147483647 ≤ (methodsOf regs).length) :
    growMethods i r = .error .overflow := by
  have size : ¬ r.mainObjectMethodsSize ≤ 0 := by
    rw [held.size]
    omega
  have counted : int (r.mainObjectMethodsSize + 1) = .error .overflow := by
    rw [held.size]
    exact if_neg (by omega)
  simp [growMethods, size, counted, bind, Except.bind]

theorem addUbusMethod_registered (held : Registered regs r) (name : Option CString) (handler policy : Pointer)
    (nPolicy : Int) (i : Realloc) (room : (methodsOf regs).length < 2147483647) :
    ∃ r', addUbusMethod name handler policy nPolicy i r = .ok r' ∧
      Registered (regs ++ [.addUbusMethod name handler policy nPolicy i]) r' := by
  have methods : methodsOf (regs ++ [.addUbusMethod name handler policy nPolicy i]) =
      methodsOf regs ++ [⟨name, handler, 0, 0, policy, nPolicy⟩] := methodsOf_append _ _
  have events : eventsOf (regs ++ [.addUbusMethod name handler policy nPolicy i]) = eventsOf regs := by
    rw [eventsOf_append]
    exact List.append_nil _
  obtain ⟨p, tables, cells, grown, block, size, filled⟩ := growMethods_registered held i room
  obtain ⟨tables', stored, kept⟩ := Heap.store_block block (i := (methodsOf regs).length) (by omega)
    ⟨name, handler, 0, 0, policy, nPolicy⟩
  refine ⟨{ r with
    tables := tables'
    mainObjectMethods := some p
    mainObjectMethodsSize := (methodsOf regs).length + 1 }, ?_, ?_, Or.inr ⟨p, rfl, ?_⟩, ?_, held.calls⟩
  · simp [addUbusMethod, grown, stored]
  · simp [methods]
  · rw [methods, ← filled]
    exact kept
  · rw [events]
    exact held.events

theorem register_registered (held : Registered regs r) (x : Registration) (count : Countable (regs ++ [x])) :
    ∃ r', register r x = .ok r' ∧ Registered (regs ++ [x]) r' := by
  rw [Countable, methodsOf_append, List.length_append] at count
  cases x with
  | addUbusMethod name handler policy nPolicy i =>
    have one : (methodsOf [.addUbusMethod name handler policy nPolicy i]).length = 1 := rfl
    exact addUbusMethod_registered held name handler policy nPolicy i (by omega)
  | regUbusEvent pattern handler =>
    have methods : methodsOf (regs ++ [.regUbusEvent pattern handler]) = methodsOf regs := by
      rw [methodsOf_append]
      exact List.append_nil _
    refine ⟨_, rfl, ?_, ?_, ?_, held.calls⟩
    · rw [methods]
      exact held.size
    · rw [methods]
      exact held.table
    · rw [eventsOf_append, ← held.events]
      rfl

theorem register_full (held : Registered regs r) (x : Registration) (count : Countable regs)
    (full : ¬ Countable (regs ++ [x])) : register r x = .error .overflow := by
  rw [Countable] at count full
  rw [methodsOf_append, List.length_append] at full
  cases x with
  | addUbusMethod name handler policy nPolicy i =>
    have one : (methodsOf [.addUbusMethod name handler policy nPolicy i]).length = 1 := rfl
    have grown : growMethods i r = .error .overflow := growMethods_full held i (by omega)
    simp [register, addUbusMethod, grown, bind, Except.bind]
  | regUbusEvent pattern handler => exact absurd count full

/-- Registering returns as long as the methods can be counted, and then the statics hold them. -/
theorem registers_registered (held : Registered regs r) (later : List Registration) (count : Countable regs) :
    (Countable (regs ++ later) ∧ ∃ r', later.foldlM register r = .ok r' ∧ Registered (regs ++ later) r') ∨
      (¬ Countable (regs ++ later) ∧ later.foldlM register r = .error .overflow) := by
  induction later generalizing regs r with
  | nil => exact Or.inl ⟨by rwa [List.append_nil], r, rfl, by rwa [List.append_nil]⟩
  | cons x later ih =>
    rw [List.append_cons, List.foldlM_cons]
    by_cases next : Countable (regs ++ [x])
    · obtain ⟨r', step, held'⟩ := register_registered held x next
      rw [step, ok_bind]
      exact ih held' next
    · refine Or.inr ⟨fun all => next (countable_front all), ?_⟩
      rw [register_full held x count next]
      rfl

end Registering

section Connected

variable {regs : List Registration} {r r' : Registry}

theorem handledOf_events (ctx : Nat) (events : List EventItem) :
    handledOf (events.map fun e => .ubusRegisterEventHandler ctx e) = events := by
  induction events with
  | nil => rfl
  | cons e events ih => simp [handledOf]

theorem connect_handled (held : Registered regs r) (ctx : Nat) :
    handledOf (ubusConnectHandler ctx r).calls = eventsOf regs := by
  rw [← held.events, ← handledOf_events ctx r.eventList]
  simp [ubusConnectHandler, held.calls, handledOf]

theorem connect_tracks (held : Registered regs r) (ctx : Nat) : Tracks regs (ubusConnectHandler ctx r) := by
  constructor
  · rcases held.table with ⟨none, pointer⟩ | ⟨p, pointer, block⟩
    · have size : r.mainObjectMethodsSize = 0 := by simp [held.size, none]
      simp [Registry.offers, ubusConnectHandler, getMainObject, pointer, size, none]
    · simp [Registry.offers, ubusConnectHandler, getMainObject, pointer, block, held.size]
  · rw [connect_handled held]

/-- A registration never touches the published object, nor anything handed to libubus. -/
theorem register_published {x : Registration} (returns : register r x = .ok r') :
    r'.mainObject = r.mainObject ∧ r'.calls = r.calls := by
  cases x with
  | addUbusMethod name handler policy nPolicy i =>
    simp only [register, addUbusMethod] at returns
    cases grown : growMethods i r with
    | error e =>
      rw [grown] at returns
      cases returns
    | ok result =>
      obtain ⟨size, methods, tables⟩ := result
      rw [grown, ok_bind] at returns
      cases stored : tables.store methods (size - 1).toNat ⟨name, handler, 0, 0, policy, nPolicy⟩ with
      | error e =>
        rw [stored] at returns
        cases returns
      | ok tables' =>
        rw [stored, ok_bind] at returns
        cases returns
        exact ⟨rfl, rfl⟩
  | regUbusEvent pattern handler =>
    cases returns
    exact ⟨rfl, rfl⟩

theorem offers_length {o : UbusObject} {ms : List UbusMethod} (offered : r.offers o = some ms) :
    ms.length ≤ o.nMethods.toNat := by
  unfold Registry.offers at offered
  split at offered
  · split at offered
    · cases offered
      exact Nat.zero_le _
    · cases offered
  split at offered
  · cases offered
  split at offered
  · cases offered
    exact List.length_take_le _ _
  · cases offered

/-- Whatever is registered after the connect callback, the bus does not learn of it. -/
theorem late_stale (held : Registered regs r) {ctx : Nat} {x : Registration}
    (returns : register (ubusConnectHandler ctx r) x = .ok r') : ¬ Tracks (regs ++ [x]) r' := by
  rintro ⟨methods, events⟩
  obtain ⟨object, calls⟩ := register_published returns
  cases x with
  | addUbusMethod name handler policy nPolicy i =>
    have one : (methodsOf [.addUbusMethod name handler policy nPolicy i]).length = 1 := rfl
    have short := offers_length methods
    have size : r'.mainObject.nMethods = (methodsOf regs).length := by
      rw [object]
      exact held.size
    rw [size, methodsOf_append, List.length_append, one] at short
    omega
  | regUbusEvent pattern handler =>
    have one : (eventsOf [.regUbusEvent pattern handler]).length = 1 := rfl
    have same := events.length_eq
    rw [calls, connect_handled held, eventsOf_append, List.length_append, one] at same
    omega

end Connected

/-- From the connect callback on the bus is up to date exactly when nothing is registered after
it, and the methods before it can be counted in an `int`. -/
theorem up_to_date_iff (ubusName : Option CString) (ctx : Nat) (before later : List Registration) :
    UpToDate ubusName ctx before later ↔ later = [] ∧ (methodsOf before).length ≤ 2147483647 := by
  have registered := registers_registered (start_registered ubusName) before (Nat.zero_le _)
  rw [List.nil_append] at registered
  constructor
  · intro upToDate
    rcases registered with ⟨count, r, run, held⟩ | ⟨-, run⟩
    · refine ⟨?_, count⟩
      cases later with
      | nil => rfl
      | cons x later =>
        obtain ⟨r', returns, tracks⟩ := upToDate [x] ⟨later, rfl⟩
        rw [runBus, run, ok_bind, List.foldlM_cons] at returns
        cases step : register (ubusConnectHandler ctx r) x with
        | error e =>
          rw [step] at returns
          cases returns
        | ok stale =>
          rw [step, ok_bind] at returns
          cases returns
          exact absurd tracks (late_stale held step)
    · obtain ⟨r, returns, -⟩ := upToDate [] List.nil_prefix
      rw [runBus, run] at returns
      cases returns
  · rintro ⟨rfl, count⟩ done front
    obtain rfl := List.prefix_nil.mp front
    rcases registered with ⟨-, r, run, held⟩ | ⟨full, -⟩
    · refine ⟨ubusConnectHandler ctx r, ?_, ?_⟩
      · rw [runBus, run]
        rfl
      · rw [List.append_nil]
        exact connect_tracks held ctx
    · exact absurd count full

/-- The `echo` method, and the one the program would add while it runs. -/
def echoMethod : Registration := .addUbusMethod (some (CString.lit "echo")) (some 1) (some 2) 1 ⟨false, .zero⟩

def statusMethod : Registration := .addUbusMethod (some (CString.lit "status")) (some 3) none 0 ⟨true, .zero⟩

theorem status_unpublished : ¬ UpToDate (some (CString.lit "newplat")) 1 [echoMethod] [statusMethod] := by
  intro upToDate
  obtain ⟨r, returns, tracks⟩ := upToDate [statusMethod] (List.prefix_refl _)
  cases returns
  cases tracks.methods

end Newplat
