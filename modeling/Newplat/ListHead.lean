import Newplat.Base.Rings
import Newplat.Base.Runs

/-! The linked lists of list.h, a `struct list_head` in every node. The functions read and write
the links of nodes that exist; on a node that was freed they halt. -/
namespace Newplat.ListHead

open Base Links

variable {α : Type} [DecidableEq α]

abbrev ListProg (α β : Type) := EStateM Halt (Links α) β

def readNext (p : α) : ListProg α α := do
  let m ← get
  match m.nextOf p with
  | some q => return q
  | none => throw .outOfBounds

def readPrev (p : α) : ListProg α α := do
  let m ← get
  match m.prevOf p with
  | some q => return q
  | none => throw .outOfBounds

def writeNext (p q : α) : ListProg α Unit := do
  let m ← get
  if (m p).isSome then modify fun m => m.setNext p q
  else throw .outOfBounds

def writePrev (p q : α) : ListProg α Unit := do
  let m ← get
  if (m p).isSome then modify fun m => m.setPrev p q
  else throw .outOfBounds

def initListHead (list : α) : ListProg α Unit := do
  writeNext list list
  writePrev list list

def __listAdd (new prev next : α) : ListProg α Unit := do
  writePrev next new
  writeNext new next
  writePrev new prev
  writeNext prev new

def listAdd (new head : α) : ListProg α Unit := do
  let next ← readNext head
  __listAdd new head next

def listAddTail (new head : α) : ListProg α Unit := do
  let prev ← readPrev head
  __listAdd new prev head

def __listDel (prev next : α) : ListProg α Unit := do
  writePrev next prev
  writeNext prev next

def __listDelEntry (entry : α) : ListProg α Unit := do
  let prev ← readPrev entry
  let next ← readNext entry
  __listDel prev next

def listDel (entry : α) : ListProg α Unit := do
  let prev ← readPrev entry
  let next ← readNext entry
  __listDel prev next

/-- The links of the new node are read back after they were written. -/
def listReplace (old new : α) : ListProg α Unit := do
  let oldNext ← readNext old
  writeNext new oldNext
  let newNext ← readNext new
  writePrev newNext new
  let oldPrev ← readPrev old
  writePrev new oldPrev
  let newPrev ← readPrev new
  writeNext newPrev new

def listReplaceInit (old new : α) : ListProg α Unit := do
  listReplace old new
  initListHead old

def listDelInit (entry : α) : ListProg α Unit := do
  __listDelEntry entry
  initListHead entry

def listMove (list head : α) : ListProg α Unit := do
  __listDelEntry list
  listAdd list head

def listMoveTail (list head : α) : ListProg α Unit := do
  __listDelEntry list
  listAddTail list head

def listIsLast (list head : α) : ListProg α Bool := do
  let next ← readNext list
  return next = head

def listEmpty (head : α) : ListProg α Bool := do
  let next ← readNext head
  return next = head

def listEmptyCareful (head : α) : ListProg α Bool := do
  let next ← readNext head
  if next = head then
    let prev ← readPrev head
    return next = prev
  else return false

def listRotateLeft (head : α) : ListProg α Unit := do
  let empty ← listEmpty head
  if empty then pure ()
  else
    let first ← readNext head
    listMoveTail first head

def listIsSingular (head : α) : ListProg α Bool := do
  let empty ← listEmpty head
  if empty then return false
  else
    let next ← readNext head
    let prev ← readPrev head
    return next = prev

def __listCutPosition (list head entry : α) : ListProg α Unit := do
  let newFirst ← readNext entry
  let headNext ← readNext head
  writeNext list headNext
  let listNext ← readNext list
  writePrev listNext list
  writePrev list entry
  writeNext entry list
  writeNext head newFirst
  writePrev newFirst head

/-- The test of a singular list compares its one entry, and the head. -/
def listCutPosition (list head entry : α) : ListProg α Unit := do
  let empty ← listEmpty head
  if empty then pure ()
  else
    let singular ← listIsSingular head
    let headNext ← readNext head
    if singular = true ∧ headNext ≠ entry ∧ head ≠ entry then pure ()
    else if entry = head then initListHead list
    else __listCutPosition list head entry

def __listSplice (list prev next : α) : ListProg α Unit := do
  let first ← readNext list
  let last ← readPrev list
  writePrev first prev
  writeNext prev first
  writeNext last next
  writePrev next last

def listSplice (list head : α) : ListProg α Unit := do
  let empty ← listEmpty list
  if empty then pure ()
  else
    let next ← readNext head
    __listSplice list head next

def listSpliceTail (list head : α) : ListProg α Unit := do
  let empty ← listEmpty list
  if empty then pure ()
  else
    let prev ← readPrev head
    __listSplice list prev head

def listSpliceInit (list head : α) : ListProg α Unit := do
  let empty ← listEmpty list
  if empty then pure ()
  else
    let next ← readNext head
    __listSplice list head next
    initListHead list

def listSpliceTailInit (list head : α) : ListProg α Unit := do
  let empty ← listEmpty list
  if empty then pure ()
  else
    let prev ← readPrev head
    __listSplice list prev head
    initListHead list

section Effects

variable {m : Links α} {p q a b c d e h l n : α}

omit [DecidableEq α] in
theorem readNext_run (there : m.nextOf p = some q) : readNext p m = .ok q m := by
  simp [readNext, there]

omit [DecidableEq α] in
theorem readPrev_run (there : m.prevOf p = some q) : readPrev p m = .ok q m := by
  simp [readPrev, there]

theorem writeNext_run (lives : (m p).isSome = true) (q : α) : writeNext p q m = .ok () (m.setNext p q) := by
  simp [writeNext, lives]

theorem writePrev_run (lives : (m p).isSome = true) (q : α) : writePrev p q m = .ok () (m.setPrev p q) := by
  simp [writePrev, lives]

theorem initListHead_run (lives : (m l).isSome = true) : initListHead l m = .ok () (m.link l l) := by
  rw [initListHead, bind_ok (writeNext_run lives l), writePrev_run (by rwa [setNext_lives])]
  rfl

theorem __listAdd_run (livesN : (m n).isSome = true) (livesA : (m a).isSome = true) (livesB : (m b).isSome = true) :
    __listAdd n a b m = .ok () ((m.link n b).link a n) := by
  rw [__listAdd, bind_ok (writePrev_run livesB n), bind_ok (writeNext_run (by rwa [setPrev_lives]) b),
    setNext_setPrev, ← link, bind_ok (writePrev_run (by rwa [link_lives]) a),
    writeNext_run (by rwa [setPrev_lives, link_lives]), setNext_setPrev, ← link]

theorem __listDel_run (livesA : (m a).isSome = true) (livesB : (m b).isSome = true) :
    __listDel a b m = .ok () (m.link a b) := by
  rw [__listDel, bind_ok (writePrev_run livesB a), writeNext_run (by rwa [setPrev_lives]), setNext_setPrev]
  rfl

theorem listDel_run (enters : m.Adjacent a e) (leaves : m.Adjacent e b) : listDel e m = .ok () (m.link a b) := by
  rw [listDel, bind_ok (readPrev_run enters.2), bind_ok (readNext_run leaves.1)]
  exact __listDel_run (adjacent_lives enters).1 (adjacent_lives leaves).2

theorem __listSplice_run (livesA : (m a).isSome = true) (livesB : (m b).isSome = true) (first : m.Adjacent l c)
    (last : m.Adjacent d l) : __listSplice l a b m = .ok () ((m.link a c).link d b) := by
  have livesC := (adjacent_lives first).2
  have livesD := (adjacent_lives last).1
  rw [__listSplice, bind_ok (readNext_run first.1), bind_ok (readPrev_run last.2), bind_ok (writePrev_run livesC a),
    bind_ok (writeNext_run (by rwa [setPrev_lives]) c), setNext_setPrev, ← link,
    bind_ok (writeNext_run (by rwa [link_lives]) b), writePrev_run (by rwa [setNext_lives, link_lives]), ← link]

theorem listEmpty_run (there : m.nextOf h = some a) : listEmpty h m = .ok (decide (a = h)) m := by
  rw [listEmpty, bind_ok (readNext_run there)]
  rfl

theorem listIsSingular_run (next : m.nextOf h = some a) (prev : m.prevOf h = some b) :
    listIsSingular h m = .ok (decide (a ≠ h ∧ a = b)) m := by
  rw [listIsSingular, bind_ok (listEmpty_run next)]
  by_cases empty : a = h
  · simp [empty]
  · simp only [empty, decide_false, Bool.false_eq_true, if_false]
    rw [bind_ok (readNext_run next), bind_ok (readPrev_run prev)]
    simp [empty]

theorem listReplace_run (livesN : (m n).isSome = true) (enters : m.Adjacent a e) (leaves : m.Adjacent e b)
    (far : b ≠ e) : listReplace e n m = .ok () ((m.link n b).link a n) := by
  have livesA := (adjacent_lives enters).1
  have livesB := (adjacent_lives leaves).2
  have linked : ((m.setNext n b).setPrev b n).Adjacent n b := adjacent_link livesN livesB
  have written : (m.setNext n b).nextOf n = some b := by
    rw [← nextOf_setPrev _ b n]
    exact linked.1
  have before : ((m.setNext n b).setPrev b n).prevOf e = some a :=
    (prevOf_link_other (Ne.symm far)).trans enters.2
  have again : ((m.link n b).setPrev n a).prevOf n = some a := by
    rw [← prevOf_setNext _ a n, setNext_setPrev]
    exact prevOf_link (by rwa [link_lives])
  rw [listReplace, bind_ok (readNext_run leaves.1), bind_ok (writeNext_run livesN b), bind_ok (readNext_run written),
    bind_ok (writePrev_run (by rwa [setNext_lives]) n), bind_ok (readPrev_run before), ← link,
    bind_ok (writePrev_run (by rwa [link_lives]) a), bind_ok (readPrev_run again),
    writeNext_run (by rwa [setPrev_lives, link_lives]), setNext_setPrev, ← link]

/-- The head of an empty list is left pointing to the new one. -/
theorem listReplace_empty (livesN : (m n).isSome = true) (alone : m.Adjacent e e) :
    listReplace e n m = .ok () ((m.link n e).link n n) := by
  have lives := (adjacent_lives alone).1
  have written : (m.setNext n e).nextOf n = some e := by
    rw [← nextOf_setPrev _ e n]
    exact (adjacent_link livesN lives).1
  have before : ((m.setNext n e).setPrev e n).prevOf e = some n := (adjacent_link livesN lives).2
  have again : ((m.link n e).setPrev n n).prevOf n = some n := by
    rw [← prevOf_setNext _ n n, setNext_setPrev]
    exact prevOf_link (by rwa [link_lives])
  rw [listReplace, bind_ok (readNext_run alone.1), bind_ok (writeNext_run livesN e), bind_ok (readNext_run written),
    bind_ok (writePrev_run (by rwa [setNext_lives]) n), bind_ok (readPrev_run before), ← link,
    bind_ok (writePrev_run (by rwa [link_lives]) n), bind_ok (readPrev_run again),
    writeNext_run (by rwa [setPrev_lives, link_lives]), setNext_setPrev, ← link]

theorem __listCutPosition_run (livesL : (m l).isSome = true) (first : m.Adjacent h c) (leaves : m.Adjacent e b) :
    __listCutPosition l h e m = .ok () (((m.link l c).link e l).link h b) := by
  have livesC := (adjacent_lives first).2
  have livesE := (adjacent_lives leaves).1
  have livesB := (adjacent_lives leaves).2
  have livesH := (adjacent_lives first).1
  have written : (m.setNext l c).nextOf l = some c := by
    rw [← nextOf_setPrev _ c l]
    exact (adjacent_link livesL livesC).1
  rw [__listCutPosition, bind_ok (readNext_run leaves.1), bind_ok (readNext_run first.1),
    bind_ok (writeNext_run livesL c), bind_ok (readNext_run written),
    bind_ok (writePrev_run (by rwa [setNext_lives]) l), ← link, bind_ok (writePrev_run (by rwa [link_lives]) e),
    bind_ok (writeNext_run (by rwa [setPrev_lives, link_lives]) l), setNext_setPrev, ← link,
    bind_ok (writeNext_run (by rwa [link_lives, link_lives]) b),
    writePrev_run (by rwa [setNext_lives, link_lives, link_lives]), ← link]

end Effects

/-- From memories that hold the lists `S` the program returns, and they hold `S'` then. -/
abbrev Turns (live : α → Prop) (S : Contents α) (prog : ListProg α Unit) (S' : Contents α) : Prop :=
  Spec (fun m => Chains live m S) prog (fun _ m => Chains live m S') fun _ => False

section Operations

variable {live : α → Prop} {m : Links α} {S S' : Contents α} {a b e h k l n : α} {front back xs ys zs : List α}

omit [DecidableEq α] in
theorem turns_run {prog : ListProg α Unit}
    (runs : ∀ m, Chains live m S → ∃ m', prog m = .ok () m' ∧ Chains live m' S') :
    Turns live S prog S' := by
  intro m held
  obtain ⟨m', run, held'⟩ := runs m held
  rw [run]
  exact held'

theorem initListHead_turns (own : Own live S l l) :
    Turns live S (initListHead l) (S.put l []) := by
  apply turns_run
  intro m held
  have lives := held.exist l own.lives
  refine ⟨_, initListHead_run lives, ?_⟩
  apply chains_set (T := [l]) held (link_lives m l l) _ _ (ring_empty lives)
  · simpa using own
  · intro x far
    have other : x ≠ l := by simpa using far
    exact link_elsewhere other other
  · simpa using own

/-- A new node between two neighbours. -/
theorem __listAdd_between (held : Chains live m S) (gap : m.Gap h ys zs front a b back)
    (nodup : (h :: (ys ++ n :: zs)).Nodup) (own : ∀ x ∈ h :: (ys ++ zs), Own live S h x) (exists' : live n)
    (free : Unlisted S n) : ∃ m', __listAdd n a b m = .ok () m' ∧ Chains live m' (S.put h (ys ++ n :: zs)) := by
  have lives := held.exist n exists'
  refine ⟨_, __listAdd_run lives gap.source gap.target, ?_⟩
  have starts : [n] = n :: [] := rfl
  have ends : [n] = [] ++ [n] := rfl
  apply chains_inserted held gap starts ends (.singleton n) nodup lives lives
  intro x member
  by_cases new : x = n
  · rw [new]
    exact unlisted_own exists' free h
  · apply own
    grind

theorem __listAdd_chained (held : Chains live m S) (there : S h = some (ys ++ zs)) (gap : m.Gap h ys zs front a b back)
    (exists' : live n) (free : Unlisted S n) :
    ∃ m', __listAdd n a b m = .ok () m' ∧ Chains live m' (S.put h (ys ++ n :: zs)) := by
  have nodup := (held.ring h _ there).nodup
  have far := free h _ there
  apply __listAdd_between held gap _ (fun x => listed_own held there) exists' free
  grind

theorem listAdd_turns (there : S h = some xs) (exists' : live n) (free : Unlisted S n) :
    Turns live S (listAdd n h) (S.put h (n :: xs)) := by
  apply turns_run
  intro m held
  obtain ⟨b, back, gap, adjacent⟩ := gap_front (held.ring h xs there)
  obtain ⟨m', run, held'⟩ := __listAdd_chained held (there : S h = some ([] ++ xs)) gap exists' free
  exact ⟨m', (bind_ok (readNext_run adjacent.1)).trans run, held'⟩

theorem listAddTail_turns (there : S h = some xs) (exists' : live n) (free : Unlisted S n) :
    Turns live S (listAddTail n h) (S.put h (xs ++ [n])) := by
  apply turns_run
  intro m held
  obtain ⟨front, a, gap, adjacent⟩ := gap_back (held.ring h xs there)
  rw [← List.append_nil xs] at there
  obtain ⟨m', run, held'⟩ := __listAdd_chained held there gap exists' free
  exact ⟨m', (bind_ok (readPrev_run adjacent.2)).trans run, held'⟩

theorem __listDelEntry_turns (there : S h = some (ys ++ e :: zs)) :
    Turns live S (__listDelEntry e) (S.put h (ys ++ zs)) := by
  apply turns_run
  intro m held
  have ring := held.ring h _ there
  obtain ⟨front, a, b, back, gap, enters, leaves⟩ := ring_around ring
  refine ⟨_, listDel_run enters leaves, chains_linked held gap ?_ ?_⟩
  · have nodup := ring.nodup
    grind
  · intro x member
    apply listed_own held there
    grind

theorem listDel_turns (there : S h = some (ys ++ e :: zs)) : Turns live S (listDel e) (S.put h (ys ++ zs)) :=
  __listDelEntry_turns there

/-- What was taken out of a list is in none. -/
theorem removed_unlisted (held : Chains live m S) (there : S h = some xs) (member : e ∈ h :: xs) (far : e ∉ h :: ys) :
    Unlisted (S.put h ys) e := by
  rw [← Contents.drop_put]
  exact unlisted_put (dropped_unlisted held there member) far

theorem deleted_unlisted (held : Chains live m S) (there : S h = some (ys ++ e :: zs)) :
    Unlisted (S.put h (ys ++ zs)) e := by
  have nodup := (held.ring h _ there).nodup
  apply removed_unlisted held there (by simp)
  grind

omit [DecidableEq α] in
theorem turns_seq {p q : ListProg α Unit} {S'' : Contents α} (first : Turns live S p S')
    (second : Turns live S' q S'') :
    Turns live S (do p; q) S'' :=
  spec_bind first fun _ => second

theorem listEmpty_chained (held : Chains live m S) (there : S h = some xs) : listEmpty h m = .ok xs.isEmpty m := by
  have ring := held.ring h xs there
  rw [listEmpty_run (ring_first ring).1]
  cases xs with
  | nil => simp_all
  | cons x xs =>
    have far := List.ne_of_not_mem_cons (List.nodup_cons.mp ring.nodup).1
    simp_all [Ne.symm far]

/-- A program that first looks whether the list is empty. -/
theorem turns_branch {p q : ListProg α Unit} (there : S h = some xs) (none : xs = [] → Turns live S p S')
    (filled : xs ≠ [] → Turns live S q S') :
    Turns live S (do let empty ← listEmpty h; if empty then p else q) S' := by
  intro m held
  rw [bind_ok (listEmpty_chained held there)]
  cases xs with
  | nil => exact none rfl m held
  | cons x xs => exact filled (by simp) m held

omit [DecidableEq α] in
theorem turns_nothing : Turns live S (pure ()) S := spec_pure fun _ held => held

theorem listDelInit_turns (there : S h = some (ys ++ e :: zs)) :
    Turns live S (listDelInit e) ((S.put h (ys ++ zs)).put e []) := by
  intro m held
  have lives := held.listed h _ there e (by simp)
  have free := deleted_unlisted held there
  exact turns_seq (__listDelEntry_turns there) (initListHead_turns (unlisted_own lives free e)) m held

theorem listMove_turns (there : S k = some (ys ++ e :: zs)) (there' : S.put k (ys ++ zs) h = some xs) :
    Turns live S (listMove e h) ((S.put k (ys ++ zs)).put h (e :: xs)) := by
  intro m held
  have lives := held.listed k _ there e (by simp)
  have free := deleted_unlisted held there
  exact turns_seq (__listDelEntry_turns there) (listAdd_turns there' lives free) m held

theorem listMoveTail_turns (there : S k = some (ys ++ e :: zs)) (there' : S.put k (ys ++ zs) h = some xs) :
    Turns live S (listMoveTail e h) ((S.put k (ys ++ zs)).put h (xs ++ [e])) := by
  intro m held
  have lives := held.listed k _ there e (by simp)
  have free := deleted_unlisted held there
  exact turns_seq (__listDelEntry_turns there) (listAddTail_turns there' lives free) m held

theorem listRotateLeft_turns (there : S h = some xs) : Turns live S (listRotateLeft h) (S.put h (xs.rotate 1)) := by
  apply turns_branch there
  · rintro rfl
    rw [List.rotate_nil, Contents.put_same there]
    exact turns_nothing
  · intro filled
    cases xs with
    | nil => exact (filled rfl).elim
    | cons x xs =>
      have moved : Turns live S (listMoveTail x h) ((S.put h ([] ++ xs)).put h (xs ++ [x])) :=
        listMoveTail_turns (there : S h = some ([] ++ x :: xs)) Contents.put_self
      rw [List.nil_append, Contents.put_put] at moved
      intro m held
      rw [bind_ok (readNext_run (ring_first (held.ring h _ there)).1), List.rotate_cons_succ, List.rotate_zero]
      exact moved m held

/-- The new node stands where the old one stood. -/
theorem listReplace_turns (there : S h = some (ys ++ e :: zs)) (exists' : live n) (free : Unlisted S n) :
    Turns live S (listReplace e n) (S.put h (ys ++ n :: zs)) := by
  apply turns_run
  intro m held
  have ring := held.ring h _ there
  have nodup := ring.nodup
  obtain ⟨front, a, b, back, gap, enters, leaves⟩ := ring_around ring
  have far : b ≠ e := by
    have inside := (gap_inside gap).2
    grind
  have own : ∀ x ∈ h :: (ys ++ zs), Own live S h x := by
    intro x member
    apply listed_own held there
    grind
  have fresh : (h :: (ys ++ n :: zs)).Nodup := by
    have outside := free h _ there
    grind
  obtain ⟨m', run, held'⟩ := __listAdd_between held gap fresh own exists' free
  refine ⟨m', ?_, held'⟩
  have lives := held.exist n exists'
  rw [listReplace_run lives enters leaves far, ← run, __listAdd_run lives gap.source gap.target]

/-- The new node is the head of what the old one was the head of. -/
theorem listReplace_head (there : S h = some xs) (exists' : live n) (free : Unlisted S n) :
    Turns live S (listReplace h n) ((S.drop h).put n xs) := by
  apply turns_run
  intro m held
  have ring := held.ring h xs there
  have lives := held.exist n exists'
  have far := free h xs there
  have free' : Unlisted (S.drop h) n := by
    intro k ys there'
    by_cases same : k = h
    · simp [same] at there'
    · rw [Contents.drop_other same] at there'
      exact free k ys there'
  have own : ∀ x ∈ n :: xs, Own live (S.drop h) n x := by
    intro x member
    rcases List.mem_cons.mp member with rfl | member
    · exact unlisted_own exists' free' x
    · have listed := List.mem_cons_of_mem h member
      exact unlisted_own (held.listed h xs there x listed) (dropped_unlisted held there listed) n
  cases xs with
  | nil =>
    refine ⟨_, listReplace_empty lives (ring_first ring), ?_⟩
    apply chains_set (T := [n, h]) (chains_drop held h) _ _ _ (ring_empty (by rwa [link_lives])) own
    · intro x
      rw [link_lives, link_lives]
    · intro x other
      simp only [List.mem_cons, List.not_mem_nil, or_false, not_or] at other
      rw [link_elsewhere other.1 other.1, link_elsewhere other.1 other.2]
    · intro x member
      rcases List.mem_cons.mp member with rfl | member
      · exact own x List.mem_cons_self
      · rw [List.mem_singleton.mp member]
        have listed : h ∈ [h] := List.mem_cons_self
        exact unlisted_own (held.listed h [] there h listed) (dropped_unlisted held there listed) n
  | cons x xs =>
    obtain ⟨wfront, d, ends⟩ := ends_before x xs
    have first : m.Adjacent h x := ring_first ring
    have last : m.Adjacent d h := by
      have adjacent := ring_last ring
      rwa [ends, List.getLastD_concat] at adjacent
    have other : x ≠ h := by
      have nodup := ring.nodup
      grind
    refine ⟨_, listReplace_run lives last first other, ?_⟩
    apply chains_close (chains_drop held h) rfl ends (ring_content ring) _ own
    have nodup := ring.nodup
    grind

theorem listReplaceInit_turns (there : S h = some (ys ++ e :: zs)) (exists' : live n) (free : Unlisted S n) :
    Turns live S (listReplaceInit e n) ((S.put h (ys ++ n :: zs)).put e []) := by
  intro m held
  have lives := held.listed h _ there e (by simp)
  have nodup := (held.ring h _ there).nodup
  have outside := free h _ there
  have out : Unlisted (S.put h (ys ++ n :: zs)) e := by
    apply removed_unlisted held there (by simp)
    grind
  exact turns_seq (listReplace_turns there exists' free) (initListHead_turns (unlisted_own lives out e)) m held

theorem listReplaceInit_head (there : S h = some xs) (exists' : live n) (free : Unlisted S n) :
    Turns live S (listReplaceInit h n) ((S.put n xs).put h []) := by
  intro m held
  have lives := held.listed h xs there h List.mem_cons_self
  have nodup := (held.ring h xs there).nodup
  have far := free h xs there
  have out : Unlisted ((S.drop h).put n xs) h := by
    apply unlisted_put (dropped_unlisted held there List.mem_cons_self)
    grind
  have other : h ≠ n := by grind
  have same : ((S.drop h).put n xs).put h [] = (S.put n xs).put h [] := by
    rw [Contents.drop_put_comm (Ne.symm other), Contents.drop_put]
  rw [← same]
  exact turns_seq (listReplace_head there exists' free) (initListHead_turns (unlisted_own lives out h)) m held

theorem __listCutPosition_turns (there : S h = some (ys ++ e :: zs)) (own : Own live S l l) (other : l ≠ h) :
    Turns live S (__listCutPosition l h e) ((S.put l (ys ++ [e])).put h zs) := by
  apply turns_run
  intro m held
  have ring := held.ring h _ there
  have nodup := ring.nodup
  have outside := own.outside h _ (Ne.symm other) there
  obtain ⟨front, a, b, back, gap, enters, leaves⟩ := ring_around ring
  obtain ⟨c, wback, starts⟩ : ∃ c wback, ys ++ [e] = c :: wback := starts_after ys e
  have first : m.Adjacent h c := by
    have adjacent := ring_first ring
    rwa [List.append_cons, starts] at adjacent
  have walk : m.Walk (ys ++ [e]) := by
    have content := ring_content ring
    rw [List.append_cons] at content
    exact (List.isChain_append.mp content).1
  refine ⟨_, __listCutPosition_run (held.exist l own.lives) first leaves, ?_⟩
  have free : ∀ x ∈ h :: (ys ++ e :: zs), live x ∧ Unlisted (S.drop h) x := fun x member =>
    ⟨held.listed h _ there x member, dropped_unlisted held there member⟩
  have ownCut : ∀ x ∈ l :: (ys ++ [e]), Own live (S.drop h) l x := by
    intro x member
    rcases List.mem_cons.mp member with rfl | member
    · exact own_drop own h
    · have inside := free x (by grind)
      exact unlisted_own inside.1 inside.2 l
  have cut := chains_close (chains_drop held h) starts rfl walk (by grind) ownCut
  have kept : ∀ x ∈ b :: back, ((m.link l c).link e l) x = m x := by
    intro x member
    have after := gap.after
    have inside : c ∈ ys ++ [e] := by simp [starts]
    rw [link_elsewhere (by grind) (by grind), link_elsewhere (by grind) (by grind)]
  have gap' : ((m.link l c).link e l).Gap h [] zs [] h b back := by
    refine ⟨rfl, gap.after, .singleton h, walk_agree kept gap.second, ?_, ?_⟩
    · rw [link_lives, link_lives]
      exact (adjacent_lives first).1
    · rw [link_lives, link_lives]
      exact gap.target
  rw [← Contents.drop_put, ← Contents.drop_put_comm other]
  apply chains_linked cut gap' (by grind)
  intro x member
  have inside := free x (by grind)
  refine unlisted_own inside.1 (unlisted_put inside.2 ?_) h
  grind

theorem listIsSingular_chained (held : Chains live m S) (there : S h = some xs) :
    listIsSingular h m = .ok (decide (xs.length = 1)) m := by
  have ring := held.ring h xs there
  rw [listIsSingular_run (ring_first ring).1 (ring_last ring).2]
  have nodup := ring.nodup
  congr 1
  match xs with
  | [] => simp
  | [x] =>
    have far : x ≠ h := by grind
    simp [far]
  | x :: y :: zs =>
    obtain ⟨front, z, ends⟩ := ends_before y zs
    have far : x ≠ z := by grind
    have last : (x :: y :: zs).getLastD h = z := by
      rw [ends, ← List.cons_append, List.getLastD_concat]
    rw [last]
    simp [far]

/-- An entry that is not the one of a singular list is left where it is. -/
theorem listCutPosition_foreign (there : S h = some [a]) (far : e ≠ a) (far' : e ≠ h) :
    Turns live S (listCutPosition l h e) S := by
  apply turns_branch there fun _ => turns_nothing
  intro _ m held
  rw [bind_ok (listIsSingular_chained held there), bind_ok (readNext_run (ring_first (held.ring h _ there)).1)]
  simp [Ne.symm far, Ne.symm far', held]

/-- The first part of the list, up to and with the entry, is moved; nothing is when that is the head. -/
theorem listCutPosition_turns (there : S h = some (ys ++ e :: zs)) (own : Own live S l l) (other : l ≠ h) :
    Turns live S (listCutPosition l h e) ((S.put l (ys ++ [e])).put h zs) := by
  apply turns_branch there
  · intro none
    simp at none
  intro _ m held
  have nodup := (held.ring h _ there).nodup
  have far : e ≠ h := by grind
  rw [bind_ok (listIsSingular_chained held there), bind_ok (readNext_run (ring_first (held.ring h _ there)).1)]
  have passes : ¬ ((decide ((ys ++ e :: zs).length = 1)) = true ∧ (ys ++ e :: zs).headD h ≠ e ∧ h ≠ e) := by
    cases ys <;> simp
  rw [if_neg passes, if_neg far]
  exact __listCutPosition_turns there own other m held

theorem listCutPosition_head (there : S h = some xs) (filled : xs ≠ []) (own : Own live S l l) :
    Turns live S (listCutPosition l h h) (S.put l []) := by
  apply turns_branch there
  · intro none
    exact (filled none).elim
  intro _ m held
  rw [bind_ok (listIsSingular_chained held there), bind_ok (readNext_run (ring_first (held.ring h _ there)).1)]
  simpa using initListHead_turns own m held

theorem listCutPosition_empty (there : S h = some []) : Turns live S (listCutPosition l h e) S := by
  apply turns_branch there fun _ => turns_nothing
  intro filled
  exact (filled rfl).elim

/-- All of a list goes into a gap of another one, and its own head is left outside. -/
theorem __listSplice_chained (held : Chains live m S) {ws : List α} (there : S h = some (ys ++ zs))
    (there' : S l = some ws) (filled : ws ≠ []) (other : l ≠ h) (gap : m.Gap h ys zs front a b back) :
    ∃ m', __listSplice l a b m = .ok () m' ∧ Chains live m' ((S.drop l).put h (ys ++ (ws ++ zs))) := by
  have ring := held.ring l ws there'
  have nodup := ring.nodup
  obtain ⟨c, wback, rfl⟩ := List.exists_cons_of_ne_nil filled
  obtain ⟨wfront, d, ends⟩ := ends_before c wback
  have first : m.Adjacent l c := ring_first ring
  have last : m.Adjacent d l := by
    have adjacent := ring_last ring
    rwa [ends, List.getLastD_concat] at adjacent
  have inside := gap_inside gap
  have apart : ∀ x ∈ c :: wback, x ∉ h :: (ys ++ zs) := fun x member member' =>
    held.apart l _ h _ there' there other (List.mem_cons_of_mem l member) member'
  have nodup' := (held.ring h _ there).nodup
  refine ⟨_, __listSplice_run gap.source gap.target first last, ?_⟩
  have spliced : d ∈ c :: wback := by simp [ends]
  have source : a ≠ d := by
    rintro rfl
    exact apart a spliced (by grind)
  have target : c ≠ b := by
    rintro rfl
    exact apart c List.mem_cons_self (by grind)
  have joined : (c :: wback ++ h :: (ys ++ zs)).Nodup := by
    refine List.nodup_append.mpr ⟨(List.nodup_cons.mp nodup).2, nodup', ?_⟩
    rintro x member y member' rfl
    exact apart x member member'
  have order : (h :: ys ++ (c :: wback ++ zs)).Perm (c :: wback ++ (h :: ys ++ zs)) :=
    List.perm_append_comm_assoc ..
  rw [link_comm source target]
  apply chains_inserted (chains_drop held l) gap rfl ends (ring_content ring)
  · exact order.nodup_iff.mpr joined
  · exact (adjacent_lives first).2
  · exact (adjacent_lives last).1
  intro x member
  have far : (S.drop l) h = some (ys ++ zs) := by rwa [Contents.drop_other (Ne.symm other)]
  by_cases moved : x ∈ c :: wback
  · have listed := List.mem_cons_of_mem l moved
    exact unlisted_own (held.listed l _ there' x listed) (dropped_unlisted held there' listed) h
  · apply listed_own (chains_drop held l) far
    grind

theorem spliced_turns {ws : List α} (there : S h = some xs) (there' : S l = some ws) (filled : ws ≠ [])
    (other : l ≠ h) :
    Turns live S (do let next ← readNext h; __listSplice l h next) ((S.drop l).put h (ws ++ xs)) := by
  apply turns_run
  intro m held
  obtain ⟨b, back, gap, adjacent⟩ := gap_front (held.ring h xs there)
  obtain ⟨m', run, held'⟩ := __listSplice_chained held (there : S h = some ([] ++ xs)) there' filled other gap
  exact ⟨m', (bind_ok (readNext_run adjacent.1)).trans run, held'⟩

theorem spliced_tail_turns {ws : List α} (there : S h = some xs) (there' : S l = some ws) (filled : ws ≠ [])
    (other : l ≠ h) :
    Turns live S (do let prev ← readPrev h; __listSplice l prev h) ((S.drop l).put h (xs ++ ws)) := by
  apply turns_run
  intro m held
  obtain ⟨front, a, gap, adjacent⟩ := gap_back (held.ring h xs there)
  rw [← List.append_nil xs] at there
  obtain ⟨m', run, held'⟩ := __listSplice_chained held there there' filled other gap
  rw [List.append_nil] at held'
  exact ⟨m', (bind_ok (readPrev_run adjacent.2)).trans run, held'⟩

theorem listSplice_turns {ws : List α} (there : S h = some xs) (there' : S l = some ws) (filled : ws ≠ [])
    (other : l ≠ h) : Turns live S (listSplice l h) ((S.drop l).put h (ws ++ xs)) :=
  turns_branch there' (fun none => (filled none).elim) fun _ => spliced_turns there there' filled other

theorem listSpliceTail_turns {ws : List α} (there : S h = some xs) (there' : S l = some ws) (filled : ws ≠ [])
    (other : l ≠ h) : Turns live S (listSpliceTail l h) ((S.drop l).put h (xs ++ ws)) :=
  turns_branch there' (fun none => (filled none).elim) fun _ => spliced_tail_turns there there' filled other

theorem listSplice_empty (there' : S l = some []) : Turns live S (listSplice l h) S :=
  turns_branch there' (fun _ => turns_nothing) fun filled => (filled rfl).elim

theorem listSpliceTail_empty (there' : S l = some []) : Turns live S (listSpliceTail l h) S :=
  turns_branch there' (fun _ => turns_nothing) fun filled => (filled rfl).elim

/-- A list that was emptied can be used again. -/
theorem emptied_turns {p : ListProg α Unit} {ws us : List α} (there : S h = some xs) (there' : S l = some ws)
    (other : l ≠ h) (within : ∀ x ∈ us, x ∈ ws ++ xs) (spliced : Turns live S p ((S.drop l).put h us)) :
    Turns live S (do p; initListHead l) ((S.put h us).put l []) := by
  intro m held
  have far : l ∉ h :: us := by
    have outside : l ∉ h :: xs := held.apart l _ h _ there' there other List.mem_cons_self
    have nodup := (held.ring l ws there').nodup
    grind
  have out := unlisted_put (dropped_unlisted held there' List.mem_cons_self) far
  have lives := held.listed l ws there' l List.mem_cons_self
  have same : ((S.drop l).put h us).put l [] = (S.put h us).put l [] := by
    rw [Contents.drop_put_comm (Ne.symm other), Contents.drop_put]
  rw [← same]
  exact turns_seq spliced (initListHead_turns (unlisted_own lives out l)) m held

theorem listSpliceInit_turns {ws : List α} (there : S h = some xs) (there' : S l = some ws) (other : l ≠ h) :
    Turns live S (listSpliceInit l h) ((S.put h (ws ++ xs)).put l []) := by
  apply turns_branch there'
  · rintro rfl
    rw [List.nil_append, Contents.put_same there, Contents.put_same there']
    exact turns_nothing
  · intro filled
    have joined : Turns live S _ _ := spliced_turns there there' filled other
    have spliced := emptied_turns there there' other (fun _ => id) joined
    rwa [bind_assoc] at spliced

theorem listSpliceTailInit_turns {ws : List α} (there : S h = some xs) (there' : S l = some ws) (other : l ≠ h) :
    Turns live S (listSpliceTailInit l h) ((S.put h (xs ++ ws)).put l []) := by
  apply turns_branch there'
  · rintro rfl
    rw [List.append_nil, Contents.put_same there, Contents.put_same there']
    exact turns_nothing
  · intro filled
    have within : ∀ x ∈ xs ++ ws, x ∈ ws ++ xs := fun x member => List.mem_append.mpr (List.mem_append.mp member).symm
    have joined : Turns live S _ _ := spliced_tail_turns there there' filled other
    have spliced := emptied_turns there there' other within joined
    rwa [bind_assoc] at spliced

end Operations

end Newplat.ListHead