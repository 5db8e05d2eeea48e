import Newplat.ListHead

/-! Whole runs of list operations, and the loops over a list. -/
namespace Newplat.ListHead

open Base Links

variable {α : Type} [DecidableEq α]

inductive ListOp (α : Type)
  | init (list : α)
  | add (new head : α)
  | addTail (new head : α)
  | del (entry : α)
  | delInit (entry : α)
  | replace (old new : α)
  | replaceInit (old new : α)
  | move (list head : α)
  | moveTail (list head : α)
  | rotateLeft (head : α)
  | cutPosition (list head entry : α)
  | splice (list head : α)
  | spliceTail (list head : α)
  | spliceInit (list head : α)
  | spliceTailInit (list head : α)

def perform : ListOp α → ListProg α Unit
  | .init list => initListHead list
  | .add new head => listAdd new head
  | .addTail new head => listAddTail new head
  | .del entry => listDel entry
  | .delInit entry => listDelInit entry
  | .replace old new => listReplace old new
  | .replaceInit old new => listReplaceInit old new
  | .move list head => listMove list head
  | .moveTail list head => listMoveTail list head
  | .rotateLeft head => listRotateLeft head
  | .cutPosition list head entry => listCutPosition list head entry
  | .splice list head => listSplice list head
  | .spliceTail list head => listSpliceTail list head
  | .spliceInit list head => listSpliceInit list head
  | .spliceTailInit list head => listSpliceTailInit list head

def performAll : List (ListOp α) → ListProg α Unit
  | [] => pure ()
  | op :: ops => do
    perform op
    performAll ops

/-- What an operation makes of the contents of the lists, where its comment in list.h allows it.
A node is added when it is in no list; a list is written over when no other one has its head. -/
inductive Performs (live : α → Prop) (S : Contents α) : ListOp α → Contents α → Prop
  | init {l} : Own live S l l → Performs live S (.init l) (S.put l [])
  | add {n h xs} : S h = some xs → live n → Unlisted S n → Performs live S (.add n h) (S.put h (n :: xs))
  | addTail {n h xs} : S h = some xs → live n → Unlisted S n → Performs live S (.addTail n h) (S.put h (xs ++ [n]))
  | del {e h ys zs} : S h = some (ys ++ e :: zs) → Performs live S (.del e) (S.put h (ys ++ zs))
  | delInit {e h ys zs} : S h = some (ys ++ e :: zs) →
      Performs live S (.delInit e) ((S.put h (ys ++ zs)).put e [])
  | replace {e n h ys zs} : S h = some (ys ++ e :: zs) → live n → Unlisted S n →
      Performs live S (.replace e n) (S.put h (ys ++ n :: zs))
  | replaceHead {h n xs} : S h = some xs → live n → Unlisted S n →
      Performs live S (.replace h n) ((S.drop h).put n xs)
  | replaceInit {e n h ys zs} : S h = some (ys ++ e :: zs) → live n → Unlisted S n →
      Performs live S (.replaceInit e n) ((S.put h (ys ++ n :: zs)).put e [])
  | replaceInitHead {h n xs} : S h = some xs → live n → Unlisted S n →
      Performs live S (.replaceInit h n) ((S.put n xs).put h [])
  | move {e h k ys zs xs} : S k = some (ys ++ e :: zs) → S.put k (ys ++ zs) h = some xs →
      Performs live S (.move e h) ((S.put k (ys ++ zs)).put h (e :: xs))
  | moveTail {e h k ys zs xs} : S k = some (ys ++ e :: zs) → S.put k (ys ++ zs) h = some xs →
      Performs live S (.moveTail e h) ((S.put k (ys ++ zs)).put h (xs ++ [e]))
  | rotateLeft {h xs} : S h = some xs → Performs live S (.rotateLeft h) (S.put h (xs.rotate 1))
  | cutPosition {l h e ys zs} : S h = some (ys ++ e :: zs) → Own live S l l → l ≠ h →
      Performs live S (.cutPosition l h e) ((S.put l (ys ++ [e])).put h zs)
  | cutHead {l h xs} : S h = some xs → xs ≠ [] → Own live S l l →
      Performs live S (.cutPosition l h h) (S.put l [])
  | cutEmpty {l h e} : S h = some [] → Performs live S (.cutPosition l h e) S
  | cutForeign {l h e a} : S h = some [a] → e ≠ a → e ≠ h → Performs live S (.cutPosition l h e) S
  | splice {l h ws xs} : S h = some xs → S l = some ws → ws ≠ [] → l ≠ h →
      Performs live S (.splice l h) ((S.drop l).put h (ws ++ xs))
  | spliceEmpty {l h} : S l = some [] → Performs live S (.splice l h) S
  | spliceTail {l h ws xs} : S h = some xs → S l = some ws → ws ≠ [] → l ≠ h →
      Performs live S (.spliceTail l h) ((S.drop l).put h (xs ++ ws))
  | spliceTailEmpty {l h} : S l = some [] → Performs live S (.spliceTail l h) S
  | spliceInit {l h ws xs} : S h = some xs → S l = some ws → l ≠ h →
      Performs live S (.spliceInit l h) ((S.put h (ws ++ xs)).put l [])
  | spliceTailInit {l h ws xs} : S h = some xs → S l = some ws → l ≠ h →
      Performs live S (.spliceTailInit l h) ((S.put h (xs ++ ws)).put l [])

inductive PerformsAll (live : α → Prop) : Contents α → List (ListOp α) → Contents α → Prop
  | nil {S} : PerformsAll live S [] S
  | cons {S T U op ops} : Performs live S op T → PerformsAll live T ops U → PerformsAll live S (op :: ops) U

section Runs

variable {live : α → Prop} {S S' : Contents α}

theorem perform_turns {op : ListOp α} (performs : Performs live S op S') : Turns live S (perform op) S' := by
  cases performs with
  | init own => exact initListHead_turns own
  | add there lives free => exact listAdd_turns there lives free
  | addTail there lives free => exact listAddTail_turns there lives free
  | del there => exact listDel_turns there
  | delInit there => exact listDelInit_turns there
  | replace there lives free => exact listReplace_turns there lives free
  | replaceHead there lives free => exact listReplace_head there lives free
  | replaceInit there lives free => exact listReplaceInit_turns there lives free
  | replaceInitHead there lives free => exact listReplaceInit_head there lives free
  | move there there' => exact listMove_turns there there'
  | moveTail there there' => exact listMoveTail_turns there there'
  | rotateLeft there => exact listRotateLeft_turns there
  | cutPosition there own other => exact listCutPosition_turns there own other
  | cutHead there filled own => exact listCutPosition_head there filled own
  | cutEmpty there => exact listCutPosition_empty there
  | cutForeign there far far' => exact listCutPosition_foreign there far far'
  | splice there there' filled other => exact listSplice_turns there there' filled other
  | spliceEmpty there' => exact listSplice_empty there'
  | spliceTail there there' filled other => exact listSpliceTail_turns there there' filled other
  | spliceTailEmpty there' => exact listSpliceTail_empty there'
  | spliceInit there there' other => exact listSpliceInit_turns there there' other
  | spliceTailInit there there' other => exact listSpliceTailInit_turns there there' other

/-- Operations done one after the other keep every list a ring, with the content they give it. -/
theorem performAll_turns {ops : List (ListOp α)} (performs : PerformsAll live S ops S') :
    Turns live S (performAll ops) S' := by
  induction performs with
  | nil => exact turns_nothing
  | cons first rest ih => exact turns_seq (perform_turns first) ih

/-- Two lists are set up, an entry of the first is moved to the second, and the rest is spliced there. -/
theorem performAll_turns_spliced :
    ∃ S' : Contents Nat, Turns (fun _ => True) (fun _ => none) (performAll [.init 0, .init 9, .add 1 0, .addTail 2 0,
      .addTail 3 0, .move 2 9, .rotateLeft 0, .spliceInit 0 9]) S' ∧ S' 0 = some [] ∧ S' 9 = some [3, 1, 2] := by
  have fresh : ∀ a : Nat, Own (fun _ => True) (fun _ => none) a a := fun a => unlisted_own trivial unlisted_none a
  have bare : ∀ a h : Nat, a ∉ [h] → Unlisted (Contents.put (fun _ => none) h []) a := fun a h far =>
    unlisted_put unlisted_none far
  have empty : ∀ a : Nat, a ∉ [0] → a ∉ [9] → Unlisted ((Contents.put (fun _ => none) 0 []).put 9 []) a :=
    fun a far far' => unlisted_put (bare a 0 far) far'
  refine ⟨_, performAll_turns (.cons (.init (fresh 0)) (.cons (.init (unlisted_own trivial (bare 9 0 (by decide)) 9))
    (.cons (.add rfl trivial (empty 1 (by decide) (by decide)))
    (.cons (.addTail rfl trivial (unlisted_put (empty 2 (by decide) (by decide)) (by decide)))
    (.cons (.addTail rfl trivial (unlisted_put (unlisted_put (empty 3 (by decide) (by decide))
      (by decide)) (by decide)))
    (.cons (.move (k := 0) (rfl : _ = some ([1] ++ 2 :: [3])) (rfl : _ = some []))
    (.cons (.rotateLeft rfl) (.cons (.spliceInit rfl rfl (by decide)) .nil)))))))), rfl, rfl⟩

end Runs

/-- The nodes a cursor stops at from `pos` on, for so many rounds at most; `step` reads a link. -/
def visit (step : α → ListProg α α) (head : α) : Nat → α → ListProg α (List α)
  | 0, _ => throw .diverges
  | rounds + 1, pos => do
    if pos = head then return []
    else
      let after ← step pos
      let rest ← visit step head rounds after
      return pos :: rest

def listForEach (head : α) (rounds : Nat) : ListProg α (List α) := do
  let first ← readNext head
  visit readNext head rounds first

def listForEachPrev (head : α) (rounds : Nat) : ListProg α (List α) := do
  let last ← readPrev head
  visit readPrev head rounds last

def listForEachEntryContinue (pos head : α) (rounds : Nat) : ListProg α (List α) := do
  let next ← readNext pos
  visit readNext head rounds next

def listForEachEntryContinueReverse (pos head : α) (rounds : Nat) : ListProg α (List α) := do
  let prev ← readPrev pos
  visit readPrev head rounds prev

def listForEachEntryFrom (pos head : α) (rounds : Nat) : ListProg α (List α) :=
  visit readNext head rounds pos

/-- The rounds of `list_for_each_entry_safe`: the next node was read before the body is run. -/
def safeRounds {σ : Type} (next : α → EStateM Halt σ α) (body : Nat → α → EStateM Halt σ Unit) (head : α) :
    Nat → Nat → α → α → EStateM Halt σ Unit
  | 0, _, _, _ => throw .diverges
  | rounds + 1, k, pos, n => do
    if pos = head then pure ()
    else
      body k pos
      let after ← next n
      safeRounds next body head rounds (k + 1) n after

/-- `next` reads a link of a node; the body is told how many rounds there were before. -/
def listForEachEntrySafe {σ : Type} (next : α → EStateM Halt σ α) (body : Nat → α → EStateM Halt σ Unit) (head : α)
    (rounds : Nat) : EStateM Halt σ Unit := do
  let pos ← next head
  let n ← next pos
  safeRounds next body head rounds 0 pos n

section Loops

variable {live : α → Prop} {m : Links α} {S : Contents α} {e h : α} {xs ys zs : List α} {rounds : Nat}

theorem visit_chain {step : α → ListProg α α} (steps : (zs ++ [h]).IsChain fun a b => step a m = .ok b m)
    (far : h ∉ zs) (enough : zs.length < rounds) : visit step h rounds (zs.headD h) m = .ok zs m := by
  induction zs generalizing rounds with
  | nil =>
    obtain ⟨rounds, rfl⟩ := Nat.exists_eq_add_one.mpr enough
    simp [visit]
  | cons z zs ih =>
    obtain ⟨rounds, rfl⟩ := Nat.exists_eq_add_one.mpr (Nat.zero_lt_of_lt enough)
    have other : z ≠ h := fun same => far (same ▸ List.mem_cons_self)
    have next : step z m = .ok (zs.headD h) m := by
      cases zs with
      | nil =>
        have last := List.isChain_pair.mp steps
        exact last
      | cons y zs => exact (List.isChain_cons_cons.mp steps).1
    have rest := ih steps.tail (fun member => far (List.mem_cons_of_mem z member)) (Nat.lt_of_succ_lt_succ enough)
    rw [List.headD_cons, visit, if_neg other, bind_ok next, bind_ok rest]
    rfl

theorem visit_next (ring : m.Ring h (ys ++ zs)) (enough : zs.length < rounds) :
    visit readNext h rounds (zs.headD h) m = .ok zs m := by
  have walk := ring.walk
  have nodup := ring.nodup
  rw [← List.cons_append, List.append_assoc] at walk
  apply visit_chain _ (by grind) enough
  exact (List.isChain_append.mp walk).2.1.imp fun a b adjacent => readNext_run adjacent.1

theorem visit_prev (ring : m.Ring h (ys ++ zs)) (enough : ys.length < rounds) :
    visit readPrev h rounds (ys.getLastD h) m = .ok ys.reverse m := by
  have walk := ring.walk
  have nodup := ring.nodup
  have front : m.Walk (h :: ys) := by
    rw [← List.cons_append, List.append_assoc] at walk
    exact (List.isChain_append.mp walk).1
  have last : ys.reverse.headD h = ys.getLastD h := by
    rcases List.eq_nil_or_concat ys with rfl | ⟨us, u, rfl⟩ <;> simp
  rw [← last]
  apply visit_chain _ (by grind) (by simpa using enough)
  rw [← List.reverse_cons]
  apply List.isChain_reverse.mpr
  exact front.imp fun a b adjacent => readPrev_run adjacent.2

theorem listForEach_visits (held : Chains live m S) (there : S h = some xs) (enough : xs.length < rounds) :
    listForEach h rounds m = .ok xs m := by
  have ring := held.ring h xs there
  rw [listForEach, bind_ok (readNext_run (ring_first ring).1)]
  have whole : m.Ring h ([] ++ xs) := ring
  exact visit_next whole enough

theorem listForEachPrev_visits (held : Chains live m S) (there : S h = some xs) (enough : xs.length < rounds) :
    listForEachPrev h rounds m = .ok xs.reverse m := by
  have ring := held.ring h xs there
  rw [listForEachPrev, bind_ok (readPrev_run (ring_last ring).2)]
  rw [← List.append_nil xs] at ring
  exact visit_prev ring enough

/-- From an entry on, with it or without it, in both directions. -/
theorem listForEachEntry_visits (held : Chains live m S) (there : S h = some (ys ++ e :: zs))
    (enough : (ys ++ e :: zs).length < rounds) :
    listForEachEntryFrom e h rounds m = .ok (e :: zs) m ∧ listForEachEntryContinue e h rounds m = .ok zs m ∧
      listForEachEntryContinueReverse e h rounds m = .ok ys.reverse m := by
  have ring := held.ring h _ there
  rw [List.length_append, List.length_cons] at enough
  refine ⟨?_, ?_, ?_⟩
  · have visits : visit readNext h rounds ((e :: zs).headD h) m = .ok (e :: zs) m := visit_next ring (by grind)
    exact visits
  · rw [listForEachEntryContinue, bind_ok (readNext_run (ring_next ring).1)]
    rw [List.append_cons] at ring
    exact visit_next ring (by omega)
  · rw [listForEachEntryContinueReverse, bind_ok (readPrev_run (ring_prev ring).2)]
    exact visit_prev ring (by omega)

theorem listEmptyCareful_chained (held : Chains live m S) (there : S h = some xs) :
    listEmptyCareful h m = .ok xs.isEmpty m := by
  have ring := held.ring h xs there
  rw [listEmptyCareful, bind_ok (readNext_run (ring_first ring).1)]
  cases xs with
  | nil =>
    rw [List.headD_nil, if_pos rfl, bind_ok (readPrev_run (ring_last ring).2)]
    simp
  | cons x xs =>
    have nodup := ring.nodup
    have far : x ≠ h := by grind
    rw [List.headD_cons, if_neg far]
    rfl

theorem listIsLast_chained (held : Chains live m S) (there : S h = some (ys ++ e :: zs)) :
    listIsLast e h m = .ok zs.isEmpty m := by
  have ring := held.ring h _ there
  have nodup := ring.nodup
  rw [listIsLast, bind_ok (readNext_run (ring_next ring).1), pure_run]
  cases zs with
  | nil => simp
  | cons z zs =>
    have far : z ≠ h := by grind
    simp [far]

/-- What a program reads of a list is its content: the tests of it and the nodes the loops stop at. -/
theorem reads_content (held : Chains live m S) (there : S h = some xs) (enough : xs.length < rounds) :
    listEmpty h m = .ok xs.isEmpty m ∧ listEmptyCareful h m = .ok xs.isEmpty m ∧
      listIsSingular h m = .ok (decide (xs.length = 1)) m ∧ listForEach h rounds m = .ok xs m ∧
      listForEachPrev h rounds m = .ok xs.reverse m ∧
      ∀ ys e zs, xs = ys ++ e :: zs → listIsLast e h m = .ok zs.isEmpty m ∧
        listForEachEntryFrom e h rounds m = .ok (e :: zs) m ∧ listForEachEntryContinue e h rounds m = .ok zs m ∧
        listForEachEntryContinueReverse e h rounds m = .ok ys.reverse m := by
  refine ⟨listEmpty_chained held there, listEmptyCareful_chained held there, listIsSingular_chained held there,
    listForEach_visits held there enough, listForEachPrev_visits held there enough, ?_⟩
  rintro ys e zs rfl
  exact ⟨listIsLast_chained held there, listForEachEntry_visits held there enough⟩

theorem reads_content_two :
    let m : Links Nat := fun x => [⟨1, 2⟩, ⟨2, 0⟩, ⟨0, 1⟩][x]?
    listIsSingular 0 m = .ok false m ∧ listForEachPrev 0 3 m = .ok [2, 1] m ∧ listIsLast 2 0 m = .ok true m := by
  intro m
  have ring : m.Ring 0 [1, 2] := by
    refine ⟨?_, by decide⟩
    exact List.isChain_cons_cons.mpr ⟨⟨rfl, rfl⟩,
      List.isChain_cons_cons.mpr ⟨⟨rfl, rfl⟩, List.isChain_pair.mpr ⟨rfl, rfl⟩⟩⟩
  have none : Chains (fun a => (m a).isSome = true) m fun _ => none := chains_none fun _ lives => lives
  have held : Chains (fun a => (m a).isSome = true) m (Contents.put (fun _ => Option.none) 0 [1, 2]) := by
    apply chains_insert none ring
    · decide
    · intro k ys _ there
      cases there
  have there : Contents.put (fun _ => Option.none) 0 [1, 2] 0 = some [1, 2] := rfl
  have reads := reads_content held there (by decide : 2 < 3)
  exact ⟨reads.2.2.1, reads.2.2.2.2.1, (reads.2.2.2.2.2 [1] 2 [] rfl).1⟩

end Loops

end Newplat.ListHead
