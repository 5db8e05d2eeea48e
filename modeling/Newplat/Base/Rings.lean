import Newplat.Base.Memory

/-! Doubly linked rings in a memory of links. Whatever is done to a ring is done by making two
nodes neighbours, so one lemma about that is behind every operation. -/
namespace Newplat.Base

structure Link (α : Type) where
  next : α
  prev : α

/-- The links of the nodes that exist. -/
abbrev Links (α : Type) := α → Option (Link α)

/-- The content of each list, found by its head. -/
abbrev Contents (α : Type) := α → Option (List α)

namespace Contents

variable {α : Type} [DecidableEq α] {S : Contents α} {h k : α} {xs ys : List α}

def put (S : Contents α) (h : α) (xs : List α) : Contents α := Function.update S h (some xs)

def drop (S : Contents α) (h : α) : Contents α := Function.update S h none

@[simp] theorem put_self : S.put h xs h = some xs := Function.update_self ..

@[simp] theorem put_other (other : k ≠ h) : S.put h xs k = S k := Function.update_of_ne other ..

@[simp] theorem drop_self : S.drop h h = none := Function.update_self ..

@[simp] theorem drop_other (other : k ≠ h) : S.drop h k = S k := Function.update_of_ne other ..

theorem drop_put : (S.drop h).put h xs = S.put h xs := Function.update_idem ..

theorem put_put : (S.put h ys).put h xs = S.put h xs := Function.update_idem ..

theorem put_same (there : S h = some xs) : S.put h xs = S := by
  rw [put, ← there]
  exact Function.update_eq_self h S

theorem drop_put_comm (other : k ≠ h) : (S.drop h).put k ys = (S.put k ys).drop h :=
  (Function.update_comm other ..).symm

end Contents

namespace Links

variable {α : Type}

def nextOf (m : Links α) (x : α) : Option α := (m x).map Link.next

def prevOf (m : Links α) (x : α) : Option α := (m x).map Link.prev

def Adjacent (m : Links α) (a b : α) : Prop := m.nextOf a = some b ∧ m.prevOf b = some a

def Walk (m : Links α) (w : List α) : Prop := w.IsChain m.Adjacent

/-- From the head through the whole content and back to the head, in both directions. -/
structure Ring (m : Links α) (h : α) (xs : List α) : Prop where
  walk : m.Walk (h :: xs ++ [h])
  nodup : (h :: xs).Nodup

section Update

variable [DecidableEq α]

def setNext (m : Links α) (p q : α) : Links α := fun x =>
  if x = p then (m x).map fun l => { l with next := q } else m x

def setPrev (m : Links α) (p q : α) : Links α := fun x =>
  if x = p then (m x).map fun l => { l with prev := q } else m x

def link (m : Links α) (a b : α) : Links α := (m.setNext a b).setPrev b a

end Update

section Writes

variable [DecidableEq α] {m : Links α} {a b x y p q p' q' : α}

theorem setNext_setPrev (m : Links α) (p q p' q' : α) :
    (m.setPrev p' q').setNext p q = (m.setNext p q).setPrev p' q' := by
  funext x
  simp only [setNext, setPrev]
  split <;> split <;> cases m x <;> rfl

@[simp] theorem setNext_lives (m : Links α) (p q x : α) : (m.setNext p q x).isSome = (m x).isSome := by
  unfold setNext
  split
  · exact Option.isSome_map
  · rfl

@[simp] theorem setPrev_lives (m : Links α) (p q x : α) : (m.setPrev p q x).isSome = (m x).isSome := by
  unfold setPrev
  split
  · exact Option.isSome_map
  · rfl

@[simp] theorem link_lives (m : Links α) (a b x : α) : (m.link a b x).isSome = (m x).isSome := by
  rw [link, setPrev_lives, setNext_lives]

theorem link_elsewhere (source : x ≠ a) (target : x ≠ b) : m.link a b x = m x := by
  simp [link, setNext, setPrev, source, target]

theorem nextOf_setPrev (m : Links α) (p q x : α) : (m.setPrev p q).nextOf x = m.nextOf x := by
  unfold nextOf setPrev
  split
  · cases m x <;> rfl
  · rfl

theorem prevOf_setNext (m : Links α) (p q x : α) : (m.setNext p q).prevOf x = m.prevOf x := by
  unfold prevOf setNext
  split
  · cases m x <;> rfl
  · rfl

theorem nextOf_link_other (other : x ≠ a) : (m.link a b).nextOf x = m.nextOf x := by
  rw [link, nextOf_setPrev, nextOf, setNext, if_neg other, nextOf]

theorem prevOf_link_other (other : x ≠ b) : (m.link a b).prevOf x = m.prevOf x := by
  rw [link, prevOf, setPrev, if_neg other, ← prevOf, prevOf_setNext]

theorem nextOf_link (lives : (m a).isSome = true) : (m.link a b).nextOf a = some b := by
  obtain ⟨l, there⟩ := Option.isSome_iff_exists.mp lives
  rw [link, nextOf_setPrev, nextOf, setNext, if_pos rfl, there]
  rfl

theorem prevOf_link (lives : (m b).isSome = true) : (m.link a b).prevOf b = some a := by
  have kept : (m.setNext a b b).isSome = true := by rwa [setNext_lives]
  obtain ⟨l, there⟩ := Option.isSome_iff_exists.mp kept
  rw [link, prevOf, setPrev, if_pos rfl, there]
  rfl

theorem adjacent_link (source : (m a).isSome = true) (target : (m b).isSome = true) : (m.link a b).Adjacent a b :=
  ⟨nextOf_link source, prevOf_link target⟩

theorem setNext_comm (far : a ≠ x) : (m.setNext a b).setNext x y = (m.setNext x y).setNext a b := by
  funext z
  simp only [setNext]
  by_cases here : z = x
  · simp [here, Ne.symm far]
  · simp [here]

theorem setPrev_comm (far : a ≠ x) : (m.setPrev a b).setPrev x y = (m.setPrev x y).setPrev a b := by
  funext z
  simp only [setPrev]
  by_cases here : z = x
  · simp [here, Ne.symm far]
  · simp [here]

theorem link_comm (source : a ≠ x) (target : b ≠ y) : (m.link a b).link x y = (m.link x y).link a b := by
  simp only [link]
  rw [setNext_setPrev, setNext_comm source, setPrev_comm target, setNext_setPrev]

/-- Neighbours stay neighbours when neither of the two links between them is written. -/
theorem adjacent_kept (source : x ≠ a) (target : y ≠ b) (adjacent : m.Adjacent x y) : (m.link a b).Adjacent x y := by
  obtain ⟨next, prev⟩ := adjacent
  exact ⟨(nextOf_link_other source).trans next, (prevOf_link_other target).trans prev⟩

end Writes

section Walks

variable {m m' : Links α} {a b h : α} {front back w xs ys zs : List α}

theorem adjacent_lives (adjacent : m.Adjacent a b) : (m a).isSome = true ∧ (m b).isSome = true := by
  obtain ⟨next, prev⟩ := adjacent
  have first := congrArg Option.isSome next
  have second := congrArg Option.isSome prev
  rw [nextOf, Option.isSome_map] at first
  rw [prevOf, Option.isSome_map] at second
  exact ⟨first, second⟩

theorem adjacent_agree (first : m' a = m a) (second : m' b = m b) (adjacent : m.Adjacent a b) : m'.Adjacent a b := by
  obtain ⟨next, prev⟩ := adjacent
  rw [nextOf] at next
  rw [prevOf] at prev
  exact ⟨by rwa [nextOf, first], by rwa [prevOf, second]⟩

theorem walk_agree (agree : ∀ x ∈ w, m' x = m x) (walk : m.Walk w) : m'.Walk w :=
  walk.imp_of_mem_imp fun x y first second => adjacent_agree (agree x first) (agree y second)

theorem ring_agree (agree : ∀ x ∈ h :: xs, m' x = m x) (ring : m.Ring h xs) : m'.Ring h xs where
  walk := by
    apply walk_agree _ ring.walk
    intro x member
    rcases List.mem_append.mp member with inside | last
    · exact agree x inside
    · rw [List.mem_singleton.mp last]
      exact agree h List.mem_cons_self
  nodup := ring.nodup

variable [DecidableEq α]

theorem walk_kept (source : a ∉ w.dropLast) (target : b ∉ w.tail) (walk : m.Walk w) : (m.link a b).Walk w := by
  induction w with
  | nil => exact .nil
  | cons x w ih =>
    cases w with
    | nil => exact .singleton x
    | cons y w =>
      obtain ⟨first, rest⟩ := List.isChain_cons_cons.mp walk
      rw [List.dropLast_cons_cons, List.mem_cons, not_or] at source
      rw [List.tail_cons, List.mem_cons, not_or] at target
      refine List.isChain_cons_cons.mpr ⟨?_, ?_⟩
      · exact adjacent_kept (fun same => source.1 same.symm) (fun same => target.1 same.symm) first
      · exact ih source.2 target.2 rest

/-- Two walks become one when their ends are made neighbours. -/
theorem walk_link (source : (m a).isSome = true) (target : (m b).isSome = true) (first : m.Walk (front ++ [a]))
    (second : m.Walk (b :: back)) (sources : (front ++ a :: b :: back).dropLast.Nodup)
    (targets : (front ++ a :: b :: back).tail.Nodup) : (m.link a b).Walk (front ++ a :: b :: back) := by
  have whole : front ++ a :: b :: back = (front ++ [a]) ++ b :: back := by simp
  have starts : (front ++ a :: b :: back).dropLast = front ++ a :: (b :: back).dropLast := by
    rw [List.dropLast_append_of_ne_nil (by simp)]
    rfl
  rw [starts, List.nodup_middle, List.nodup_cons] at sources
  rw [whole, List.tail_append_of_ne_nil (by simp), List.nodup_middle, List.nodup_cons] at targets
  simp only [List.mem_append, not_or] at sources targets
  refine List.isChain_append_cons_cons.mpr ⟨?_, adjacent_link source target, ?_⟩
  · apply walk_kept _ targets.1.1 first
    rw [List.dropLast_concat]
    exact sources.1.1
  · exact walk_kept sources.1.2 targets.1.2 second

end Walks

section Rings

variable {m m' : Links α} {a b c d e h l : α} {front back w xs ys zs : List α}

/-- The place between two parts of a content: the neighbours there, and the walks up to and from it. -/
structure Gap (m : Links α) (h : α) (ys zs : List α) (front : List α) (a b : α) (back : List α) : Prop where
  before : h :: ys = front ++ [a]
  after : zs ++ [h] = b :: back
  first : m.Walk (front ++ [a])
  second : m.Walk (b :: back)
  source : (m a).isSome = true
  target : (m b).isSome = true

theorem ends_before (h : α) (ys : List α) : ∃ front a, h :: ys = front ++ [a] := by
  rcases List.eq_nil_or_concat (h :: ys) with none | ⟨front, a, last⟩
  · cases none
  · exact ⟨front, a, by rw [last, List.concat_eq_append]⟩

theorem starts_after (zs : List α) (h : α) : ∃ b back, zs ++ [h] = b :: back := by
  cases zs with
  | nil => exact ⟨h, [], rfl⟩
  | cons z zs => exact ⟨z, zs ++ [h], rfl⟩

theorem ring_gap (ring : m.Ring h (ys ++ zs)) : ∃ front a b back, m.Gap h ys zs front a b back ∧ m.Adjacent a b := by
  obtain ⟨front, a, before⟩ := ends_before h ys
  obtain ⟨b, back, after⟩ := starts_after zs h
  have whole : h :: (ys ++ zs) ++ [h] = front ++ a :: b :: back := by
    rw [← List.cons_append, before, List.append_assoc, after, List.append_assoc]
    rfl
  have walk := ring.walk
  rw [whole] at walk
  obtain ⟨first, adjacent, second⟩ := List.isChain_append_cons_cons.mp walk
  have lives := adjacent_lives adjacent
  exact ⟨front, a, b, back, ⟨before, after, first, second, lives.1, lives.2⟩, adjacent⟩

/-- The place of one node of the content, which the walks then leave out. -/
theorem ring_around (ring : m.Ring h (ys ++ e :: zs)) :
    ∃ front a b back, m.Gap h ys zs front a b back ∧ m.Adjacent a e ∧ m.Adjacent e b := by
  obtain ⟨front, a, e', back', gap, enters⟩ := ring_gap ring
  obtain ⟨b, back, after⟩ := starts_after zs h
  have rest : e :: (zs ++ [h]) = e' :: back' := gap.after
  rw [after] at rest
  cases rest
  obtain ⟨leaves, second⟩ := List.isChain_cons_cons.mp gap.second
  exact ⟨front, a, b, back, ⟨gap.before, after, gap.first, second, gap.source, (adjacent_lives leaves).2⟩, enters,
    leaves⟩

theorem ring_first (ring : m.Ring h xs) : m.Adjacent h (xs.headD h) := by
  have walk := ring.walk
  cases xs with
  | nil => exact List.isChain_pair.mp walk
  | cons x xs => exact (List.isChain_cons_cons.mp walk).1

theorem ring_content (ring : m.Ring h xs) : m.Walk xs :=
  (List.isChain_append.mp ring.walk).1.tail

theorem ring_last (ring : m.Ring h xs) : m.Adjacent (xs.getLastD h) h := by
  have walk := ring.walk
  rcases List.eq_nil_or_concat xs with rfl | ⟨ys, x, rfl⟩
  · exact List.isChain_pair.mp walk
  · rw [List.concat_eq_append] at walk ⊢
    rw [List.getLastD_concat]
    have whole : h :: (ys ++ [x]) ++ [h] = (h :: ys) ++ x :: h :: [] := by simp
    rw [whole] at walk
    exact (List.isChain_append_cons_cons.mp walk).2.1

theorem ring_next (ring : m.Ring h (ys ++ e :: zs)) : m.Adjacent e (zs.headD h) := by
  have walk := ring.walk
  have whole : h :: (ys ++ e :: zs) ++ [h] = (h :: ys) ++ e :: (zs ++ [h]) := by simp
  rw [whole] at walk
  have rest := (List.isChain_append.mp walk).2.1
  cases zs with
  | nil => exact List.isChain_pair.mp rest
  | cons z zs => exact (List.isChain_cons_cons.mp rest).1

theorem ring_prev (ring : m.Ring h (ys ++ e :: zs)) : m.Adjacent (ys.getLastD h) e := by
  have walk := ring.walk
  rcases List.eq_nil_or_concat ys with rfl | ⟨us, u, rfl⟩
  · exact (List.isChain_cons_cons.mp walk).1
  · rw [List.concat_eq_append] at walk ⊢
    rw [List.getLastD_concat]
    have whole : h :: (us ++ [u] ++ e :: zs) ++ [h] = (h :: us) ++ u :: e :: (zs ++ [h]) := by simp
    rw [whole] at walk
    exact (List.isChain_append_cons_cons.mp walk).2.1

theorem gap_front (ring : m.Ring h xs) : ∃ b back, m.Gap h [] xs [] h b back ∧ m.Adjacent h b := by
  rw [← List.nil_append xs] at ring
  obtain ⟨front, a, b, back, gap, adjacent⟩ := ring_gap ring
  have before : [h] = front ++ [a] := gap.before
  obtain ⟨rfl, rfl⟩ : front = [] ∧ a = h := by cases front <;> simp_all
  exact ⟨b, back, gap, adjacent⟩

theorem gap_back (ring : m.Ring h xs) : ∃ front a, m.Gap h xs [] front a h [] ∧ m.Adjacent a h := by
  rw [← List.append_nil xs] at ring
  obtain ⟨front, a, b, back, gap, adjacent⟩ := ring_gap ring
  have after := gap.after
  cases after
  exact ⟨front, a, gap, adjacent⟩

theorem gap_whole (gap : m.Gap h ys zs front a b back) : front ++ a :: b :: back = h :: (ys ++ zs) ++ [h] := by
  rw [List.append_cons, ← gap.before, ← gap.after]
  simp

theorem gap_inside (gap : m.Gap h ys zs front a b back) : a ∈ h :: ys ∧ b ∈ zs ++ [h] := by
  rw [gap.before, gap.after]
  simp

theorem targets_nodup (nodup : (h :: xs).Nodup) : (xs ++ [h]).Nodup := by
  have same : (xs ++ [h]).Perm (h :: xs) := List.perm_append_singleton h xs
  exact same.nodup_iff.mpr nodup

variable [DecidableEq α]

theorem ring_link (gap : m.Gap h ys zs front a b back) (nodup : (h :: (ys ++ zs)).Nodup) :
    (m.link a b).Ring h (ys ++ zs) where
  walk := by
    rw [← gap_whole gap]
    apply walk_link gap.source gap.target gap.first gap.second
    · rwa [gap_whole gap, List.dropLast_concat]
    · rw [gap_whole gap]
      exact targets_nodup nodup
  nodup := nodup

/-- A walk is put into the gap: its last node is linked first, then its first. -/
theorem ring_insert (gap : m.Gap h ys zs front a b back) {wback wfront : List α} (starts : w = c :: wback)
    (ends : w = wfront ++ [d]) (middle : m.Walk w) (nodup : (h :: (ys ++ (w ++ zs))).Nodup)
    (livesC : (m c).isSome = true) (livesD : (m d).isSome = true) :
    ((m.link d b).link a c).Ring h (ys ++ (w ++ zs)) := by
  have order : (front ++ [a] ++ (w ++ zs)).Nodup := by
    rw [← gap.before]
    exact nodup
  have targets : (ys ++ (w ++ (zs ++ [h]))).Nodup := by
    have all := targets_nodup nodup
    simpa using all
  have inside : d ∈ w := by simp [ends]
  have tailFront : (front ++ [a]).tail = ys := by
    rw [← gap.before]
    rfl
  -- what is linked behind the walk is neither in the part before the gap nor in the walk
  have apart : d ∉ front := fun member =>
    (List.nodup_append.mp order).2.2 d (List.mem_append_left _ member) d (List.mem_append_left _ inside) rfl
  have late : b ∉ ys := by
    intro member
    have far := (List.nodup_append.mp targets).2.2 b member b
    refine far (List.mem_append_right _ ?_) rfl
    rw [gap.after]
    exact List.mem_cons_self
  have first : (m.link d b).Walk (front ++ [a]) := by
    apply walk_kept _ _ gap.first
    · rw [List.dropLast_concat]
      exact apart
    · rwa [tailFront]
  have second : (m.link d b).Walk (wfront ++ d :: b :: back) := by
    have whole : wfront ++ d :: b :: back = w ++ (zs ++ [h]) := by
      rw [gap.after, ends]
      simp
    apply walk_link livesD gap.target (ends ▸ middle) gap.second
    · rw [whole, ← List.append_assoc, List.dropLast_concat]
      exact (List.nodup_append.mp order).2.1
    · rw [whole, starts]
      rw [starts] at targets
      exact ((List.nodup_append.mp targets).2.1).tail
  have joined : wfront ++ d :: b :: back = c :: (wback ++ b :: back) := by
    rw [List.append_cons, ← ends, starts]
    rfl
  rw [joined] at second
  have gap' : (m.link d b).Gap h ys (w ++ zs) front a c (wback ++ b :: back) := by
    refine ⟨gap.before, ?_, first, second, ?_, ?_⟩
    · rw [List.append_assoc, gap.after, starts]
      rfl
    · rw [link_lives]
      exact gap.source
    · rwa [link_lives]
  exact ring_link gap' nodup

/-- A walk is closed to a ring by a head of its own. -/
theorem ring_close {wback wfront : List α} (starts : w = c :: wback) (ends : w = wfront ++ [d]) (walk : m.Walk w)
    (nodup : (l :: w).Nodup) (livesL : (m l).isSome = true) (livesC : (m c).isSome = true)
    (livesD : (m d).isSome = true) : ((m.link l c).link d l).Ring l w := by
  have apart : l ∉ w := (List.nodup_cons.mp nodup).1
  have alone : m.Walk ([] ++ [l]) := .singleton l
  have opened : (m.link l c).Walk ([] ++ l :: c :: wback) := by
    apply walk_link livesL livesC alone (starts ▸ walk)
    · rw [List.nil_append, ← starts]
      exact nodup.sublist (List.dropLast_sublist _)
    · rw [List.nil_append, List.tail_cons, ← starts]
      exact (List.nodup_cons.mp nodup).2
  have whole : (l :: wfront) ++ [d] = l :: w := by
    rw [ends]
    rfl
  rw [List.nil_append, ← starts, ← whole] at opened
  refine ⟨?_, nodup⟩
  have closed : (l :: wfront) ++ d :: l :: [] = l :: w ++ [l] := by
    rw [ends]
    simp
  rw [← closed]
  apply walk_link (by rwa [link_lives]) (by rwa [link_lives]) opened (.singleton l)
  · rw [closed, List.dropLast_concat]
    exact nodup
  · rw [closed]
    exact targets_nodup nodup

theorem ring_empty (lives : (m l).isSome = true) : (m.link l l).Ring l [] :=
  ⟨List.isChain_pair.mpr (adjacent_link lives lives), List.nodup_singleton l⟩

end Rings

/-- Every list of the family is a ring of nodes that exist, and no node is in two of them. -/
structure Chains (live : α → Prop) (m : Links α) (S : Contents α) : Prop where
  exist : ∀ a, live a → (m a).isSome = true
  listed : ∀ h xs, S h = some xs → ∀ x ∈ h :: xs, live x
  ring : ∀ h xs, S h = some xs → m.Ring h xs
  apart : ∀ h xs k ys, S h = some xs → S k = some ys → h ≠ k → List.Disjoint (h :: xs) (k :: ys)

/-- In no list, and no list's head. -/
def Unlisted (S : Contents α) (a : α) : Prop := ∀ h xs, S h = some xs → a ∉ h :: xs

/-- Existing, and in no list but that of `h`. -/
structure Own (live : α → Prop) (S : Contents α) (h a : α) : Prop where
  lives : live a
  outside : ∀ k ys, k ≠ h → S k = some ys → a ∉ k :: ys

section Families

variable {live : α → Prop} {m m' : Links α} {S : Contents α} {a h : α} {xs : List α}

theorem unlisted_own (lives : live a) (free : Unlisted S a) (h : α) : Own live S h a :=
  ⟨lives, fun k ys _ there => free k ys there⟩

theorem listed_own (held : Chains live m S) (there : S h = some xs) (member : a ∈ h :: xs) : Own live S h a :=
  ⟨held.listed h xs there a member, fun k ys far there' member' => held.apart k ys h xs there' there far member' member⟩

theorem unlisted_none : Unlisted (fun _ => none) a := fun _ _ there => by cases there

theorem chains_none (exist : ∀ a, live a → (m a).isSome = true) : Chains live m fun _ => none where
  exist := exist
  listed _ _ there := by cases there
  ring _ _ there := by cases there
  apart _ _ _ _ there := by cases there

/-- What is written outside a family does not concern it, nor what exists outside it. -/
theorem chains_live {live' : α → Prop} (held : Chains live m S) (exist : ∀ a, live' a → (m' a).isSome = true)
    (agree : ∀ h xs, S h = some xs → ∀ x ∈ h :: xs, m' x = m x ∧ live' x) : Chains live' m' S where
  exist := exist
  listed h xs there x member := (agree h xs there x member).2
  ring h xs there := ring_agree (fun x member => (agree h xs there x member).1) (held.ring h xs there)
  apart := held.apart

theorem chains_agree (held : Chains live m S) (exist : ∀ a, live a → (m' a).isSome = true)
    (agree : ∀ h xs, S h = some xs → ∀ x ∈ h :: xs, m' x = m x) : Chains live m' S :=
  chains_live held exist fun h xs there x member => ⟨agree h xs there x member, held.listed h xs there x member⟩

variable [DecidableEq α]

theorem chains_drop (held : Chains live m S) (h : α) : Chains live m (S.drop h) where
  exist := held.exist
  listed k ys there := by
    by_cases same : k = h
    · simp [same] at there
    · rw [Contents.drop_other same] at there
      exact held.listed k ys there
  ring k ys there := by
    by_cases same : k = h
    · simp [same] at there
    · rw [Contents.drop_other same] at there
      exact held.ring k ys there
  apart k ys j zs first second far := by
    by_cases same : k = h
    · simp [same] at first
    by_cases same' : j = h
    · simp [same'] at second
    rw [Contents.drop_other same] at first
    rw [Contents.drop_other same'] at second
    exact held.apart k ys j zs first second far

theorem chains_insert (held : Chains live m S) (ring : m.Ring h xs) (lives : ∀ x ∈ h :: xs, live x)
    (apart : ∀ k ys, k ≠ h → S k = some ys → List.Disjoint (h :: xs) (k :: ys)) :
    Chains live m (S.put h xs) where
  exist := held.exist
  listed k ys there := by
    by_cases same : k = h
    · subst same
      rw [Contents.put_self] at there
      cases there
      exact lives
    · rw [Contents.put_other same] at there
      exact held.listed k ys there
  ring k ys there := by
    by_cases same : k = h
    · subst same
      rw [Contents.put_self] at there
      cases there
      exact ring
    · rw [Contents.put_other same] at there
      exact held.ring k ys there
  apart k ys j zs first second far := by
    by_cases same : k = h
    · subst same
      rw [Contents.put_self] at first
      rw [Contents.put_other (Ne.symm far)] at second
      cases first
      exact apart j zs (Ne.symm far) second
    rw [Contents.put_other same] at first
    by_cases same' : j = h
    · subst same'
      rw [Contents.put_self] at second
      cases second
      exact (apart k ys same first).symm
    · rw [Contents.put_other same'] at second
      exact held.apart k ys j zs first second far

/-- One list is given a new content, by writing only to nodes that no other list has. -/
theorem chains_set {T : List α} (held : Chains live m S) (lives : ∀ x, (m' x).isSome = (m x).isSome)
    (agree : ∀ x, x ∉ T → m' x = m x) (touched : ∀ x ∈ T, Own live S h x) (ring : m'.Ring h xs)
    (within : ∀ x ∈ h :: xs, Own live S h x) : Chains live m' (S.put h xs) := by
  have others : Chains live m' (S.drop h) := by
    apply chains_agree (chains_drop held h)
    · intro x exists'
      rw [lives]
      exact held.exist x exists'
    · intro k ys there x member
      by_cases same : k = h
      · simp [same] at there
      rw [Contents.drop_other same] at there
      apply agree
      exact fun inside => (touched x inside).outside k ys same there member
  rw [← Contents.drop_put]
  apply chains_insert others ring fun x member => (within x member).lives
  intro k ys far there x member member'
  rw [Contents.drop_other far] at there
  exact (within x member).outside k ys far there member'

variable {b c d : α} {front back w ys zs : List α}

/-- What stood in the gap is taken out. -/
theorem chains_linked (held : Chains live m S) (gap : m.Gap h ys zs front a b back)
    (nodup : (h :: (ys ++ zs)).Nodup) (own : ∀ x ∈ h :: (ys ++ zs), Own live S h x) :
    Chains live (m.link a b) (S.put h (ys ++ zs)) := by
  have inside := gap_inside gap
  apply chains_set (T := [a, b]) held (link_lives m a b) _ _ (ring_link gap nodup) own
  · intro x far
    rw [List.mem_cons, List.mem_singleton, not_or] at far
    exact link_elsewhere far.1 far.2
  · intro x member
    apply own
    grind

/-- A walk of nodes that no other list has is put into the gap. -/
theorem chains_inserted (held : Chains live m S) (gap : m.Gap h ys zs front a b back) {wback wfront : List α}
    (starts : w = c :: wback) (ends : w = wfront ++ [d]) (middle : m.Walk w) (nodup : (h :: (ys ++ (w ++ zs))).Nodup)
    (livesC : (m c).isSome = true) (livesD : (m d).isSome = true)
    (own : ∀ x ∈ h :: (ys ++ (w ++ zs)), Own live S h x) :
    Chains live ((m.link d b).link a c) (S.put h (ys ++ (w ++ zs))) := by
  have inside := gap_inside gap
  have first : c ∈ w := by simp [starts]
  have last : d ∈ w := by simp [ends]
  apply chains_set (T := [a, b, c, d]) held _ _ _ (ring_insert gap starts ends middle nodup livesC livesD) own
  · intro x
    rw [link_lives, link_lives]
  · intro x far
    simp only [List.mem_cons, List.not_mem_nil, or_false, not_or] at far
    rw [link_elsewhere far.1 far.2.2.1, link_elsewhere far.2.2.2 far.2.1]
  · intro x member
    apply own
    grind

theorem dropped_unlisted (held : Chains live m S) (there : S h = some xs) (member : a ∈ h :: xs) :
    Unlisted (S.drop h) a := by
  intro k ys there'
  by_cases same : k = h
  · simp [same] at there'
  · rw [Contents.drop_other same] at there'
    exact (listed_own held there member).outside k ys same there'

theorem own_drop (own : Own live S h a) (k : α) : Own live (S.drop k) h a := by
  refine ⟨own.lives, fun j ys far there => ?_⟩
  by_cases same : j = k
  · simp [same] at there
  · rw [Contents.drop_other same] at there
    exact own.outside j ys far there

theorem unlisted_put (free : Unlisted S a) (far : a ∉ h :: xs) : Unlisted (S.put h xs) a := by
  intro k ys there
  by_cases same : k = h
  · subst same
    rw [Contents.put_self] at there
    cases there
    exact far
  · rw [Contents.put_other same] at there
    exact free k ys there

/-- A walk of nodes that no other list has becomes a list of its own. -/
theorem chains_close (held : Chains live m S) {wback wfront : List α} (starts : w = c :: wback)
    (ends : w = wfront ++ [d]) (walk : m.Walk w) (nodup : (h :: w).Nodup) (own : ∀ x ∈ h :: w, Own live S h x) :
    Chains live ((m.link h c).link d h) (S.put h w) := by
  have first : c ∈ w := by simp [starts]
  have last : d ∈ w := by simp [ends]
  have lives : ∀ x ∈ h :: w, (m x).isSome = true := fun x member => held.exist x (own x member).lives
  apply chains_set (T := [h, c, d]) held _ _ _ _ own
  · intro x
    rw [link_lives, link_lives]
  · intro x far
    simp only [List.mem_cons, List.not_mem_nil, or_false, not_or] at far
    rw [link_elsewhere far.2.2 far.1, link_elsewhere far.1 far.2.1]
  · intro x member
    apply own
    grind
  · exact ring_close starts ends walk nodup (lives h List.mem_cons_self) (lives c (List.mem_cons_of_mem h first))
      (lives d (List.mem_cons_of_mem h last))

end Families

end Links

end Newplat.Base
