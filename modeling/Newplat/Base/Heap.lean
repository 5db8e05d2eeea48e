import Newplat.Base.Memory

/-! Blocks of cells on a heap. An address is never given twice, so that a pointer kept over a
`realloc` that moved the block leads to a freed one. -/
namespace Newplat.Base

/-- The block at each address, `none` when it was freed. -/
structure Heap (α : Type) where
  blocks : List (Option (List α))

namespace Heap

variable {α : Type}

def empty : Heap α := ⟨[]⟩

def block (h : Heap α) (p : Nat) : Option (List α) := h.blocks[p]?.join

def alloc (h : Heap α) (cells : List α) : Nat × Heap α := (h.blocks.length, ⟨h.blocks ++ [some cells]⟩)

def resize (cells : List α) (n : Nat) (fresh : α) : List α :=
  cells.take n ++ List.replicate (n - cells.length) fresh

/-- Whether the block moves is the allocator's choice. -/
def realloc (h : Heap α) (p : Option Nat) (n : Nat) (fresh : α) (moves : Bool) : Checked (Nat × Heap α) :=
  match p with
  | none => .ok (h.alloc (List.replicate n fresh))
  | some p =>
    match h.block p with
    | none => .error .outOfBounds
    | some cells =>
      if moves then .ok ((⟨h.blocks.set p none⟩ : Heap α).alloc (resize cells n fresh))
      else .ok (p, ⟨h.blocks.set p (some (resize cells n fresh))⟩)

def store (h : Heap α) (p i : Nat) (v : α) : Checked (Heap α) :=
  match h.block p with
  | none => .error .outOfBounds
  | some cells => if i < cells.length then .ok ⟨h.blocks.set p (some (cells.set i v))⟩ else .error .outOfBounds

def load (h : Heap α) (p i : Nat) : Checked α :=
  match h.block p with
  | none => .error .outOfBounds
  | some cells =>
    match cells[i]? with
    | some v => .ok v
    | none => .error .outOfBounds

/-- A block that was freed cannot be freed again. -/
def free (h : Heap α) (p : Nat) : Checked (Heap α) :=
  match h.block p with
  | none => .error .outOfBounds
  | some _ => .ok ⟨h.blocks.set p none⟩

/-- How many blocks were not freed. -/
def live (h : Heap α) : Nat := h.blocks.countP Option.isSome

variable {h : Heap α} {p : Nat} {cells : List α}

theorem block_alloc (h : Heap α) (cells : List α) : (h.alloc cells).2.block (h.alloc cells).1 = some cells := by
  simp [alloc, block]

theorem block_inside (held : h.block p = some cells) : p < h.blocks.length := by
  by_contra outside
  simp [block, List.getElem?_eq_none (Nat.le_of_not_lt outside)] at held

theorem block_set (inside : p < h.blocks.length) (cells : List α) :
    (⟨h.blocks.set p (some cells)⟩ : Heap α).block p = some cells := by
  simp [block, List.getElem?_set_self inside]

theorem realloc_block (held : h.block p = some cells) (n : Nat) (fresh : α) (moves : Bool) :
    ∃ q h', h.realloc (some p) n fresh moves = .ok (q, h') ∧ h'.block q = some (resize cells n fresh) := by
  cases moves with
  | true => exact ⟨_, _, by simp [realloc, held], block_alloc ⟨h.blocks.set p none⟩ _⟩
  | false => exact ⟨p, _, by simp [realloc, held], block_set (block_inside held) _⟩

theorem store_block (held : h.block p = some cells) {i : Nat} (inside : i < cells.length) (v : α) :
    ∃ h', h.store p i v = .ok h' ∧ h'.block p = some (cells.set i v) :=
  ⟨_, by simp [store, held, inside], block_set (block_inside held) _⟩

theorem block_new (h : Heap α) : h.block h.blocks.length = none := by
  simp [block]

theorem block_alloc_other {q : Nat} (cells : List α) (other : q ≠ h.blocks.length) :
    (h.alloc cells).2.block q = h.block q := by
  rw [block, alloc, block]
  rcases Nat.lt_or_gt_of_ne other with low | high
  · rw [List.getElem?_append_left low]
  · rw [List.getElem?_eq_none (by simpa using high), List.getElem?_eq_none (Nat.le_of_lt high)]

theorem block_set_other {q : Nat} (other : q ≠ p) (b : Option (List α)) :
    (⟨h.blocks.set p b⟩ : Heap α).block q = h.block q := by
  rw [block, block, List.getElem?_set_ne (Ne.symm other)]

theorem load_block (held : h.block p = some cells) {i : Nat} {v : α} (inside : cells[i]? = some v) :
    h.load p i = .ok v := by
  simp [load, held, inside]

theorem store_runs (held : h.block p = some cells) {i : Nat} (inside : i < cells.length) (v : α) :
    h.store p i v = .ok ⟨h.blocks.set p (some (cells.set i v))⟩ := by
  simp [store, held, inside]

theorem free_runs (held : h.block p = some cells) : h.free p = .ok ⟨h.blocks.set p none⟩ := by
  simp [free, held]

theorem block_freed (held : h.block p = some cells) : (⟨h.blocks.set p none⟩ : Heap α).block p = none := by
  simp [block, List.getElem?_set_self (block_inside held)]

/-- One cell more, filled at once. -/
theorem resize_set (cells : List α) (fresh v : α) :
    (resize cells (cells.length + 1) fresh).set cells.length v = cells ++ [v] := by
  simp [resize, List.take_of_length_le]

theorem resize_length (cells : List α) (fresh : α) :
    (resize cells (cells.length + 1) fresh).length = cells.length + 1 := by
  simp [resize]

/-- The blocks of the heap are exactly these. -/
structure Tells (h : Heap α) (L : List (Nat × List α)) : Prop where
  nodup : (L.map Prod.fst).Nodup
  blocks : ∀ q cells, h.block q = some cells ↔ (q, cells) ∈ L

section Tells

variable {L M : List (Nat × List α)}

theorem tells_empty : (empty : Heap α).Tells [] where
  nodup := List.nodup_nil
  blocks _ _ := by simp [empty, block]

theorem tells_perm (tells : h.Tells L) (perm : L.Perm M) : h.Tells M where
  nodup := (perm.map Prod.fst).nodup_iff.mp tells.nodup
  blocks q cells := (tells.blocks q cells).trans perm.mem_iff

theorem tells_inside (tells : h.Tells L) {q : Nat} (member : q ∈ L.map Prod.fst) : q < h.blocks.length := by
  obtain ⟨⟨_, cells⟩, there, rfl⟩ := List.mem_map.mp member
  exact block_inside ((tells.blocks _ cells).mpr there)

theorem tells_alloc (tells : h.Tells L) (cells : List α) : (h.alloc cells).2.Tells ((h.blocks.length, cells) :: L) where
  nodup := by
    refine List.nodup_cons.mpr ⟨fun member => ?_, tells.nodup⟩
    exact Nat.lt_irrefl _ (tells_inside tells member)
  blocks q cells' := by
    by_cases new : q = h.blocks.length
    · have fresh : (q, cells') ∉ L := fun member => by
        have held := (tells.blocks q cells').mpr member
        rw [new, block_new] at held
        cases held
      have given : (h.alloc cells).2.block q = some cells := by
        rw [new]
        exact block_alloc h cells
      rw [given, List.mem_cons, new]
      simp only [Option.some.injEq, Prod.mk.injEq, true_and]
      rw [new] at fresh
      simp only [fresh, or_false]
      exact eq_comm
    · rw [block_alloc_other cells new, tells.blocks q cells', List.mem_cons]
      simp [new]

theorem tells_set {c c' : List α} (tells : h.Tells ((p, c) :: L)) :
    (⟨h.blocks.set p (some c')⟩ : Heap α).Tells ((p, c') :: L) where
  nodup := tells.nodup
  blocks q cells := by
    have held := (tells.blocks p c).mpr List.mem_cons_self
    have apart := (List.nodup_cons.mp tells.nodup).1
    by_cases same : q = p
    · have out : (p, cells) ∉ L := fun member => apart (List.mem_map.mpr ⟨_, member, rfl⟩)
      rw [same, block_set (block_inside held), List.mem_cons]
      simp only [Option.some.injEq, Prod.mk.injEq, true_and, out, or_false]
      exact eq_comm
    · rw [block_set_other same, tells.blocks q cells, List.mem_cons, List.mem_cons]
      simp [same]

theorem tells_free {c : List α} (tells : h.Tells ((p, c) :: L)) : (⟨h.blocks.set p none⟩ : Heap α).Tells L where
  nodup := (List.nodup_cons.mp tells.nodup).2
  blocks q cells := by
    have held := (tells.blocks p c).mpr List.mem_cons_self
    have apart := (List.nodup_cons.mp tells.nodup).1
    by_cases same : q = p
    · have out : (p, cells) ∉ L := fun member => apart (List.mem_map.mpr ⟨_, member, rfl⟩)
      rw [same, block_freed held]
      simp [out]
    · rw [block_set_other same, tells.blocks q cells, List.mem_cons]
      simp [same]

/-- As many blocks are live as are told. -/
theorem tells_live (tells : h.Tells L) : h.live = L.length := by
  have counted : h.live = ((List.range h.blocks.length).filter fun q => (h.block q).isSome).length := by
    have indexed : h.blocks.map Option.isSome = (List.range h.blocks.length).map fun q => (h.block q).isSome := by
      apply List.ext_getElem (by simp)
      intro q inside _
      have inside' : q < h.blocks.length := by simpa using inside
      simp [block, List.getElem?_eq_getElem inside']
    have first : h.live = (h.blocks.map Option.isSome).count true := by
      rw [live, List.count, List.countP_map]
      congr 1
      funext b
      cases b <;> rfl
    rw [first, indexed, List.count, List.countP_map, List.countP_eq_length_filter]
    congr 2
    funext q
    simp
  have perm : ((List.range h.blocks.length).filter fun q => (h.block q).isSome).Perm (L.map Prod.fst) := by
    apply (List.perm_ext_iff_of_nodup (List.nodup_range.filter _) tells.nodup).mpr
    intro q
    rw [List.mem_filter, List.mem_range, Option.isSome_iff_exists, List.mem_map]
    constructor
    · rintro ⟨_, cells, held⟩
      exact ⟨(q, cells), (tells.blocks q cells).mp held, rfl⟩
    · rintro ⟨⟨_, cells⟩, member, rfl⟩
      have held := (tells.blocks _ cells).mpr member
      exact ⟨block_inside held, cells, held⟩
  rw [counted, perm.length_eq, List.length_map]

end Tells

end Heap

end Newplat.Base
