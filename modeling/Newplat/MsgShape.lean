import Newplat.MsgMemory

/-! What is in the memory of the queue, told completely: what is not told was never allocated, or
was freed. Each step over the memory is told by what it makes of that. -/
namespace Newplat.MsgMemory

open Base Links

def Mem.Live (mem : Mem) : ListAddr → Prop
  | .gMsgList => True
  | .node m => (mem.nodes.block m).isSome = true

def addrOf (m : MsgQueue) : ListAddr := .node m.serial

/-- The blocks a node's pointers lead to. -/
def stringsOf (e : MsgQueue × MsgNode) : List (Nat × Bytes) :=
  (match e.2.msg, e.1.msg with
    | some q, some s => [(q, s.buffer)]
    | _, _ => []) ++
  match e.2.sendTopic, e.1.sendTopic with
    | some q, some s => [(q, s.buffer)]
    | _, _ => []

def nodeOf (e : MsgQueue × MsgNode) : Nat × List MsgNode := (e.1.serial, [e.2])

/-- A pointer is null exactly when there is no text. -/
structure Paired (e : MsgQueue × MsgNode) : Prop where
  msg : e.2.msg.isSome = e.1.msg.isSome
  sendTopic : e.2.sendTopic.isSome = e.1.sendTopic.isSome

/-- What is in the memory: how many nodes were ever made, the waiting messages with their nodes,
the nodes in no list, and the strings no waiting node has. -/
structure Shape where
  made : Nat
  waiting : List (MsgQueue × MsgNode)
  spare : List (Nat × List MsgNode)
  others : List (Nat × Bytes)

def ringOf (waiting : List (MsgQueue × MsgNode)) : Contents ListAddr :=
  Contents.put (fun _ => none) .gMsgList (waiting.map fun e => addrOf e.1)

structure Represents (mem : Mem) (shape : Shape) : Prop where
  ring : Chains mem.Live mem.links (ringOf shape.waiting)
  nodes : mem.nodes.Tells (shape.waiting.map nodeOf ++ shape.spare)
  strings : mem.strings.Tells (shape.waiting.flatMap stringsOf ++ shape.others)
  made : mem.nodes.blocks.length = shape.made

/-- From memories that meet `P` the program returns, changes the memory only, and `Q` holds. -/
def Effects {α : Type} (P : Mem → Prop) (prog : MemProg α) (Q : α → Mem → Prop) : Prop :=
  ∀ s, P s.mem → ∃ a mem, prog s = .ok a { s with mem := mem } ∧ Q a mem

section Memory

variable {α β : Type} {P : Mem → Prop} {Q : α → Mem → Prop} {R : β → Mem → Prop} {made m q : Nat}
  {waiting : List (MsgQueue × MsgNode)} {spare spare' : List (Nat × List MsgNode)} {others : List (Nat × Bytes)}
  {shape : Shape} {node : MsgNode} {cells : Bytes}

theorem effects_bind {prog : MemProg α} {f : α → MemProg β} (first : Effects P prog Q)
    (rest : ∀ a, Effects (Q a) (f a) R) :
    Effects P (prog >>= f) R := by
  intro s before
  obtain ⟨a, mem, run, mid⟩ := first s before
  obtain ⟨b, mem', run', post⟩ := rest a { s with mem := mem } mid
  exact ⟨b, mem', (bind_ok run).trans run', post⟩

theorem effects_pure {a : α} (post : ∀ mem, P mem → Q a mem) : Effects P (pure a) Q :=
  fun s before => ⟨a, s.mem, rfl, post s.mem before⟩

/-- Changes to the strings alone. -/
theorem represents_strings {mem : Mem} (held : Represents mem shape) {strings : Heap UInt8}
    {others : List (Nat × Bytes)}
    (tells : strings.Tells (shape.waiting.flatMap stringsOf ++ others)) :
    Represents { mem with strings := strings } { shape with others := others } where
  ring := held.ring
  nodes := held.nodes
  strings := tells
  made := held.made

theorem represents_perm {mem : Mem} (held : Represents mem shape) (perm : shape.others.Perm others) :
    Represents mem { shape with others := others } :=
  represents_strings held (Heap.tells_perm held.strings (perm.append_left _))

theorem mallocString_effects (cells : Bytes) : Effects (Represents · shape) (mallocString cells)
    fun q mem => Represents mem { shape with others := (q, cells) :: shape.others } := by
  intro s held
  refine ⟨_, _, rfl, represents_strings held ?_⟩
  exact Heap.tells_perm (Heap.tells_alloc held.strings cells) List.perm_middle.symm

/-- A copy of the text, when there is memory for it. -/
def copies (p : Option Nat) (s : CString) : List (Nat × Bytes) := p.toList.map fun q => (q, s.buffer)

theorem strdup_effects (s : CString) (works : Bool) : Effects (Represents · shape) (strdup s works)
    fun p mem => Represents mem { shape with others := copies p s ++ shape.others } ∧ p.isSome = works := by
  cases works with
  | true =>
    apply effects_bind (mallocString_effects s.buffer)
    intro q
    exact effects_pure fun mem held => ⟨held, rfl⟩
  | false => exact effects_pure fun mem held => ⟨held, rfl⟩

theorem freeString_effects (shape : Shape) (q : Nat) (cells : Bytes) (others : List (Nat × Bytes)) :
    Effects (Represents · { shape with others := (q, cells) :: others }) (freeString (some q))
      fun _ mem => Represents mem { shape with others := others } := by
  intro s held
  have first := Heap.tells_perm held.strings List.perm_middle
  have there := (first.blocks q cells).mpr List.mem_cons_self
  refine ⟨(), _, ?_, represents_strings held (Heap.tells_free first)⟩
  simp [freeString, Heap.free_runs there, memCheck, modifyMem]

theorem loadString_run {s : Machine} (held : Represents s.mem shape) {text : CString}
    (member : (q, text.buffer) ∈ shape.waiting.flatMap stringsOf ++ shape.others) : loadString q s = .ok text s := by
  have there := (held.strings.blocks q text.buffer).mpr member
  have string : cstr text.buffer = .ok text := cstr_terminated text []
  simp [loadString, there, memCheck, string]

theorem listed_told {a : ListAddr} {h : ListAddr} {xs : List ListAddr}
    (there : ringOf shape.waiting h = some xs) (member : a ∈ h :: xs) :
    a = .gMsgList ∨ ∃ m, a = .node m ∧ m ∈ (shape.waiting.map nodeOf).map Prod.fst := by
  by_cases head : h = .gMsgList
  · rw [head, ringOf, Contents.put_self] at there
    cases there
    rw [head] at member
    rcases List.mem_cons.mp member with rfl | member
    · exact Or.inl rfl
    · obtain ⟨e, inside, rfl⟩ := List.mem_map.mp member
      refine Or.inr ⟨e.1.serial, rfl, ?_⟩
      rw [List.map_map]
      exact List.mem_map.mpr ⟨e, inside, rfl⟩
  · rw [ringOf, Contents.put_other head] at there
    cases there

/-- A node that is told apart from the waiting ones is in no list. -/
theorem spare_unlisted {mem : Mem} (held : Represents mem shape) (spare : shape.spare = (m, [node]) :: spare') :
    Unlisted (ringOf shape.waiting) (.node m) := by
  intro h xs there member
  rcases listed_told there member with same | ⟨n, same, told⟩
  · cases same
  · cases same
    have nodup := held.nodes.nodup
    rw [spare, List.map_append] at nodup
    exact (List.nodup_append.mp nodup).2.2 m told m (by simp) rfl

theorem mallocNode_effects (fresh : Fresh) :
    Effects (Represents · shape) (mallocNode fresh) fun m mem => m = shape.made ∧
      Represents mem { shape with made := shape.made + 1, spare := (m, [fresh.node]) :: shape.spare } := by
  rintro ⟨w, links, nodes, strings⟩ held
  have unnamed : nodes.block nodes.blocks.length = none := Heap.block_new nodes
  have exist : ∀ a, (Mem.mk links (nodes.alloc [fresh.node]).2 strings).Live a →
      (Function.update links (.node nodes.blocks.length) (some fresh.link) a).isSome = true := by
    rintro (_ | n) lives
    · rw [Function.update_of_ne (by simp)]
      exact held.ring.exist .gMsgList trivial
    · by_cases new : n = nodes.blocks.length
      · simp [new]
      · rw [Function.update_of_ne (by simpa using new)]
        apply held.ring.exist (.node n)
        rwa [Mem.Live, Heap.block_alloc_other _ new] at lives
  have kept : ∀ x, (Mem.mk links nodes strings).Live x →
      Function.update links (.node nodes.blocks.length) (some fresh.link) x = links x ∧
        (Mem.mk links (nodes.alloc [fresh.node]).2 strings).Live x := by
    rintro (_ | n) lives
    · exact ⟨Function.update_of_ne (by simp) .., trivial⟩
    · have other : n ≠ nodes.blocks.length := by
        rintro rfl
        rw [Mem.Live, unnamed] at lives
        cases lives
      refine ⟨Function.update_of_ne (by simpa using other) .., ?_⟩
      rw [Mem.Live, Heap.block_alloc_other _ other]
      exact lives
  refine ⟨_,
    ⟨Function.update links (.node nodes.blocks.length) (some fresh.link), (nodes.alloc [fresh.node]).2, strings⟩, rfl,
    held.made, ?_⟩
  refine ⟨?_, ?_, held.strings, ?_⟩
  · exact chains_live held.ring exist fun h xs there x member => kept x (held.ring.listed h xs there x member)
  · exact Heap.tells_perm (Heap.tells_alloc held.nodes [fresh.node]) List.perm_middle.symm
  · simpa [Heap.alloc] using held.made

theorem freeNode_effects (spare : shape.spare = (m, [node]) :: spare') : Effects (Represents · shape) (freeNode m)
    fun _ mem => Represents mem { shape with spare := spare' } := by
  rintro ⟨w, links, nodes, strings⟩ held
  have told := held.nodes
  rw [spare] at told
  have first := Heap.tells_perm told List.perm_middle
  have there := (first.blocks m [node]).mpr List.mem_cons_self
  have apart := spare_unlisted held spare
  have exist : ∀ a, (Mem.mk links ⟨nodes.blocks.set m none⟩ strings).Live a →
      (Function.update links (.node m) none a).isSome = true := by
    rintro (_ | n) lives
    · rw [Function.update_of_ne (by simp)]
      exact held.ring.exist .gMsgList trivial
    · have other : n ≠ m := by
        rintro rfl
        rw [Mem.Live, Heap.block_freed there] at lives
        cases lives
      rw [Function.update_of_ne (by simpa using other)]
      apply held.ring.exist (.node n)
      rwa [Mem.Live, Heap.block_set_other other] at lives
  have kept : ∀ x, x ≠ .node m → (Mem.mk links nodes strings).Live x →
      Function.update links (.node m) none x = links x ∧
        (Mem.mk links ⟨nodes.blocks.set m none⟩ strings).Live x := by
    rintro (_ | n) other lives
    · exact ⟨Function.update_of_ne other .., trivial⟩
    · refine ⟨Function.update_of_ne other .., ?_⟩
      rw [Mem.Live, Heap.block_set_other (by simpa using other)]
      exact lives
  refine ⟨(), ⟨Function.update links (.node m) none, ⟨nodes.blocks.set m none⟩, strings⟩, ?_, ?_⟩
  · simp [freeNode, Heap.free_runs there, memCheck, modifyMem]
  refine ⟨?_, Heap.tells_free first, held.strings, ?_⟩
  · apply chains_live held.ring exist
    intro h xs there' x member
    exact kept x (fun same => apart h xs there' (same ▸ member)) (held.ring.listed h xs there' x member)
  · simpa using held.made

theorem loadNode_run {s : Machine} (held : Represents s.mem shape)
    (member : (m, [node]) ∈ shape.waiting.map nodeOf ++ shape.spare) : loadNode m s = .ok node s := by
  have there := (held.nodes.blocks m [node]).mpr member
  simp [loadNode, Heap.load_block there, memCheck]

theorem storeNode_effects (spare : shape.spare = (m, [node]) :: spare') (f : MsgNode → MsgNode) :
    Effects (Represents · shape) (storeNode m f)
      fun _ mem => Represents mem { shape with spare := (m, [f node]) :: spare' } := by
  intro s held
  have told := held.nodes
  rw [spare] at told
  have first := Heap.tells_perm told List.perm_middle
  have there := (first.blocks m [node]).mpr List.mem_cons_self
  refine ⟨(), { s.mem with nodes := ⟨s.mem.nodes.blocks.set m (some [f node])⟩ }, ?_, ?_⟩
  · simp [storeNode, loadNode, Heap.load_block there, Heap.store_runs there, memCheck, modifyMem]
  refine ⟨?_, ?_, held.strings, ?_⟩
  · have kept : (Mem.mk s.mem.links ⟨s.mem.nodes.blocks.set m (some [f node])⟩ s.mem.strings).Live = s.mem.Live := by
      funext a
      cases a with
      | gMsgList => rfl
      | node n =>
        by_cases same : n = m
        · rw [Mem.Live, Mem.Live, same, Heap.block_set (Heap.block_inside there), there]
          rfl
        · rw [Mem.Live, Mem.Live, Heap.block_set_other same]
    rw [kept]
    exact held.ring
  · exact Heap.tells_perm (Heap.tells_set first) List.perm_middle.symm
  · simpa using held.made

/-- The built node is put behind the others, and takes its strings with it. -/
theorem listAddTail_effects (shape : Shape) (others : List (Nat × Bytes)) (e : MsgQueue × MsgNode)
    (spare : shape.spare = nodeOf e :: spare') (mine : shape.others = stringsOf e ++ others) :
    Effects (Represents · shape) (onLinks (ListHead.listAddTail (addrOf e.1) .gMsgList))
      fun _ mem =>
        Represents mem { shape with waiting := shape.waiting ++ [e], spare := spare', others := others } := by
  intro s held
  have there : ringOf shape.waiting .gMsgList = some (shape.waiting.map fun e => addrOf e.1) := Contents.put_self
  have told := held.nodes
  rw [spare] at told
  have lives : s.mem.Live (addrOf e.1) := by
    rw [addrOf, Mem.Live, (told.blocks e.1.serial [e.2]).mpr (by simp [nodeOf])]
    rfl
  have turns := ListHead.listAddTail_turns there lives (spare_unlisted held spare)
  obtain ⟨_, links, run, ring⟩ := spec_returns turns held.ring
  refine ⟨(), { s.mem with links := links }, by simp [onLinks, run], ?_⟩
  refine ⟨?_, ?_, ?_, held.made⟩
  · rw [ringOf, Contents.put_put] at ring
    rw [ringOf, List.map_append]
    exact ring
  · rw [List.map_append, List.append_assoc]
    exact told
  · have strings := held.strings
    rw [mine] at strings
    rw [List.flatMap_append, List.append_assoc]
    simpa using strings

/-- The first node is taken out and freed; its strings are nobody's. -/
theorem unlinkMsg_effects (shape : Shape) {e : MsgQueue × MsgNode} (first : shape.waiting = e :: waiting) :
    Effects (Represents · shape) (unlinkMsg e.1.serial)
      fun _ mem => Represents mem { shape with waiting := waiting, others := stringsOf e ++ shape.others } := by
  have unlinked : Effects (Represents · shape) (onLinks (ListHead.listDel (.node e.1.serial)))
      fun _ mem => Represents mem { shape with
        waiting := waiting, spare := nodeOf e :: shape.spare, others := stringsOf e ++ shape.others } := by
    intro s held
    have there : ringOf shape.waiting .gMsgList = some ([] ++ addrOf e.1 :: waiting.map fun e => addrOf e.1) := by
      rw [ringOf, Contents.put_self, first]
      rfl
    obtain ⟨_, links, run, ring⟩ := spec_returns (ListHead.listDel_turns there) held.ring
    refine ⟨(), { s.mem with links := links }, ?_, ?_⟩
    · rw [addrOf] at run
      simp [onLinks, run]
    refine ⟨?_, ?_, ?_, held.made⟩
    · rw [ringOf, Contents.put_put] at ring
      exact ring
    · have nodes := held.nodes
      rw [first, List.map_cons, List.cons_append] at nodes
      exact Heap.tells_perm nodes List.perm_middle.symm
    · have strings := held.strings
      rw [first, List.flatMap_cons, List.append_assoc] at strings
      exact Heap.tells_perm strings (List.perm_append_comm_assoc ..)
  exact effects_bind unlinked fun _ => freeNode_effects rfl

theorem text_told {mem : Mem} (held : Represents mem shape) {s : CString}
    (member : (q, s.buffer) ∈ shape.waiting.flatMap stringsOf ++ shape.others) : mem.text (some q) = some s := by
  have there := (held.strings.blocks q s.buffer).mpr member
  have text : CString.ofBuffer s.buffer = s := CString.ext (by
    have stops := cstr_terminated s []
    rw [cstr, if_pos (by simp)] at stops
    exact congrArg CString.bytes (Except.ok.inj stops))
  simp [Mem.text, there, text]

/-- The history is told the message as the list has it. -/
theorem message_told {mem : Mem} (held : Represents mem shape) {e : MsgQueue × MsgNode} (member : e ∈ shape.waiting)
    (paired : Paired e) : mem.message e.1.serial e.2 = e.1 := by
  have inside : ∀ x ∈ stringsOf e, x ∈ shape.waiting.flatMap stringsOf ++ shape.others := fun x there =>
    List.mem_append_left _ (List.mem_flatMap.mpr ⟨e, member, there⟩)
  obtain ⟨⟨msg, sendTopic, serial⟩, ⟨p, q⟩⟩ := e
  have first : mem.text p = msg := by
    cases p with
    | none =>
      have none : msg = none := by simpa using paired.msg
      rw [none]
      rfl
    | some p =>
      obtain ⟨s, rfl⟩ := Option.isSome_iff_exists.mp paired.msg.symm
      exact text_told held (inside _ (by simp [stringsOf]))
  have second : mem.text q = sendTopic := by
    cases q with
    | none =>
      have none : sendTopic = none := by simpa using paired.sendTopic
      rw [none]
      rfl
    | some q =>
      obtain ⟨s, rfl⟩ := Option.isSome_iff_exists.mp paired.sendTopic.symm
      exact text_told held (inside _ (by simp [stringsOf]))
  rw [Mem.message, first, second]

end Memory

end Newplat.MsgMemory
