import Mathlib

/-! Byte buffers and C strings. A buffer is the list of bytes an object holds. Every
access is checked against the length of the object, and one outside it ends the run;
so a result `ok` also says that no byte outside the object was touched. -/
namespace Newplat.Base

/-- The ways a run of C code ends other than by returning. -/
inductive Halt where
  | outOfBounds
  | nullPointer
  | overflow
  | diverges
  | exit (code : Int)
  deriving DecidableEq, Repr

abbrev Bytes := List UInt8
abbrev Checked := Except Halt

@[simp] theorem ok_bind {α β : Type} (a : α) (f : α → Checked β) : (Except.ok a >>= f) = f a := rfl

@[simp] theorem pure_ok {α : Type} (a : α) : (pure a : Checked α) = .ok a := rfl

/-- A signed operation on `int`; a value outside its 32 bits is undefined behaviour. -/
def int (x : Int) : Checked Int :=
  if -2147483648 ≤ x ∧ x ≤ 2147483647 then .ok x else .error .overflow

theorem int_ok {x : Int} (low : -2147483648 ≤ x) (high : x ≤ 2147483647) : int x = .ok x :=
  if_pos ⟨low, high⟩

/-- Fresh bytes of a size that was converted from `int`: a negative one is larger than
half the address space, so `malloc` answers NULL and the next statement goes through it. -/
def malloc (fresh : Nat → UInt8) (size : Int) : Checked Bytes :=
  if 0 ≤ size then .ok ((List.range size.toNat).map fresh) else .error .nullPointer

theorem malloc_ok (fresh : Nat → UInt8) {size : Int} {n : Nat} (h : size = n) :
    ∃ buf : Bytes, malloc fresh size = .ok buf ∧ buf.length = n := by
  subst h
  exact ⟨(List.range n).map fresh, by simp [malloc], by simp⟩

def regrow (fresh : Nat → UInt8) (buf : Bytes) (n : Nat) : Bytes :=
  buf.take n ++ (List.range (n - buf.length)).map fresh

theorem regrow_length (fresh : Nat → UInt8) (buf : Bytes) (n : Nat) :
    (regrow fresh buf n).length = n := by
  simp only [regrow, List.length_append, List.length_take, List.length_map, List.length_range]
  omega

def splice (buf : Bytes) (k : Nat) (src : Bytes) : Bytes :=
  buf.take k ++ src ++ buf.drop (k + src.length)

def write (buf : Bytes) (off : Int) (src : Bytes) : Checked Bytes :=
  if 0 ≤ off ∧ off + src.length ≤ buf.length then .ok (splice buf off.toNat src)
  else .error .outOfBounds

def read (buf : Bytes) (off n : Int) : Checked Bytes :=
  if 0 ≤ off ∧ 0 ≤ n ∧ off + n ≤ buf.length then .ok ((buf.drop off.toNat).take n.toNat)
  else .error .outOfBounds

def readByte (buf : Bytes) (off : Int) : Checked UInt8 :=
  if h : 0 ≤ off ∧ off < buf.length then .ok (buf.get ⟨off.toNat, by omega⟩)
  else .error .outOfBounds

def memset (buf : Bytes) (off : Int) (c : UInt8) (n : Int) : Checked Bytes :=
  if 0 ≤ n then write buf off (List.replicate n.toNat c) else .error .outOfBounds

def memcpy (dst : Bytes) (off : Int) (src : Bytes) (srcOff n : Int) : Checked Bytes := do
  let bytes ← read src srcOff n
  write dst off bytes

section Splice

variable {buf src : Bytes} {k : Nat}

theorem splice_length (fits : k + src.length ≤ buf.length) : (splice buf k src).length = buf.length := by
  simp only [splice, List.length_append, List.length_take, List.length_drop]
  omega

theorem splice_before (fits : k + src.length ≤ buf.length) : (splice buf k src).take k = buf.take k := by
  have len : (buf.take k).length = k := by
    rw [List.length_take]
    omega
  rw [splice, List.append_assoc, List.take_append_of_le_length (Nat.le_of_eq len.symm),
    List.take_of_length_le (Nat.le_of_eq len)]

theorem splice_from (fits : k + src.length ≤ buf.length) :
    (splice buf k src).drop k = src ++ buf.drop (k + src.length) := by
  have len : (buf.take k).length = k := by
    rw [List.length_take]
    omega
  rw [splice, List.append_assoc, List.drop_append_of_le_length (Nat.le_of_eq len.symm),
    List.drop_of_length_le (Nat.le_of_eq len), List.nil_append]

theorem splice_after (fits : k + src.length ≤ buf.length) :
    (splice buf k src).drop (k + src.length) = buf.drop (k + src.length) := by
  rw [← List.drop_drop, splice_from fits, List.drop_left]

theorem splice_append (more : Bytes) (fits : k + src.length + more.length ≤ buf.length) :
    splice (splice buf k src) (k + src.length) more = splice buf k (src ++ more) := by
  have inner : k + src.length ≤ buf.length := by omega
  have len : (buf.take k ++ src).length = k + src.length := by
    rw [List.length_append, List.length_take]
    omega
  have front : (splice buf k src).take (k + src.length) = buf.take k ++ src := by
    rw [splice, List.take_append_of_le_length (Nat.le_of_eq len.symm),
      List.take_of_length_le (Nat.le_of_eq len)]
  have back : (splice buf k src).drop (k + src.length + more.length) =
      buf.drop (k + src.length + more.length) := by
    rw [← List.drop_drop, splice_after inner, List.drop_drop]
  rw [splice, front, back, splice, List.length_append, ← Nat.add_assoc]
  simp only [List.append_assoc]

theorem splice_again {more : Bytes} (fits : k + src.length ≤ buf.length)
    (same : more.length = src.length) : splice (splice buf k src) k more = splice buf k more := by
  rw [splice, splice_before fits, same, splice_after fits, splice, same]

end Splice

theorem write_at {buf src : Bytes} {off : Int} {k : Nat} (at_k : off = k)
    (fits : k + src.length ≤ buf.length) : write buf off src = .ok (splice buf k src) := by
  subst at_k
  have h : (0 : Int) ≤ k ∧ (k : Int) + src.length ≤ buf.length := by omega
  rw [write, if_pos h]
  rfl

theorem write_outside {buf src : Bytes} {off : Int} {k : Nat} (at_k : off = k)
    (outside : buf.length < k + src.length) : write buf off src = .error .outOfBounds := by
  subst at_k
  exact if_neg (by omega)

theorem write_start {buf src : Bytes} (fits : src.length ≤ buf.length) :
    write buf 0 src = .ok (src ++ buf.drop src.length) := by
  have h : write buf 0 src = .ok (splice buf 0 src) := write_at rfl (by omega)
  rw [h, splice, Nat.zero_add, List.take_zero, List.nil_append]

theorem read_at {xs : Bytes} {off n : Int} {i k : Nat} (at_i : off = i) (hn : n = k)
    (fits : i + k ≤ xs.length) : read xs off n = .ok ((xs.drop i).take k) := by
  subst at_i hn
  have h : (0 : Int) ≤ i ∧ (0 : Int) ≤ k ∧ (i : Int) + k ≤ xs.length := by omega
  rw [read, if_pos h]
  rfl

theorem read_start {xs : Bytes} {n : Int} {k : Nat} (hn : n = k) (fits : k ≤ xs.length) :
    read xs 0 n = .ok (xs.take k) := by
  have h : read xs 0 n = .ok ((xs.drop 0).take k) := read_at rfl hn (by omega)
  rwa [List.drop_zero] at h

theorem readByte_at {buf : Bytes} {off : Int} {k : Nat} (at_k : off = k) (inside : k < buf.length) :
    readByte buf off = .ok buf[k] := by
  subst at_k
  simp [readByte, inside]

theorem memset_at {buf : Bytes} {off n : Int} {k l : Nat} (c : UInt8) (at_k : off = k) (hn : n = l)
    (fits : k + l ≤ buf.length) : memset buf off c n = .ok (splice buf k (List.replicate l c)) := by
  subst hn
  rw [memset, if_pos (Int.natCast_nonneg l), Int.toNat_natCast]
  exact write_at at_k (by rw [List.length_replicate]; exact fits)

theorem memset_whole {buf : Bytes} {size : Int} {n : Nat} (c : UInt8) (whole : buf.length = n)
    (h : size = n) : memset buf 0 c size = .ok (List.replicate n c) := by
  have filled : memset buf 0 c size = .ok (splice buf 0 (List.replicate n c)) :=
    memset_at c rfl h (by omega)
  rw [filled, splice, Nat.zero_add, List.length_replicate, List.take_zero, List.nil_append,
    List.drop_of_length_le (Nat.le_of_eq whole), List.append_nil]

theorem memcpy_start {dst src : Bytes} {n : Int} (h : n = src.length)
    (fits : src.length ≤ dst.length) :
    memcpy dst 0 src 0 n = .ok (src ++ dst.drop src.length) := by
  rw [memcpy, read_start h (Nat.le_refl _), ok_bind, List.take_length, write_start fits]

/-- A computation that returns, or ends otherwise than by going on for ever. -/
def Ends {α : Type} (c : Checked α) : Prop := c ≠ .error .diverges

theorem ends_ok {α : Type} (a : α) : Ends (.ok a : Checked α) := fun h => nomatch h

theorem ends_bind {α β : Type} {c : Checked α} {f : α → Checked β} (first : Ends c)
    (rest : ∀ a, c = .ok a → Ends (f a)) : Ends (c >>= f) := by
  cases c with
  | ok a => exact rest a rfl
  | error e =>
    intro h
    cases h
    exact first rfl

theorem ends_int (x : Int) : Ends (int x) := by
  unfold int Ends
  split <;> simp

theorem ends_malloc (fresh : Nat → UInt8) (size : Int) : Ends (malloc fresh size) := by
  unfold malloc Ends
  split <;> simp

theorem ends_write (buf : Bytes) (off : Int) (src : Bytes) : Ends (write buf off src) := by
  unfold write Ends
  split <;> simp

theorem ends_read (buf : Bytes) (off n : Int) : Ends (read buf off n) := by
  unfold Base.read Ends
  split <;> simp

theorem ends_readByte (buf : Bytes) (off : Int) : Ends (readByte buf off) := by
  unfold readByte Ends
  split <;> simp

theorem ends_memset (buf : Bytes) (off : Int) (c : UInt8) (n : Int) : Ends (memset buf off c n) := by
  unfold memset
  split
  · exact ends_write buf off _
  · simp [Ends]

theorem ends_memcpy (dst : Bytes) (off : Int) (src : Bytes) (srcOff n : Int) :
    Ends (memcpy dst off src srcOff n) :=
  ends_bind (ends_read src srcOff n) fun bytes _ => ends_write dst off bytes

/-- A computation that halts, if it does, in one of the given ways. -/
def HaltsIn {α : Type} (E : Halt → Prop) (c : Checked α) : Prop := ∀ e, c = .error e → E e

section Halting

variable {α β : Type} {E E' : Halt → Prop} {c : Checked α}

theorem haltsIn_ok (a : α) : HaltsIn E (.ok a : Checked α) := by
  intro e never
  cases never

theorem haltsIn_bind {f : α → Checked β} (first : HaltsIn E c)
    (rest : ∀ a, c = .ok a → HaltsIn E (f a)) : HaltsIn E (c >>= f) := by
  cases c with
  | ok a => exact rest a rfl
  | error e =>
    intro e' halts
    cases halts
    exact first e rfl

theorem haltsIn_weaken (halts : HaltsIn E c) (more : ∀ e, E e → E' e) : HaltsIn E' c :=
  fun e fails => more e (halts e fails)

theorem haltsIn_readByte (buf : Bytes) (off : Int) : HaltsIn (· = .outOfBounds) (readByte buf off) := by
  unfold readByte HaltsIn
  split <;> simp [eq_comm]

theorem haltsIn_write (buf : Bytes) (off : Int) (src : Bytes) :
    HaltsIn (· = .outOfBounds) (write buf off src) := by
  unfold write HaltsIn
  split <;> simp [eq_comm]

end Halting

/-- A C string: its bytes before the terminator, none of which is NUL. -/
structure CString where
  bytes : Bytes
  nulFree : (0 : UInt8) ∉ bytes
  deriving DecidableEq

namespace CString

@[ext] theorem ext {s t : CString} (h : s.bytes = t.bytes) : s = t := by
  cases s; cases t; simpa using h

def length (s : CString) : Nat := s.bytes.length

def buffer (s : CString) : Bytes := s.bytes ++ [0]

def append (s t : CString) : CString :=
  ⟨s.bytes ++ t.bytes, by simpa using ⟨s.nulFree, t.nulFree⟩⟩

instance : Append CString := ⟨append⟩

@[simp] theorem append_bytes (s t : CString) : (s ++ t).bytes = s.bytes ++ t.bytes := rfl

def truncate (n : Nat) (s : CString) : CString :=
  ⟨s.bytes.take n, fun h => s.nulFree (List.mem_of_mem_take h)⟩

@[simp] theorem truncate_bytes (n : Nat) (s : CString) : (s.truncate n).bytes = s.bytes.take n := rfl

def ascii (s : String) : Bytes := s.toList.map fun c => UInt8.ofNat c.toNat

def empty : CString := ⟨[], List.not_mem_nil⟩

def ofBuffer (buf : Bytes) : CString :=
  ⟨buf.takeWhile (· ≠ 0), fun h => by simpa using List.mem_takeWhile_imp h⟩

def lit (s : String) : CString := ofBuffer (ascii s)

end CString

/-- The string that starts a buffer; reading on without a terminator leaves the object. -/
def cstr (buf : Bytes) : Checked CString :=
  if (0 : UInt8) ∈ buf then .ok (CString.ofBuffer buf) else .error .outOfBounds

def strlen (buf : Bytes) : Checked Nat := do
  let s ← cstr buf
  return s.length

theorem cstr_terminated (s : CString) (rest : Bytes) : cstr (s.bytes ++ 0 :: rest) = .ok s := by
  have nul : (0 : UInt8) ∈ s.bytes ++ 0 :: rest := by simp
  have stops : (s.bytes ++ 0 :: rest).takeWhile (· ≠ 0) = s.bytes := by
    rw [List.takeWhile_append_of_pos]
    · simp
    · intro b hb
      simpa using ne_of_mem_of_not_mem hb s.nulFree
  rw [cstr, if_pos nul]
  exact congrArg Except.ok (CString.ext stops)

/-- A buffer that holds a string goes on with its terminator. -/
theorem cstr_split {buf : Bytes} {s : CString} (string : cstr buf = .ok s) : ∃ rest, buf = s.bytes ++ 0 :: rest := by
  by_cases nul : (0 : UInt8) ∈ buf
  · obtain ⟨front, rest, same, free⟩ := List.eq_append_cons_of_mem nul
    subst same
    have first := cstr_terminated ⟨front, free⟩ rest
    rw [string] at first
    cases first
    exact ⟨rest, rfl⟩
  · rw [cstr, if_neg nul] at string
    cases string

theorem cstr_padded (s : CString) {k : Nat} (positive : 0 < k) :
    cstr (s.bytes ++ List.replicate k 0) = .ok s := by
  obtain ⟨l, rfl⟩ := Nat.exists_eq_add_of_lt positive
  rw [Nat.zero_add, List.replicate_succ]
  exact cstr_terminated s _

theorem cstr_zeros (xs : Bytes) {k : Nat} (positive : 0 < k) :
    cstr (xs ++ List.replicate k 0) = .ok (CString.ofBuffer xs) := by
  obtain ⟨l, rfl⟩ := Nat.exists_eq_add_of_lt positive
  have nul : (0 : UInt8) ∈ xs ++ List.replicate (0 + l + 1) 0 := by simp
  have stops : (xs ++ List.replicate (0 + l + 1) 0).takeWhile (· ≠ 0) = xs.takeWhile (· ≠ 0) := by
    rw [List.takeWhile_append]
    split
    · rename_i whole
      have ends : (List.replicate (0 + l + 1) (0 : UInt8)).takeWhile (· ≠ 0) = [] := by
        simp [List.replicate_succ]
      rw [ends, List.append_nil]
      exact ((List.takeWhile_prefix _).eq_of_length whole).symm
    · rfl
  rw [cstr, if_pos nul]
  exact congrArg Except.ok (CString.ext stops)

theorem memcpy_string {src : Bytes} {s : CString} (string : cstr src = .ok s) (dst : Bytes) :
    memcpy dst 0 src 0 s.length = write dst 0 s.bytes := by
  have bytes : s.bytes = src.takeWhile (· ≠ 0) := by
    unfold cstr at string
    split at string
    · exact (congrArg CString.bytes (Except.ok.inj string)).symm
    · cases string
  have front : s.bytes <+: src := bytes ▸ List.takeWhile_prefix _
  have whole : read src 0 s.length = .ok s.bytes := by
    rw [List.prefix_iff_eq_take.mp front]
    exact read_start rfl front.length_le
  rw [memcpy, whole, ok_bind]

/-- Copies at most `n` bytes and fills up with zeros; without room for one, no terminator. -/
def strncpy (dst : Bytes) (s : CString) (n : Nat) : Checked Bytes :=
  write dst 0 (s.bytes.take n ++ List.replicate (n - s.length) 0)

theorem strncpy_whole {dst : Bytes} (s : CString) {n : Nat} (whole : dst.length = n) :
    strncpy dst s n = .ok (s.bytes.take n ++ List.replicate (n - s.length) 0) := by
  have size : (s.bytes.take n ++ List.replicate (n - s.length) 0).length = n := by
    rw [List.length_append, List.length_take, List.length_replicate, CString.length]
    omega
  rw [strncpy, write_start (by omega), size, List.drop_of_length_le (Nat.le_of_eq whole),
    List.append_nil]

theorem strlen_terminated (s : CString) (rest : Bytes) :
    strlen (s.bytes ++ 0 :: rest) = .ok s.length := by
  rw [strlen, cstr_terminated]
  rfl

end Newplat.Base
