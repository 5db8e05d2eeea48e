import Newplat.Base.Memory

/-! Sequences of self-contained fields. A format gives every field a shape that fixes its
size; written one after another, such fields are read back by their shapes alone. -/
namespace Newplat.Base

structure Format (F S : Type) where
  shape : F → S
  size : S → Nat
  bytes : F → Bytes
  parse : S → Bytes → F
  bytes_length : ∀ f, (bytes f).length = size (shape f)
  parse_bytes : ∀ f, parse (shape f) (bytes f) = f
  shape_parse : ∀ s bs, bs.length = size s → shape (parse s bs) = s
  bytes_parse : ∀ s bs, bs.length = size s → bytes (parse s bs) = bs

namespace Format

variable {F S : Type} (c : Format F S)

def total : List S → Nat
  | [] => 0
  | s :: ss => c.size s + total ss

def encode : List F → Bytes
  | [] => []
  | f :: fs => c.bytes f ++ encode fs

def decode : List S → Bytes → List F
  | [], _ => []
  | s :: ss, bs => c.parse s (bs.take (c.size s)) :: decode ss (bs.drop (c.size s))

theorem encode_length (fs : List F) : (c.encode fs).length = c.total (fs.map c.shape) := by
  induction fs with
  | nil => rfl
  | cons f fs ih => rw [encode, List.length_append, c.bytes_length, ih, List.map_cons, total]

theorem decode_encode (fs : List F) (rest : Bytes) :
    c.decode (fs.map c.shape) (c.encode fs ++ rest) = fs := by
  induction fs with
  | nil => rfl
  | cons f fs ih =>
    have len := c.bytes_length f
    have front : (c.bytes f ++ (c.encode fs ++ rest)).take (c.size (c.shape f)) = c.bytes f := by
      rw [← len, List.take_left]
    have back : (c.bytes f ++ (c.encode fs ++ rest)).drop (c.size (c.shape f)) =
        c.encode fs ++ rest := by
      rw [← len, List.drop_left]
    rw [List.map_cons, encode, List.append_assoc, decode, front, back, ih, c.parse_bytes]

theorem encode_decode (ss : List S) (bs : Bytes) (enough : c.total ss ≤ bs.length) :
    c.encode (c.decode ss bs) = bs.take (c.total ss) ∧ (c.decode ss bs).map c.shape = ss := by
  induction ss generalizing bs with
  | nil => exact ⟨rfl, rfl⟩
  | cons s ss ih =>
    rw [total] at enough
    have len : (bs.take (c.size s)).length = c.size s := by
      rw [List.length_take]
      omega
    obtain ⟨bytes, shapes⟩ := ih (bs.drop (c.size s)) (by rw [List.length_drop]; omega)
    constructor
    · rw [decode, encode, c.bytes_parse s _ len, bytes, total]
      exact List.take_add.symm
    · rw [decode, List.map_cons, c.shape_parse s _ len, shapes]

end Format

end Newplat.Base
