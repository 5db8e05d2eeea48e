import Newplat.Base.Memory

/-! Standard padded base64 over byte lists: the encoder, the strict decoder, and the
group decoder that reads the padding character as a zero digit. -/
namespace Newplat.Base.Base64

def alphabet : Bytes :=
  CString.ascii "ABCDEFGHIJKLMNOPQRSTUVWXYZabcdefghijklmnopqrstuvwxyz0123456789+/"

def pad : UInt8 := 61

def symbol (v : Nat) : UInt8 := alphabet.getD v 0
def digit (c : UInt8) : Option Nat := alphabet.idxOf? c

def encode : Bytes → Bytes
  | [] => []
  | [a] => [symbol (a.toNat / 4), symbol (a.toNat % 4 * 16), pad, pad]
  | [a, b] => [symbol (a.toNat / 4), symbol (a.toNat % 4 * 16 + b.toNat / 16),
      symbol (b.toNat % 16 * 4), pad]
  | a :: b :: c :: rest => symbol (a.toNat / 4) :: symbol (a.toNat % 4 * 16 + b.toNat / 16) ::
      symbol (b.toNat % 16 * 4 + c.toNat / 64) :: symbol (c.toNat % 64) :: encode rest

def byte0 (w x : Nat) : UInt8 := UInt8.ofNat (w * 4 + x / 16)
def byte1 (x y : Nat) : UInt8 := UInt8.ofNat (x % 16 * 16 + y / 4)
def byte2 (y z : Nat) : UInt8 := UInt8.ofNat (y % 4 * 64 + z)

/-- Groups of four; padding only in the last one, over zero bits. -/
def decode : Bytes → Option Bytes
  | [] => some []
  | cw :: cx :: cy :: cz :: rest => do
    let w ← digit cw
    let x ← digit cx
    if cy = pad then
      if cz = pad ∧ rest = [] ∧ x % 16 = 0 then some [byte0 w x] else none
    else do
      let y ← digit cy
      if cz = pad then
        if rest = [] ∧ y % 4 = 0 then some [byte0 w x, byte1 x y] else none
      else do
        let z ← digit cz
        let tail ← decode rest
        some (byte0 w x :: byte1 x y :: byte2 y z :: tail)
  | _ => none

def blockDigit (c : UInt8) : Option Nat := if c = pad then some 0 else digit c

/-- Three bytes for every four characters, with zeros where padding stood. -/
def decodeBlock : Bytes → Option Bytes
  | [] => some []
  | cw :: cx :: cy :: cz :: rest => do
    let w ← blockDigit cw
    let x ← blockDigit cx
    let y ← blockDigit cy
    let z ← blockDigit cz
    let tail ← decodeBlock rest
    some (byte0 w x :: byte1 x y :: byte2 y z :: tail)
  | _ => none

theorem symbol_facts : ∀ v < 64, digit (symbol v) = some v ∧ symbol v ≠ pad := by decide

theorem digit_symbol {v : Nat} (h : v < 64) : digit (symbol v) = some v := (symbol_facts v h).1

theorem symbol_ne_pad {v : Nat} (h : v < 64) : symbol v ≠ pad := (symbol_facts v h).2

theorem symbol_mem {v : Nat} (h : v < 64) : symbol v ∈ alphabet := by
  have size : alphabet.length = 64 := rfl
  have inside : v < alphabet.length := by omega
  rw [symbol, List.getD_eq_getElem alphabet 0 inside]
  exact List.getElem_mem inside

theorem blockDigit_symbol {v : Nat} (h : v < 64) : blockDigit (symbol v) = some v := by
  rw [blockDigit, if_neg (symbol_ne_pad h), digit_symbol h]

theorem byte_bound (a : UInt8) : a.toNat < 256 := a.toNat_lt

section Bits

variable (a b c : UInt8) {l r : Nat}

theorem first_bits : a.toNat / 4 < 64 := by
  have bound := byte_bound a
  omega

theorem second_bits (h : r < 16) : a.toNat % 4 * 16 + r < 64 := by omega

theorem third_bits (h : r < 4) : b.toNat % 16 * 4 + r < 64 := by omega

theorem fourth_bits : c.toNat % 64 < 64 := Nat.mod_lt _ (by decide)

theorem high_bits : b.toNat / 16 < 16 := by
  have bound := byte_bound b
  omega

theorem top_bits : c.toNat / 64 < 4 := by
  have bound := byte_bound c
  omega

theorem byte0_split (h : r < 16) : byte0 (a.toNat / 4) (a.toNat % 4 * 16 + r) = a := by
  have value : a.toNat / 4 * 4 + (a.toNat % 4 * 16 + r) / 16 = a.toNat := by omega
  rw [byte0, value, UInt8.ofNat_toNat]

theorem byte1_split (h : r < 4) : byte1 (l * 16 + b.toNat / 16) (b.toNat % 16 * 4 + r) = b := by
  have bound := byte_bound b
  have value : (l * 16 + b.toNat / 16) % 16 * 16 + (b.toNat % 16 * 4 + r) / 4 = b.toNat := by omega
  rw [byte1, value, UInt8.ofNat_toNat]

theorem byte2_split : byte2 (l * 4 + c.toNat / 64) (c.toNat % 64) = c := by
  have bound := byte_bound c
  have value : (l * 4 + c.toNat / 64) % 4 * 64 + c.toNat % 64 = c.toNat := by omega
  rw [byte2, value, UInt8.ofNat_toNat]

end Bits

theorem decode_encode (xs : Bytes) : decode (encode xs) = some xs := by
  induction xs using encode.induct with
  | case1 => rfl
  | case2 a =>
    have second : a.toNat % 4 * 16 < 64 := second_bits a (r := 0) (by decide)
    have byte : byte0 (a.toNat / 4) (a.toNat % 4 * 16) = a := byte0_split a (r := 0) (by decide)
    have zero : a.toNat % 4 * 16 % 16 = 0 := by omega
    simp [encode, decode, digit_symbol (first_bits a), digit_symbol second, zero, byte]
  | case3 a b =>
    have second := second_bits a (high_bits b)
    have third : b.toNat % 16 * 4 < 64 := third_bits b (r := 0) (by decide)
    have byte : byte1 (a.toNat % 4 * 16 + b.toNat / 16) (b.toNat % 16 * 4) = b :=
      byte1_split b (r := 0) (by decide)
    have zero : b.toNat % 16 * 4 % 4 = 0 := by omega
    simp [encode, decode, digit_symbol (first_bits a), digit_symbol second, digit_symbol third,
      symbol_ne_pad third, zero, byte0_split a (high_bits b), byte]
  | case4 a b c rest ih =>
    have second := second_bits a (high_bits b)
    have third := third_bits b (top_bits c)
    have fourth := fourth_bits c
    simp [encode, decode, ih, digit_symbol (first_bits a), digit_symbol second, digit_symbol third,
      digit_symbol fourth, symbol_ne_pad third, symbol_ne_pad fourth, byte0_split a (high_bits b),
      byte1_split b (top_bits c), byte2_split c]

def filler (n : Nat) : Nat := (3 - n % 3) % 3

theorem filler_add_three (n : Nat) : filler (n + 3) = filler n := by simp [filler]

theorem decodeBlock_encode (xs : Bytes) :
    decodeBlock (encode xs) = some (xs ++ List.replicate (filler xs.length) 0) := by
  have padding : blockDigit pad = some 0 := rfl
  induction xs using encode.induct with
  | case1 => rfl
  | case2 a =>
    have second : a.toNat % 4 * 16 < 64 := second_bits a (r := 0) (by decide)
    have byte : byte0 (a.toNat / 4) (a.toNat % 4 * 16) = a := byte0_split a (r := 0) (by decide)
    have zero : byte1 (a.toNat % 4 * 16) 0 = 0 := by
      have value : a.toNat % 4 * 16 % 16 * 16 + 0 / 4 = 0 := by omega
      rw [byte1, value]
      rfl
    simp only [encode, decodeBlock, blockDigit_symbol (first_bits a), blockDigit_symbol second, padding,
      Option.bind_eq_bind, Option.bind_some, byte, zero]
    rfl
  | case3 a b =>
    have second := second_bits a (high_bits b)
    have third : b.toNat % 16 * 4 < 64 := third_bits b (r := 0) (by decide)
    have byte : byte1 (a.toNat % 4 * 16 + b.toNat / 16) (b.toNat % 16 * 4) = b :=
      byte1_split b (r := 0) (by decide)
    have zero : byte2 (b.toNat % 16 * 4) 0 = 0 := by
      have value : b.toNat % 16 * 4 % 4 * 64 + 0 = 0 := by omega
      rw [byte2, value]
      rfl
    simp only [encode, decodeBlock, blockDigit_symbol (first_bits a), blockDigit_symbol second,
      blockDigit_symbol third, padding, Option.bind_eq_bind, Option.bind_some,
      byte0_split a (high_bits b), byte, zero]
    rfl
  | case4 a b c rest ih =>
    have second := second_bits a (high_bits b)
    have third := third_bits b (top_bits c)
    simp only [encode, decodeBlock, ih, blockDigit_symbol (first_bits a), blockDigit_symbol second,
      blockDigit_symbol third, blockDigit_symbol (fourth_bits c), Option.bind_eq_bind, Option.bind_some,
      byte0_split a (high_bits b), byte1_split b (top_bits c), byte2_split c, List.length_cons,
      List.cons_append, filler_add_three]

theorem decodeBlock_length {text xs : Bytes} (decodes : decodeBlock text = some xs) :
    xs.length = 3 * (text.length / 4) := by
  induction text using decodeBlock.induct generalizing xs with
  | case1 =>
    cases decodes
    rfl
  | case2 cw cx cy cz rest ih =>
    simp only [decodeBlock, Option.bind_eq_bind, Option.bind_eq_some_iff, Option.some.injEq] at decodes
    obtain ⟨w, -, x, -, y, -, z, -, tail, rest_decodes, rfl⟩ := decodes
    have fewer := ih rest_decodes
    simp only [List.length_cons]
    omega
  | case3 text empty short =>
    have fails : decodeBlock text = none := by
      unfold decodeBlock
      split
      · exact absurd rfl empty
      · rename_i cw cx cy cz rest
        exact absurd rfl (short cw cx cy cz rest)
      · rfl
    rw [fails] at decodes
    cases decodes

theorem encode_length (xs : Bytes) : (encode xs).length = 4 * ((xs.length + 2) / 3) := by
  induction xs using encode.induct with
  | case1 => rfl
  | case2 a => simp [encode]
  | case3 a b => simp [encode]
  | case4 a b c rest ih =>
    simp only [encode, List.length_cons, ih]
    omega

/-- Three bytes are a group of their own, whatever follows them. -/
theorem encode_append {xs : Bytes} (ys : Bytes) (whole : 3 ∣ xs.length) :
    encode (xs ++ ys) = encode xs ++ encode ys := by
  induction xs using encode.induct with
  | case1 => rfl
  | case2 a => simp at whole
  | case3 a b => simp at whole
  | case4 a b c rest ih =>
    have fewer : 3 ∣ rest.length := by simpa using whole
    simp [encode, ih fewer]

theorem encode_take (k : Nat) {xs : Bytes} (enough : 3 * k ≤ xs.length) :
    (encode xs).take (4 * k) = encode (xs.take (3 * k)) := by
  have size : (xs.take (3 * k)).length = 3 * k := by
    rw [List.length_take]
    omega
  have front : (encode (xs.take (3 * k))).length = 4 * k := by
    rw [encode_length, size]
    omega
  have parts := encode_append (xs.drop (3 * k)) (Dvd.intro k size.symm)
  rw [List.take_append_drop] at parts
  rw [parts, List.take_append_of_le_length (Nat.le_of_eq front.symm),
    List.take_of_length_le (Nat.le_of_eq front)]

theorem encode_symbols {xs : Bytes} {s : UInt8} (member : s ∈ encode xs) : s ∈ alphabet ∨ s = pad := by
  induction xs using encode.induct with
  | case1 => simp [encode] at member
  | case2 a =>
    have second : a.toNat % 4 * 16 < 64 := second_bits a (r := 0) (by decide)
    simp only [encode, List.mem_cons, List.not_mem_nil, or_false] at member
    rcases member with rfl | rfl | rfl | rfl
    · exact Or.inl (symbol_mem (first_bits a))
    · exact Or.inl (symbol_mem second)
    · exact Or.inr rfl
    · exact Or.inr rfl
  | case3 a b =>
    have third : b.toNat % 16 * 4 < 64 := third_bits b (r := 0) (by decide)
    simp only [encode, List.mem_cons, List.not_mem_nil, or_false] at member
    rcases member with rfl | rfl | rfl | rfl
    · exact Or.inl (symbol_mem (first_bits a))
    · exact Or.inl (symbol_mem (second_bits a (high_bits b)))
    · exact Or.inl (symbol_mem third)
    · exact Or.inr rfl
  | case4 a b c rest ih =>
    simp only [encode, List.mem_cons] at member
    rcases member with rfl | rfl | rfl | rfl | later
    · exact Or.inl (symbol_mem (first_bits a))
    · exact Or.inl (symbol_mem (second_bits a (high_bits b)))
    · exact Or.inl (symbol_mem (third_bits b (top_bits c)))
    · exact Or.inl (symbol_mem (fourth_bits c))
    · exact ih later

theorem encode_nulFree (xs : Bytes) : (0 : UInt8) ∉ encode xs := by
  intro member
  rcases encode_symbols member with inside | padding
  · exact absurd inside (by decide)
  · exact absurd padding (by decide)

def text (xs : Bytes) : CString := ⟨encode xs, encode_nulFree xs⟩

end Newplat.Base.Base64
