import Newplat.CipherText

/-! Receivers of what `AES_ECB_PKCS5_Encrypt` sends: a standard one, and the program's
own `AES_ECB_PKCS5_Decrypt`, which trusts the last byte the cipher released. -/
namespace Newplat

open Base Blocks

/-- A standard receiver of raw ciphertext: whole blocks, then strict padding removal. -/
def receiveRaw (aes : Bytes → Equiv.Perm AesBlock) (key c : Bytes) : Option Bytes :=
  if c.length % 16 = 0 then removePadding (codebook (aes key).symm c) else none

def receiveText (aes : Bytes → Equiv.Perm AesBlock) (key : Bytes) (text : CString) : Option Bytes := do
  let c ← Base64.decode text.bytes
  receiveRaw aes key c

/-- The returned buffer holds `p` in its first `*outLen` bytes. -/
def Recovers (result : Checked (Bytes × Int)) (p : Bytes) : Prop :=
  ∃ out, result = .ok (out, p.length) ∧ out.take p.length = p

def roundTripText (ssl : OpenSSL) (rounds : Nat) (key p : Bytes) (outLen : Int) :
    Checked (Bytes × Int) := do
  let (text, _) ← aesEcbPkcs5Encrypt ssl rounds p p.length key 16 true
  match text with
  | none => .error .nullPointer
  | some t => do
    let n ← strlen t
    aesEcbPkcs5Decrypt ssl rounds t n key 16 outLen true

def roundTripRaw (ssl : OpenSSL) (rounds : Nat) (key p : Bytes) (outLen : Int) :
    Checked (Bytes × Int) := do
  let (cipher, n) ← aesEcbPkcs5Encrypt ssl rounds p p.length key 16 false
  match cipher with
  | none => .error .nullPointer
  | some c => aesEcbPkcs5Decrypt ssl rounds c n key 16 outLen false

/-- The `int` sizes of the text round trip stay in range; `srcLen*3` is the largest of them. -/
def TextFits (n : Nat) : Prop := 12 * ((paddedSize n + 2) / 3) ≤ 2147483647

instance (n : Nat) : Decidable (TextFits n) := inferInstanceAs (Decidable (_ ≤ _))

theorem key_enough (key : Vector UInt8 16) : 16 ≤ key.toList.length :=
  Nat.le_of_eq Vector.length_toList.symm

theorem key_whole (key : Vector UInt8 16) : key.toList.take 16 = key.toList :=
  List.take_of_length_le (Nat.le_of_eq Vector.length_toList)

section Documented

variable {ssl : OpenSSL} {aes : Bytes → Equiv.Perm AesBlock}

theorem receiveRaw_cipherText (aes : Bytes → Equiv.Perm AesBlock) (key p : Bytes) :
    receiveRaw aes key (cipherText aes key p) = some p := by
  have whole : (cipherText aes key p).length % 16 = 0 := by
    rw [cipherText_length, paddedSize]
    omega
  have undone : codebook (aes key).symm (cipherText aes key p) = addPadding p :=
    codebook_inverse (by decide) (addPadding_whole p)
  rw [receiveRaw, if_pos whole, undone, removePadding_addPadding]

theorem receiveText_cipherText (aes : Bytes → Equiv.Perm AesBlock) (key p : Bytes) :
    receiveText aes key (Base64.text (cipherText aes key p)) = some p := by
  have decoded : Base64.decode (Base64.text (cipherText aes key p)).bytes =
      some (cipherText aes key p) := Base64.decode_encode _
  rw [receiveText, decoded]
  exact receiveRaw_cipherText aes key p

theorem strip_reads {plain rest : Bytes} {v : UInt8} (last : plain.getLast? = some v) :
    readByte (plain ++ rest) (plain.length - 1) = .ok v := by
  have positive : 0 < plain.length := by
    cases plain with
    | nil => cases last
    | cons a plain => exact Nat.succ_pos _
  have position : (plain.length : Int) - 1 = (plain.length - 1 : Nat) := by omega
  have inside : plain.length - 1 < (plain ++ rest).length := by
    rw [List.length_append]
    omega
  rw [List.getLast?_eq_getElem?] at last
  obtain ⟨h, value⟩ := List.getElem?_eq_some_iff.mp last
  rw [readByte_at position inside, List.getElem_append_left h, value]

theorem strip_ok {plain rest : Bytes} {v : UInt8} (room : rest ≠ []) (last : plain.getLast? = some v)
    (within : v.toNat ≤ plain.length) :
    ∃ out, stripPadding (plain ++ rest) plain.length = .ok (out, (plain.length - v.toNat : Nat)) ∧
      out.take (plain.length - v.toNat) = plain.take (plain.length - v.toNat) := by
  have position : (plain.length : Int) - v.toNat = (plain.length - v.toNat : Nat) := by omega
  have restPositive : 0 < rest.length := List.length_pos_iff.mpr room
  have fits : plain.length - v.toNat + [(0 : UInt8)].length ≤ (plain ++ rest).length := by
    rw [List.length_append, List.length_singleton]
    omega
  refine ⟨(plain ++ rest).take (plain.length - v.toNat) ++ [0] ++
    (plain ++ rest).drop (plain.length - v.toNat + 1), ?_, ?_⟩
  · simp only [stripPadding, strip_reads last, ok_bind, position, write_at rfl fits]
    rfl
  · rw [List.take_append_of_le_length (Nat.sub_le _ _), List.append_assoc]
    have len : (plain.take (plain.length - v.toNat)).length = plain.length - v.toNat := by
      rw [List.length_take]
      omega
    rw [List.take_append_of_le_length (Nat.le_of_eq len.symm), List.take_of_length_le (Nat.le_of_eq len)]

theorem strip_fails {plain rest : Bytes} (bad : ∀ v, plain.getLast? = some v → plain.length < v.toNat) :
    stripPadding (plain ++ rest) plain.length = .error .outOfBounds := by
  cases last : plain.getLast? with
  | none =>
    have empty : plain = [] := List.getLast?_eq_none_iff.mp last
    subst empty
    have outside : readByte ([] ++ rest) ((([] : Bytes).length : Int) - 1) = .error .outOfBounds :=
      dif_neg (by simp)
    rw [stripPadding, outside]
    rfl
  | some v =>
    have beyond := bad v last
    have outside : write (plain ++ rest) ((plain.length : Int) - v.toNat) [0] = .error .outOfBounds :=
      if_neg (by omega)
    simp only [stripPadding, strip_reads last, ok_bind, outside]
    rfl

/-- The unpadding is right exactly when the last released byte counts the surplus. -/
theorem strip_recovers {plain rest p : Bytes} (room : rest ≠ []) :
    Recovers (stripPadding (plain ++ rest) plain.length) p ↔
      ∃ v, plain.getLast? = some v ∧ plain.length = p.length + v.toNat ∧ plain.take p.length = p := by
  constructor
  · rintro ⟨out, h, first⟩
    by_cases bad : ∀ v, plain.getLast? = some v → plain.length < v.toNat
    · rw [strip_fails bad] at h
      cases h
    · push Not at bad
      obtain ⟨v, last, within⟩ := bad
      obtain ⟨out', h', kept⟩ := strip_ok room last within
      have eqs := Prod.mk.inj (Except.ok.inj (h'.symm.trans h))
      have size : plain.length - v.toNat = p.length := Int.ofNat.inj eqs.2
      rw [eqs.1, size, first] at kept
      exact ⟨v, last, by omega, kept.symm⟩
  · rintro ⟨v, last, size, first⟩
    obtain ⟨out, h, kept⟩ := strip_ok room last (by omega)
    have count : plain.length - v.toNat = p.length := by omega
    rw [count] at h kept
    exact ⟨out, h, kept.trans first⟩

theorem padded_recovers {rest p : Bytes} (room : rest ≠ []) :
    Recovers (stripPadding (addPadding p ++ rest) (addPadding p).length) p := by
  obtain ⟨low, high⟩ := padLength_bounds p.length
  have value : (UInt8.ofNat (padLength p.length)).toNat = padLength p.length := by
    rw [UInt8.toNat_ofNat']
    omega
  apply (strip_recovers room).mpr
  refine ⟨UInt8.ofNat (padLength p.length), ?_, ?_, ?_⟩
  · rw [addPadding, List.getLast?_append, List.getLast?_replicate, if_neg (by omega)]
    rfl
  · rw [value, addPadding, List.length_append, List.length_replicate]
  · simp [addPadding]

/-- With the last block held back only whole blocks of the plaintext come out, so the byte
taken for the padding length is a byte of the plaintext. -/
theorem held_back_recovers {rest p : Bytes} (room : rest ≠ []) :
    Recovers (stripPadding (p.take (16 * (p.length / 16)) ++ rest)
        (p.take (16 * (p.length / 16))).length) p ↔
      p.length % 16 = 0 ∧ p.getLast? = some 0 := by
  have size : (p.take (16 * (p.length / 16))).length = 16 * (p.length / 16) := by
    rw [List.length_take]
    omega
  rw [strip_recovers room, size]
  constructor
  · rintro ⟨v, last, count, _⟩
    have zero : v.toNat = 0 := by omega
    have all : p.take (16 * (p.length / 16)) = p := List.take_of_length_le (by omega)
    have nul : v = 0 := UInt8.toNat_inj.mp zero
    rw [all, nul] at last
    exact ⟨by omega, last⟩
  · rintro ⟨exact16, last⟩
    have all : p.take (16 * (p.length / 16)) = p := List.take_of_length_le (by omega)
    refine ⟨0, by rw [all, last], ?_, by rw [all, List.take_length]⟩
    have zero : (0 : UInt8).toNat = 0 := rfl
    omega

theorem released_whole (n : Nat) : released n = 16 * (released n / 16) ∧ released n ≤ n := by
  unfold released
  split <;> omega

theorem decryptSteps_documented (doc : Documented ssl aes) (rounds : Nat) {key : Bytes}
    (enough : 16 ≤ key.length) {src inp inp' out input : Bytes} {srcLen outLen textlen : Int}
    {base64En : Bool} (decoded : decodeSource ssl src srcLen inp base64En = .ok (inp', textlen))
    (valid : 0 ≤ textlen) (given : cipherInput src srcLen inp' base64En = .ok input) {plain : Bytes}
    (plains : codebook (aes (key.take 16)).symm (input.take (released input.length)) = plain)
    (fits : input.length ≤ out.length) :
    decryptSteps ssl rounds src srcLen key inp out outLen base64En =
      .ok (plain ++ out.drop plain.length, plain.length) := by
  obtain ⟨whole, bound⟩ := released_whole input.length
  have taken : (input.take (released input.length)).length = 16 * (released input.length / 16) := by
    rw [List.length_take]
    omega
  have size : plain.length = released input.length := by
    rw [← plains, codebook_length (by decide) taken]
    exact whole.symm
  have update : ssl.evpDecryptUpdate (key.take 16) input = ⟨1, plain, some (plain.length : Nat)⟩ := by
    rw [doc.decryptUpdate, plains, size]
  have written : write out 0 plain = .ok (plain ++ out.drop plain.length) :=
    write_start (by omega)
  have keep : ¬ textlen < 0 := by omega
  simp [decryptSteps, decoded, keep, doc.ctxNew, cipherKey_take enough, doc.decryptInit, given, update,
    written]

theorem decrypt_documented (doc : Documented ssl aes) (rounds : Nat) {key : Bytes}
    (enough : 16 ≤ key.length) {src input plain : Bytes} {n : Nat} (keyLen outLen : Int)
    {base64En : Bool}
    (given : ∀ inp : Bytes, inp.length = n → ∃ inp' textlen, 0 ≤ textlen ∧
      decodeSource ssl src n inp base64En = .ok (inp', textlen) ∧
      cipherInput src n inp' base64En = .ok input)
    (plains : codebook (aes (key.take 16)).symm (input.take (released input.length)) = plain)
    (fits : input.length ≤ n) (shorter : plain.length < n) :
    ∃ rest, rest ≠ [] ∧ aesEcbPkcs5Decrypt ssl rounds src n key keyLen outLen base64En =
      stripPadding (plain ++ rest) plain.length := by
  obtain ⟨inp, mallocIn, lenIn⟩ := malloc_ok (ssl.fresh 0) (rfl : (n : Int) = n)
  obtain ⟨out, mallocOut, lenOut⟩ := malloc_ok (ssl.fresh 1) (rfl : (n : Int) = n)
  obtain ⟨inp', textlen, valid, decoded, cipher⟩ := given inp lenIn
  refine ⟨out.drop plain.length, ?_, ?_⟩
  · intro empty
    have := List.drop_eq_nil_iff.mp empty
    omega
  · have steps : decryptSteps ssl rounds src n key inp out outLen base64En =
        .ok (plain ++ out.drop plain.length, plain.length) :=
      decryptSteps_documented doc rounds enough decoded valid cipher plains (by omega)
    simp only [aesEcbPkcs5Decrypt, mallocIn, mallocOut, ok_bind, steps]

theorem held_back_plain (aes : Bytes → Equiv.Perm AesBlock) (key p : Bytes) :
    codebook (aes key).symm ((cipherText aes key p).take (16 * (p.length / 16))) =
      p.take (16 * (p.length / 16)) := by
  have front : (p.take (16 * (p.length / 16))).length = 16 * (p.length / 16) := by
    rw [List.length_take]
    omega
  have tail : ((addPadding p).drop (16 * (p.length / 16))).length = 16 * 1 := by
    rw [List.length_drop, addPadding_length]
    omega
  have parts : addPadding p =
      p.take (16 * (p.length / 16)) ++ (addPadding p).drop (16 * (p.length / 16)) := by
    have h := (List.take_append_drop (16 * (p.length / 16)) (addPadding p)).symm
    rwa [addPadding, List.take_append_of_le_length (by omega), ← addPadding] at h
  have size : (codebook (aes key) (p.take (16 * (p.length / 16)))).length = 16 * (p.length / 16) :=
    codebook_length (by decide) front
  rw [cipherText, parts, codebook_append (by decide) front tail,
    List.take_append_of_le_length (Nat.le_of_eq size.symm), List.take_of_length_le (Nat.le_of_eq size),
    codebook_inverse (by decide) front]

theorem decrypt_raw (doc : Documented ssl aes) (rounds : Nat) {key : Bytes} (enough : 16 ≤ key.length)
    (p : Bytes) (keyLen outLen : Int) :
    ∃ rest, rest ≠ [] ∧
      aesEcbPkcs5Decrypt ssl rounds (cipherText aes (key.take 16) p) (paddedSize p.length) key keyLen
        outLen false =
      stripPadding (p.take (16 * (p.length / 16)) ++ rest) (p.take (16 * (p.length / 16))).length := by
  have size := cipherText_length aes (key.take 16) p
  have held : released (cipherText aes (key.take 16) p).length = 16 * (p.length / 16) := by
    rw [size, released, paddedSize]
    split <;> omega
  have source : read (cipherText aes (key.take 16) p) 0 (paddedSize p.length) =
      .ok (cipherText aes (key.take 16) p) := by
    rw [read_start rfl (Nat.le_of_eq size.symm), ← size, List.take_length]
  refine decrypt_documented doc rounds enough keyLen outLen
    (fun inp _ => ⟨inp, 0, Int.le_refl 0, rfl, source⟩) ?_ ?_ ?_
  · rw [held, held_back_plain]
  · omega
  · rw [List.length_take, paddedSize]
    omega

/-- What `EVP_DecodeBlock` leaves of encoded bytes, zeros for the padding included. -/
def decodedText (c : Bytes) : Bytes := c ++ List.replicate (Base64.filler c.length) 0

theorem decodedText_length (c : Bytes) : (decodedText c).length = 3 * ((c.length + 2) / 3) := by
  rw [decodedText, List.length_append, List.length_replicate, Base64.filler]
  omega

theorem text_length (c : Bytes) : (Base64.text c).length = 4 * ((c.length + 2) / 3) :=
  Base64.encode_length c

/-- `srcLen*3/4` is the decoded length, so the whole decoded text reaches the cipher. -/
theorem text_given (doc : Documented ssl aes) (c rest : Bytes)
    (fits : 12 * ((c.length + 2) / 3) ≤ 2147483647) (inp : Bytes)
    (room : inp.length = (Base64.text c).length) :
    ∃ inp' textlen, 0 ≤ textlen ∧
      decodeSource ssl ((Base64.text c).bytes ++ 0 :: rest) (Base64.text c).length inp true =
        .ok (inp', textlen) ∧
      cipherInput ((Base64.text c).bytes ++ 0 :: rest) (Base64.text c).length inp' true =
        .ok (decodedText c) := by
  have size := decodedText_length c
  rw [text_length] at room
  have source : read ((Base64.text c).bytes ++ 0 :: rest) 0 (Base64.text c).length =
      .ok (Base64.encode c) := by
    rw [read_start rfl (by rw [List.length_append, CString.length]; omega), CString.length,
      List.take_left]
    rfl
  have decoded : ssl.evpDecodeBlock (Base64.encode c) = (((decodedText c).length : Int), decodedText c) :=
    doc.decodeBlock _ _ (Base64.decodeBlock_encode c)
  have written : write inp 0 (decodedText c) = .ok (decodedText c ++ inp.drop (decodedText c).length) :=
    write_start (by omega)
  have triple : int (((Base64.text c).length : Int) * 3) =
      .ok ((12 * ((c.length + 2) / 3) : Nat) : Int) := by
    rw [text_length, int_ok (by omega) (by omega)]
    push_cast
    congr 1
    omega
  have quarter : ((12 * ((c.length + 2) / 3) : Nat) : Int).tdiv 4 = (decodedText c).length := by
    rw [Int.tdiv_eq_ediv_of_nonneg (by omega), size]
    omega
  refine ⟨decodedText c ++ inp.drop (decodedText c).length, (decodedText c).length, by omega, ?_, ?_⟩
  · simp only [decodeSource, if_true, source, ok_bind, decoded, written]
    rfl
  · simp only [cipherInput, if_true, triple, ok_bind, quarter]
    rw [read_start rfl (by rw [List.length_append]; omega), List.take_left]

theorem decrypt_text (doc : Documented ssl aes) (rounds : Nat) {key : Bytes} (enough : 16 ≤ key.length)
    (p rest0 : Bytes) (keyLen outLen : Int) (fits : TextFits p.length) {plain : Bytes}
    (plains : codebook (aes (key.take 16)).symm ((decodedText (cipherText aes (key.take 16) p)).take
      (released (decodedText (cipherText aes (key.take 16) p)).length)) = plain)
    (short : plain.length ≤ paddedSize p.length) :
    ∃ rest, rest ≠ [] ∧
      aesEcbPkcs5Decrypt ssl rounds ((Base64.text (cipherText aes (key.take 16) p)).bytes ++ 0 :: rest0)
        (Base64.text (cipherText aes (key.take 16) p)).length key keyLen outLen true =
      stripPadding (plain ++ rest) plain.length := by
  have size := cipherText_length aes (key.take 16) p
  have long := text_length (cipherText aes (key.take 16) p)
  have decoded := decodedText_length (cipherText aes (key.take 16) p)
  rw [size] at long decoded
  have block : 16 ≤ paddedSize p.length := by
    unfold paddedSize
    omega
  refine decrypt_documented doc rounds enough keyLen outLen
    (text_given doc (cipherText aes (key.take 16) p) rest0 (by rw [size]; exact fits)) plains ?_ ?_
  · omega
  · omega

theorem roundTripText_eq (doc : Documented ssl aes) (rounds : Nat) (key : Vector UInt8 16) (p : Bytes)
    (outLen : Int) (fits : TextFits p.length) :
    ∃ rest0, roundTripText ssl rounds key.toList p outLen =
      aesEcbPkcs5Decrypt ssl rounds ((Base64.text (cipherText aes key.toList p)).bytes ++ 0 :: rest0)
        (Base64.text (cipherText aes key.toList p)).length key.toList 16 outLen true := by
  have double : paddedSize p.length * 2 ≤ 2147483647 := by
    unfold TextFits at fits
    omega
  obtain ⟨rest0, h⟩ := encrypt_text doc rounds p 16 (key_enough key) double
  rw [key_whole] at h
  refine ⟨rest0, ?_⟩
  simp only [roundTripText, h, ok_bind, strlen_terminated]

theorem released_all {aes : Bytes → Equiv.Perm AesBlock} {key p : Bytes}
    (padded : (p.length / 16 + 1) % 3 ≠ 0) :
    codebook (aes key).symm ((decodedText (cipherText aes key p)).take
      (released (decodedText (cipherText aes key p)).length)) = addPadding p := by
  have size := cipherText_length aes key p
  have count : released (decodedText (cipherText aes key p)).length =
      (cipherText aes key p).length := by
    rw [decodedText_length, size, released, paddedSize]
    split <;> omega
  rw [count, decodedText, List.take_left, cipherText, codebook_inverse (by decide) (addPadding_whole p)]

theorem released_but_last {aes : Bytes → Equiv.Perm AesBlock} {key p : Bytes}
    (unpadded : (p.length / 16 + 1) % 3 = 0) :
    codebook (aes key).symm ((decodedText (cipherText aes key p)).take
      (released (decodedText (cipherText aes key p)).length)) = p.take (16 * (p.length / 16)) := by
  have size := cipherText_length aes key p
  have count : released (decodedText (cipherText aes key p)).length = 16 * (p.length / 16) := by
    rw [decodedText_length, size, released, paddedSize]
    split <;> omega
  have none : Base64.filler (cipherText aes key p).length = 0 := by
    rw [size, Base64.filler, paddedSize]
    omega
  rw [count, decodedText, none, List.replicate_zero, List.append_nil, held_back_plain]

theorem roundTripText_padded (doc : Documented ssl aes) (rounds : Nat) (key : Vector UInt8 16)
    (p : Bytes) (outLen : Int) (fits : TextFits p.length) (padded : (p.length / 16 + 1) % 3 ≠ 0) :
    Recovers (roundTripText ssl rounds key.toList p outLen) p := by
  obtain ⟨rest0, trip⟩ := roundTripText_eq doc rounds key p outLen fits
  have short : (addPadding p).length ≤ paddedSize p.length := Nat.le_of_eq (addPadding_length p)
  obtain ⟨rest, room, result⟩ := decrypt_text doc rounds (key_enough key) p rest0 16 outLen fits
    (released_all padded) short
  rw [key_whole] at result
  rw [trip, result]
  exact padded_recovers room

theorem roundTripText_unpadded (doc : Documented ssl aes) (rounds : Nat) (key : Vector UInt8 16)
    (p : Bytes) (outLen : Int) (fits : TextFits p.length) (unpadded : (p.length / 16 + 1) % 3 = 0) :
    Recovers (roundTripText ssl rounds key.toList p outLen) p ↔
      p.length % 16 = 0 ∧ p.getLast? = some 0 := by
  obtain ⟨rest0, trip⟩ := roundTripText_eq doc rounds key p outLen fits
  have short : (p.take (16 * (p.length / 16))).length ≤ paddedSize p.length := by
    rw [List.length_take, paddedSize]
    omega
  obtain ⟨rest, room, result⟩ := decrypt_text doc rounds (key_enough key) p rest0 16 outLen fits
    (released_but_last unpadded) short
  rw [key_whole] at result
  rw [trip, result, held_back_recovers room]

theorem roundTripRaw_eq (doc : Documented ssl aes) (rounds : Nat) (key : Vector UInt8 16)
    (p : Bytes) (outLen : Int) (fits : paddedSize p.length ≤ 2147483647) :
    ∃ rest, rest ≠ [] ∧ roundTripRaw ssl rounds key.toList p outLen =
      stripPadding (p.take (16 * (p.length / 16)) ++ rest) (p.take (16 * (p.length / 16))).length := by
  obtain ⟨rest, room, result⟩ := decrypt_raw doc rounds (key_enough key) p 16 outLen
  refine ⟨rest, room, ?_⟩
  simp only [roundTripRaw, encrypt_raw doc rounds p 16 (key_enough key) fits, ok_bind, result]

/-- The text round trip succeeds unless the ciphertext is a whole number of base64 groups;
then only a plaintext of whole blocks that ends in a zero byte survives. -/
theorem roundTripText_recovers_iff (doc : Documented ssl aes) (rounds : Nat) (key : Vector UInt8 16)
    (p : Bytes) (outLen : Int) (fits : TextFits p.length) :
    Recovers (roundTripText ssl rounds key.toList p outLen) p ↔
      (p.length / 16 + 1) % 3 ≠ 0 ∨ (p.length % 16 = 0 ∧ p.getLast? = some 0) := by
  by_cases padded : (p.length / 16 + 1) % 3 ≠ 0
  · exact iff_of_true (roundTripText_padded doc rounds key p outLen fits padded) (Or.inl padded)
  · rw [roundTripText_unpadded doc rounds key p outLen fits (not_not.mp padded)]
    constructor
    · intro kept
      exact Or.inr kept
    · rintro (impossible | kept)
      · exact absurd impossible padded
      · exact kept

theorem serial_text_survives :
    Recovers (roundTripText sampleOpenSSL 1 deviceKey.toList sampleSerial.bytes 0) sampleSerial.bytes :=
  (roundTripText_recovers_iff sample_documented 1 deviceKey sampleSerial.bytes 0 (by decide)).mpr
    (by decide)

/-- Two blocks of text make three of ciphertext, which is 64 characters without padding. -/
theorem two_blocks_text_lost :
    ¬ Recovers (roundTripText sampleOpenSSL 1 deviceKey.toList (List.replicate 32 65) 0)
      (List.replicate 32 65) := by
  have kept := roundTripText_unpadded sample_documented 1 deviceKey (List.replicate 32 65) 0
    (by decide) (by decide)
  rw [kept]
  decide

/-- The plaintexts that survive are exactly the whole blocks with a final zero byte: the last
block, which holds all the padding then, is the one that is lost. -/
theorem roundTripRaw_recovers_iff (doc : Documented ssl aes) (rounds : Nat) (key : Vector UInt8 16)
    (p : Bytes) (outLen : Int) (fits : paddedSize p.length ≤ 2147483647) :
    Recovers (roundTripRaw ssl rounds key.toList p outLen) p ↔
      p.length % 16 = 0 ∧ p.getLast? = some 0 := by
  obtain ⟨rest, room, trip⟩ := roundTripRaw_eq doc rounds key p outLen fits
  rw [trip, held_back_recovers room]

theorem zero_block_raw_survives :
    Recovers (roundTripRaw sampleOpenSSL 1 deviceKey.toList (List.replicate 16 0) 0)
      (List.replicate 16 0) :=
  (roundTripRaw_recovers_iff sample_documented 1 deviceKey (List.replicate 16 0) 0 (by decide)).mpr
    (by decide)

theorem serial_raw_lost :
    ¬ Recovers (roundTripRaw sampleOpenSSL 1 deviceKey.toList sampleSerial.bytes 0)
      sampleSerial.bytes := by
  obtain ⟨rest, room, trip⟩ :=
    roundTripRaw_eq sample_documented 1 deviceKey sampleSerial.bytes 0 (by decide)
  rw [trip, held_back_recovers room]
  decide

/-- What the device sends is what a standard receiver expects: text whose base64 is the
ciphertext, and without base64 the ciphertext itself, of the returned length. Each mode
needs that the `int` sizes it computes from the padded size stay in range. -/
theorem receiver_recovers (doc : Documented ssl aes) (rounds : Nat) (key : Vector UInt8 16)
    (p : Bytes) :
    (paddedSize p.length * 2 ≤ 2147483647 → ∃ res n text,
      aesEcbPkcs5Encrypt ssl rounds p p.length key.toList 16 true = .ok (some res, n) ∧
      cstr res = .ok text ∧ Base64.decode text.bytes = some (cipherText aes key.toList p) ∧
      receiveText aes key.toList text = some p) ∧
    (paddedSize p.length ≤ 2147483647 → ∃ c,
      aesEcbPkcs5Encrypt ssl rounds p p.length key.toList 16 false =
        .ok (some c, (16 * (p.length / 16 + 1) : Nat)) ∧
      c.length = 16 * (p.length / 16 + 1) ∧ c = cipherText aes key.toList p ∧
      receiveRaw aes key.toList c = some p) := by
  constructor
  · intro fits
    obtain ⟨rest, h⟩ := encrypt_text doc rounds p 16 (key_enough key) fits
    rw [key_whole] at h
    exact ⟨_, _, Base64.text (cipherText aes key.toList p), h, cstr_terminated _ rest,
      Base64.decode_encode _, receiveText_cipherText aes key.toList p⟩
  · intro fits
    have h := encrypt_raw doc rounds p 16 (key_enough key) fits
    rw [key_whole] at h
    exact ⟨_, h, cipherText_length aes key.toList p, rfl, receiveRaw_cipherText aes key.toList p⟩

theorem serial_received :
    ∃ res n text, aesEcbPkcs5Encrypt sampleOpenSSL 1 sampleSerial.bytes 6 deviceKey.toList 16 true =
        .ok (some res, n) ∧
      cstr res = .ok text ∧
      Base64.decode text.bytes = some (cipherText sampleAes deviceKey.toList sampleSerial.bytes) ∧
      receiveText sampleAes deviceKey.toList text = some sampleSerial.bytes :=
  (receiver_recovers sample_documented 1 deviceKey sampleSerial.bytes).1 (by decide)

end Documented

end Newplat
