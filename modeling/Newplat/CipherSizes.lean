import Newplat.Refusals
import Newplat.RoundTrip

/-! Sizes in the cipher functions: the length the encryption reports beside its text, and the
range in which every `int` size is computed without overflow. -/
namespace Newplat

open Base Blocks

/-- The length is that of the text, and so many bytes of the object decode to the ciphertext. -/
def TextMeasured (c object : Bytes) (outLen : Int) : Prop :=
  outLen = (Base64.text c).length ∧ Base64.decode (object.take outLen.toNat) = some c

section Reported

variable {ssl : OpenSSL} {key p c : Bytes}

/-- The number of ciphertext bytes, taken as a number of characters, ends at a group. -/
theorem text_cut {n : Nat} (size : c.length = paddedSize n) (rest : Bytes) :
    Base64.decode (((Base64.text c).bytes ++ 0 :: rest).take (paddedSize n)) =
      some (c.take (3 * (paddedSize n / 4))) := by
  have groups : paddedSize n = 4 * (paddedSize n / 4) := by
    unfold paddedSize
    omega
  have within : paddedSize n ≤ (Base64.text c).bytes.length := by
    have text : (Base64.text c).bytes.length = 4 * ((c.length + 2) / 3) := Base64.encode_length c
    omega
  have front : (Base64.text c).bytes.take (paddedSize n) =
      Base64.encode (c.take (3 * (paddedSize n / 4))) := by
    rw [groups, Nat.mul_div_cancel_left _ (by decide)]
    exact Base64.encode_take _ (by omega)
  rw [List.take_append_of_le_length within, front, Base64.decode_encode]

/-- The reported length is that of the ciphertext, and its text is longer. -/
theorem text_length_never_reported (works : EncryptsTo ssl key p c) (rounds : Nat) (keyLen : Int)
    (enough : 16 ≤ key.length) (fits : paddedSize p.length * 2 ≤ 2147483647) :
    ∃ object outLen, aesEcbPkcs5Encrypt ssl rounds p p.length key keyLen true = .ok (some object, outLen) ∧
      cstr object = .ok (Base64.text c) ∧ ¬ TextMeasured c object outLen ∧
      Base64.decode (object.take outLen.toNat) = some (c.take (3 * (outLen.toNat / 4))) := by
  obtain ⟨rest, returns⟩ := encrypt_text_to works rounds keyLen enough fits
  have cut := text_cut works.length rest
  refine ⟨_, _, returns, cstr_terminated _ rest, ?_, cut⟩
  rintro ⟨_, whole⟩
  have same : c.take (3 * (paddedSize p.length / 4)) = c := Option.some.inj (cut.symm.trans whole)
  have shorter := congrArg List.length same
  rw [List.length_take, works.length] at shorter
  unfold paddedSize at shorter
  omega

end Reported

/-- AES-128 of the padded serial number under the device key. -/
def serialCipher : Bytes :=
  [115, 168, 255, 171, 110, 200, 171, 144, 228, 183, 25, 136, 183, 115, 233, 161]

theorem serial_encrypts : EncryptsTo sampleOpenSSL deviceKey.toList sampleSerial.bytes serialCipher where
  ctxNew := rfl
  encryptInit := rfl
  encryptUpdate := rfl
  length := rfl
  encodeBlock := rfl

theorem serial_text_measured_short :
    ∃ object outLen, aesEcbPkcs5Encrypt sampleOpenSSL 1 sampleSerial.bytes 6 deviceKey.toList 16 true =
        .ok (some object, outLen) ∧
      cstr object = .ok (Base64.text serialCipher) ∧ ¬ TextMeasured serialCipher object outLen ∧
      Base64.decode (object.take outLen.toNat) = some (serialCipher.take (3 * (outLen.toNat / 4))) :=
  text_length_never_reported serial_encrypts 1 16 (by decide) (by decide)

/-- The text has 24 characters, 16 is what is reported, and these are 12 bytes of the ciphertext. -/
theorem serial_text_cut :
    aesEcbPkcs5Encrypt sampleOpenSSL 1 sampleSerial.bytes 6 deviceKey.toList 16 true =
      .ok (some (CString.ascii "c6j/q27Iq5DktxmIt3PpoQ==" ++ List.replicate 8 0), 16) ∧
    (Base64.text serialCipher).bytes = CString.ascii "c6j/q27Iq5DktxmIt3PpoQ==" ∧
    ¬ TextMeasured serialCipher (CString.ascii "c6j/q27Iq5DktxmIt3PpoQ==" ++ List.replicate 8 0) 16 := by
  refine ⟨rfl, rfl, ?_⟩
  intro measured
  have length : (16 : Int) = 24 := measured.1
  omega

/-! From here on the calls may fail, and only what they put out and store is contained. -/

/-- What the calls put out, and the length a successful encryption stores. -/
structure Contained (ssl : OpenSSL) : Prop where
  encryptUpdate : ∀ key xs, 16 ∣ xs.length → (ssl.evpEncryptUpdate key xs).written.length ≤ xs.length
  encryptLength : ∀ key xs, 16 ∣ xs.length → (ssl.evpEncryptUpdate key xs).ret = 1 →
    (ssl.evpEncryptUpdate key xs).outl = some (xs.length : Int)
  encodeBlock : ∀ xs, ssl.evpEncodeBlock xs = Base64.encode xs
  decodeBlock : ∀ text, (ssl.evpDecodeBlock text).2.length ≤ 3 * (text.length / 4)
  decryptUpdate : ∀ key xs, (ssl.evpDecryptUpdate key xs).written.length ≤ xs.length

/-- No `int` leaves its range, and no access its object. -/
def WithinSizes {α : Type} (c : Checked α) : Prop := HaltsIn (fun e => e ≠ .overflow ∧ e ≠ .outOfBounds) c

def EncryptSized (srcLen : Nat) (base64En : Bool) : Prop :=
  ∀ ssl, Contained ssl → ∀ rounds src key keyLen, srcLen ≤ src.length → 16 ≤ key.length →
    WithinSizes (aesEcbPkcs5Encrypt ssl rounds src srcLen key keyLen base64En)

/-- The steps keep within the two buffers of `srcLen` bytes, and no `int` of the whole function
leaves its range. The unpadding after the steps computes no size. -/
def DecryptSized (srcLen : Nat) (base64En : Bool) : Prop :=
  ∀ ssl, Contained ssl → ∀ rounds src key keyLen outLen, srcLen ≤ src.length → 16 ≤ key.length →
    (∀ inp out, inp.length = srcLen → out.length = srcLen →
      WithinSizes (decryptSteps ssl rounds src srcLen key inp out outLen base64En)) ∧
    aesEcbPkcs5Decrypt ssl rounds src srcLen key keyLen outLen base64En ≠ .error .overflow

section Sizes

variable {ssl : OpenSSL} {key src inp out : Bytes} {n : Nat} {base64En : Bool}

theorem reportErrors_within (ssl : OpenSSL) (rounds : Nat) : WithinSizes (reportErrors ssl rounds) := by
  intro e halts
  unfold reportErrors at halts
  split at halts
  · cases halts
  · cases halts
    decide

theorem report_within {α : Type} (ssl : OpenSSL) (rounds : Nat) (a : α) :
    WithinSizes (do reportErrors ssl rounds; return a : Checked α) :=
  haltsIn_bind (reportErrors_within ssl rounds) fun _ _ => haltsIn_ok a

theorem encodeOut_within (contained : Contained ssl) (room : out.length = paddedSize n)
    (fits : base64En = true → paddedSize n * 2 ≤ 2147483647) :
    WithinSizes (encodeOut ssl out (paddedSize n) base64En) := by
  cases base64En with
  | false => exact haltsIn_ok _
  | true =>
    have double := fits rfl
    have small : int ((paddedSize n : Nat) * 2) = .ok ((paddedSize n : Nat) * 2) :=
      int_ok (by omega) (by omega)
    obtain ⟨res, mallocRes, lenRes⟩ :=
      malloc_ok (ssl.fresh 2) (rfl : ((paddedSize n : Nat) : Int) * 2 = (paddedSize n * 2 : Nat))
    have source : read out 0 (paddedSize n) = .ok out := by
      rw [read_start rfl (Nat.le_of_eq room.symm), ← room, List.take_length]
    have text := text_room room
    rw [← lenRes] at text
    simp only [encodeOut, if_true, small, ok_bind, mallocRes, source, contained.encodeBlock, write_start text]
    exact haltsIn_ok _

theorem encryptEnd_within (contained : Contained ssl) (rounds : Nat) (key' : Bytes)
    (size : inp.length = paddedSize n) (room : out.length = paddedSize n)
    (fits : base64En = true → paddedSize n * 2 ≤ 2147483647) :
    WithinSizes (encryptEnd ssl out (paddedSize n) base64En rounds (some (ssl.evpEncryptUpdate key' inp))) := by
  have whole : 16 ∣ inp.length := Dvd.intro _ size.symm
  have put := contained.encryptUpdate key' inp whole
  have stored := contained.encryptLength key' inp whole
  have written := write_start (put.trans (Nat.le_of_eq (size.trans room.symm)))
  unfold encryptEnd
  simp only [written, ok_bind]
  split
  · exact report_within ssl rounds _
  · rename_i worked
    have length := stored (not_not.mp worked)
    rw [size] at length
    rw [length]
    apply encodeOut_within contained _ fits
    rw [List.length_append, List.length_drop]
    omega

theorem encrypt_within (contained : Contained ssl) (rounds : Nat) (keyLen : Int) (source : n ≤ src.length)
    (enough : 16 ≤ key.length) (blocks : paddedSize n ≤ 2147483647)
    (fits : base64En = true → paddedSize n * 2 ≤ 2147483647) :
    WithinSizes (aesEcbPkcs5Encrypt ssl rounds src n key keyLen base64En) := by
  have length : (src.take n).length = n := by
    rw [List.length_take]
    omega
  have front := encrypt_front ssl rounds (src.take n) (src.drop n) key keyLen base64En
  rw [List.take_append_drop, length] at front
  have size : (addPadding (src.take n)).length = paddedSize n := by
    rw [addPadding_whole, length, paddedSize]
  have prepared := encrypt_prepares ssl rounds (src.take n) key keyLen base64En (by rwa [length])
  rw [length] at prepared
  rw [front, prepared, encryptSteps_eq]
  apply haltsIn_bind
  · unfold encryptCalls
    rw [cipherKey_take enough, ok_bind]
    split
    · exact report_within ssl rounds _
    split
    · exact report_within ssl rounds _
    · exact encryptEnd_within contained rounds _ size List.length_replicate fits
  · intro ended _
    exact haltsIn_ok _

theorem decodeSource_within (contained : Contained ssl) (base64En : Bool) (source : n ≤ src.length)
    (room : inp.length = n) :
    ∃ inp' textlen, decodeSource ssl src n inp base64En = .ok (inp', textlen) ∧ inp'.length = n ∧
      (0 ≤ (ssl.evpDecodeBlock (src.take n)).1 → 0 ≤ textlen) := by
  cases base64En with
  | false => exact ⟨inp, 0, rfl, room, fun _ => le_rfl⟩
  | true =>
    have text : read src 0 n = .ok (src.take n) := read_start rfl source
    have length : (src.take n).length = n := by
      rw [List.length_take]
      omega
    have decoded := contained.decodeBlock (src.take n)
    rw [length] at decoded
    have fits : (ssl.evpDecodeBlock (src.take n)).2.length ≤ inp.length := by omega
    refine ⟨(ssl.evpDecodeBlock (src.take n)).2 ++ inp.drop (ssl.evpDecodeBlock (src.take n)).2.length,
      (ssl.evpDecodeBlock (src.take n)).1, ?_, ?_, fun decoded => decoded⟩
    · simp only [decodeSource, if_true, text, ok_bind, write_start fits]
      rfl
    · rw [List.length_append, List.length_drop]
      omega

theorem cipherInput_within (source : n ≤ src.length) (room : inp.length = n)
    (fits : base64En = true → n * 3 ≤ 2147483647) :
    ∃ input, cipherInput src n inp base64En = .ok input ∧ input.length ≤ n := by
  cases base64En with
  | false =>
    have text : read src 0 n = .ok (src.take n) := read_start rfl source
    exact ⟨src.take n, text, List.length_take_le n src⟩
  | true =>
    have triple := fits rfl
    have small : int ((n : Int) * 3) = .ok ((n * 3 : Nat) : Int) := by
      rw [int_ok (by omega) (by omega)]
      push_cast
      rfl
    have quarters : ((n * 3 : Nat) : Int).tdiv 4 = (n * 3 / 4 : Nat) := by
      rw [Int.tdiv_eq_ediv_of_nonneg (by omega)]
      rfl
    have read : read inp 0 (n * 3 / 4 : Nat) = .ok (inp.take (n * 3 / 4)) := read_start rfl (by omega)
    refine ⟨inp.take (n * 3 / 4), ?_, ?_⟩
    · simp only [cipherInput, if_true, small, ok_bind, quarters, read]
    · rw [List.length_take]
      omega

theorem decryptEnd_within (contained : Contained ssl) (rounds : Nat) (key' : Bytes) {input : Bytes} (outLen : Int)
    (fits : input.length ≤ out.length) :
    WithinSizes (decryptEnd ssl out outLen rounds (some (ssl.evpDecryptUpdate key' input))) := by
  have written := write_start ((contained.decryptUpdate key' input).trans fits)
  unfold decryptEnd
  simp only [written, ok_bind]
  split
  · exact report_within ssl rounds _
  · exact haltsIn_ok _

theorem decryptSteps_within (contained : Contained ssl) (rounds : Nat) (outLen : Int) (source : n ≤ src.length)
    (enough : 16 ≤ key.length) (room : inp.length = n) (room' : out.length = n)
    (fits : base64En = true → n * 3 ≤ 2147483647) :
    WithinSizes (decryptSteps ssl rounds src n key inp out outLen base64En) := by
  obtain ⟨inp', textlen, decoded, same, -⟩ := decodeSource_within contained base64En source room
  obtain ⟨input, given, small⟩ := cipherInput_within source same fits
  rw [decryptSteps_eq]
  unfold decryptCalls
  rw [decoded, ok_bind]
  dsimp only
  split
  · exact report_within ssl rounds _
  split
  · exact report_within ssl rounds _
  rw [cipherKey_take enough, ok_bind]
  split
  · exact report_within ssl rounds _
  · rw [given, ok_bind]
    exact decryptEnd_within contained rounds _ outLen (small.trans (Nat.le_of_eq room'.symm))

theorem stripPadding_no_overflow (out : Bytes) (outLen : Int) :
    HaltsIn (· ≠ .overflow) (stripPadding out outLen) := by
  have other : ∀ e, e = .outOfBounds → e ≠ Halt.overflow := by
    intro e same
    rw [same]
    decide
  apply haltsIn_bind (haltsIn_weaken (haltsIn_readByte _ _) other)
  intro unpadding _
  apply haltsIn_bind (haltsIn_weaken (haltsIn_write _ _ _) other)
  intro out _
  exact haltsIn_ok _

theorem decrypt_sized (fits : base64En = true → n * 3 ≤ 2147483647) : DecryptSized n base64En := by
  intro ssl contained rounds src key keyLen outLen source enough
  have steps : ∀ inp out, inp.length = n → out.length = n →
      WithinSizes (decryptSteps ssl rounds src n key inp out outLen base64En) :=
    fun inp out room room' => decryptSteps_within contained rounds outLen source enough room room' fits
  refine ⟨steps, ?_⟩
  obtain ⟨inp, mallocIn, lenIn⟩ := malloc_ok (ssl.fresh 0) (rfl : (n : Int) = _)
  obtain ⟨out, mallocOut, lenOut⟩ := malloc_ok (ssl.fresh 1) (rfl : (n : Int) = _)
  have whole : HaltsIn (· ≠ .overflow) (aesEcbPkcs5Decrypt ssl rounds src n key keyLen outLen base64En) := by
    simp only [aesEcbPkcs5Decrypt, mallocIn, mallocOut, ok_bind]
    apply haltsIn_bind (haltsIn_weaken (steps inp out lenIn lenOut) fun _ kind => kind.1)
    intro ended _
    exact stripPadding_no_overflow _ _
  exact fun overflows => whole _ overflows rfl

end Sizes

/-- A library whose decoder passes over the line ends behind a text. -/
def lineOpenSSL : OpenSSL := { sampleOpenSSL with
  evpDecodeBlock := fun text => sampleOpenSSL.evpDecodeBlock (text.rdropWhile (· = 10)) }

theorem lineOpenSSL_decodes (text : Bytes) :
    (lineOpenSSL.evpDecodeBlock text).2.length ≤ 3 * (text.length / 4) := by
  have front : text.rdropWhile (· = 10) <+: text := List.rdropWhile_prefix _ text
  have shorter := front.length_le
  simp only [lineOpenSSL, sampleOpenSSL, documentedOpenSSL]
  split
  · rename_i xs decodes
    have size := Base64.decodeBlock_length decodes
    simp only [size]
    omega
  · exact Nat.zero_le _

theorem lineOpenSSL_contained : Contained lineOpenSSL where
  encryptUpdate key xs whole := by
    have update : lineOpenSSL.evpEncryptUpdate key xs = ⟨1, codebook (sampleAes key) xs, some xs.length⟩ :=
      sample_documented.encryptUpdate key xs whole
    have size := (documented_encrypts sample_documented).cipherLength key xs whole
    rw [update]
    exact Nat.le_of_eq size
  encryptLength key xs whole _ := by
    have update : lineOpenSSL.evpEncryptUpdate key xs = ⟨1, codebook (sampleAes key) xs, some xs.length⟩ :=
      sample_documented.encryptUpdate key xs whole
    rw [update]
  encodeBlock _ := rfl
  decodeBlock := lineOpenSSL_decodes
  decryptUpdate key xs := by
    obtain ⟨whole, bound⟩ := released_whole xs.length
    have taken : (xs.take (released xs.length)).length = 16 * (released xs.length / 16) := by
      rw [List.length_take]
      omega
    have size : (codebook (sampleAes key).symm (xs.take (released xs.length))).length =
        16 * (released xs.length / 16) := codebook_length (by decide) taken
    have written : (lineOpenSSL.evpDecryptUpdate key xs).written =
        codebook (sampleAes key).symm (xs.take (released xs.length)) := rfl
    rw [written, size]
    omega

/-- A base64 text of any length: whole groups, and line ends to fill it up. -/
def textOf (n : Nat) : Bytes := Base64.encode (List.replicate (3 * (n / 4)) 0) ++ List.replicate (n % 4) 10

theorem textOf_length (n : Nat) : (textOf n).length = n := by
  rw [textOf, List.length_append, Base64.encode_length, List.length_replicate, List.length_replicate]
  omega

theorem textOf_stripped (n : Nat) :
    (textOf n).rdropWhile (· = 10) = Base64.encode (List.replicate (3 * (n / 4)) 0) := by
  have ends (k : Nat) (xs : Bytes) :
      (xs ++ List.replicate k 10).rdropWhile (· = 10) = xs.rdropWhile (· = 10) := by
    induction k with
    | zero => simp
    | succ k ih =>
      rw [List.replicate_succ', ← List.append_assoc, List.rdropWhile_concat_pos _ _ _ (by simp), ih]
  have text : ∀ s ∈ Base64.encode (List.replicate (3 * (n / 4)) 0), s ≠ 10 := by
    intro s member newline
    subst newline
    rcases Base64.encode_symbols member with inside | padding
    · exact absurd inside (by decide)
    · exact absurd padding (by decide)
  rw [textOf, ends, List.rdropWhile_eq_self_iff]
  intro nonempty
  simpa using text _ (List.getLast_mem nonempty)

theorem textOf_decodes (n : Nat) : 0 ≤ (lineOpenSSL.evpDecodeBlock (textOf n)).1 := by
  have decodes := Base64.decodeBlock_encode (List.replicate (3 * (n / 4)) 0)
  simp only [lineOpenSSL, sampleOpenSSL, documentedOpenSSL, textOf_stripped, decodes]
  exact Int.natCast_nonneg _

theorem lineOpenSSL_encrypts : Encrypts lineOpenSSL fun key xs => codebook (sampleAes key) xs :=
  have works := documented_encrypts sample_documented
  ⟨works.ctxNew, works.encryptInit, works.encryptUpdate, works.cipherLength, works.encodeBlock⟩

theorem decrypt_overflows {n : Nat} (large : 2147483647 < n * 3) :
    aesEcbPkcs5Decrypt lineOpenSSL 0 (textOf n) n deviceKey.toList 16 0 true = .error .overflow := by
  obtain ⟨inp, mallocIn, lenIn⟩ := malloc_ok (lineOpenSSL.fresh 0) (rfl : (n : Int) = _)
  obtain ⟨out, mallocOut, lenOut⟩ := malloc_ok (lineOpenSSL.fresh 1) (rfl : (n : Int) = _)
  have source : n ≤ (textOf n).length := Nat.le_of_eq (textOf_length n).symm
  have whole : (textOf n).take n = textOf n := List.take_of_length_le (Nat.le_of_eq (textOf_length n))
  obtain ⟨inp', textlen, decoded, same, counted⟩ :=
    decodeSource_within lineOpenSSL_contained true source lenIn
  rw [whole] at counted
  have some : ¬ textlen < 0 := Int.not_lt.mpr (counted (textOf_decodes n))
  have overflow : int ((n : Int) * 3) = .error .overflow := if_neg (by omega)
  have ctxNew : lineOpenSSL.evpCipherCtxNew = true := rfl
  have init (key : Bytes) : lineOpenSSL.evpDecryptInitEx key = 1 := rfl
  simp only [aesEcbPkcs5Decrypt, mallocIn, mallocOut, ok_bind, decryptSteps, decoded, some, ctxNew, init,
    cipherKey_take (key_enough deviceKey), cipherInput, overflow, if_false, if_true, ne_eq, not_true,
    Bool.true_eq_false]
  rfl

section Thresholds

variable {n : Nat} {base64En : Bool}

theorem encryptSized_iff : EncryptSized n base64En ↔ n < if base64En then 1073741808 else 2147483632 := by
  constructor
  · intro sized
    have halts (e : Halt) (fails : aesEcbPkcs5Encrypt lineOpenSSL 0 (List.replicate n 0)
        n deviceKey.toList 16 base64En = .error e) : e ≠ .overflow :=
      (sized lineOpenSSL lineOpenSSL_contained 0 (List.replicate n 0) deviceKey.toList 16
        (Nat.le_of_eq List.length_replicate.symm) (key_enough deviceKey) e fails).1
    have length : (List.replicate n (0 : UInt8)).length = n := List.length_replicate
    have blocks : paddedSize n ≤ 2147483647 := by
      by_contra large
      have overflows := encrypt_overflows lineOpenSSL 0 (p := List.replicate n 0) deviceKey.toList 16 base64En
        (by rw [length]; omega)
      rw [length] at overflows
      exact halts _ overflows rfl
    cases base64En with
    | false =>
      unfold paddedSize at blocks
      simp only [Bool.false_eq_true, if_false]
      omega
    | true =>
      have fits : paddedSize n * 2 ≤ 2147483647 := by
        by_contra large
        have overflows := encrypt_text_overflows (encrypts_to lineOpenSSL_encrypts deviceKey.toList
          (List.replicate n 0)) 0 16 (key_enough deviceKey) (by rwa [length]) (by rw [length]; omega)
        rw [length] at overflows
        exact halts _ overflows rfl
      unfold paddedSize at fits
      simp only [if_true]
      omega
  · intro small ssl contained rounds src key keyLen source enough
    apply encrypt_within contained rounds keyLen source enough
    · unfold paddedSize
      split at small <;> omega
    · intro text
      rw [if_pos text] at small
      unfold paddedSize
      omega

theorem decryptSized_iff : DecryptSized n base64En ↔ (base64En = true → n ≤ 715827882) := by
  constructor
  · intro sized text
    by_contra large
    subst text
    have overflows := decrypt_overflows (n := n) (by omega)
    exact (sized lineOpenSSL lineOpenSSL_contained 0 (textOf n) deviceKey.toList 16 0
      (Nat.le_of_eq (textOf_length n).symm) (key_enough deviceKey)).2 overflows
  · intro small
    exact decrypt_sized fun text => by
      have bound := small text
      omega

end Thresholds

/-- Where the sizes of the two functions stay in `int`; the buffers suffice wherever they do. -/
theorem cipher_sizes_iff (srcLen : Nat) (base64En : Bool) :
    (EncryptSized srcLen base64En ↔ srcLen < if base64En then 1073741808 else 2147483632) ∧
    (DecryptSized srcLen base64En ↔ (base64En = true → srcLen ≤ 715827882)) :=
  ⟨encryptSized_iff, decryptSized_iff⟩

/-- The smallest lengths at which a product of each kind no longer fits an `int`. A text of
715827884 bytes is one that is decoded before its length is multiplied. -/
theorem large_sizes_overflow :
    ¬ EncryptSized 2147483632 false ∧ ¬ EncryptSized 1073741808 true ∧ ¬ DecryptSized 715827883 true ∧
    aesEcbPkcs5Decrypt lineOpenSSL 0 (textOf 715827884) 715827884 deviceKey.toList 16 0 true =
      .error .overflow := by
  refine ⟨?_, ?_, ?_, decrypt_overflows (by decide)⟩
  · intro sized
    simpa using encryptSized_iff.mp sized
  · intro sized
    simpa using encryptSized_iff.mp sized
  · intro sized
    simpa using decryptSized_iff.mp sized

end Newplat
