import Newplat.Unpadding

/-! What the caller of the encryption sees of a failure. In text mode it is a NULL pointer; in raw
mode the output buffer is returned whatever happened to it. -/
namespace Newplat

open Base Blocks

/-- A call that succeeds does what is documented; one that fails puts out no more than that. -/
structure Answers (ssl : OpenSSL) (cipher : Bytes → Bytes → Bytes) : Prop where
  encryptUpdate : ∀ key xs, 16 ∣ xs.length → (ssl.evpEncryptUpdate key xs).ret = 1 →
    ssl.evpEncryptUpdate key xs = ⟨1, cipher key xs, some xs.length⟩
  cipherLength : ∀ key xs, 16 ∣ xs.length → (cipher key xs).length = xs.length
  room : ∀ key xs, (ssl.evpEncryptUpdate key xs).ret ≠ 1 →
    (ssl.evpEncryptUpdate key xs).written.length ≤ xs.length
  encodeBlock : ∀ xs, ssl.evpEncodeBlock xs = Base64.encode xs

/-- One of the three cipher calls for this plaintext fails. -/
def OpenSSL.Fails (ssl : OpenSSL) (key p : Bytes) : Prop :=
  ssl.evpCipherCtxNew = false ∨ ssl.evpEncryptInitEx (key.take 16) ≠ 1 ∨
    (ssl.evpEncryptUpdate (key.take 16) (addPadding p)).ret ≠ 1

/-- The object behind the returned pointer is the ciphertext, or its base64 text. -/
def Carries (c : Bytes) (base64En : Bool) (object : Bytes) : Prop :=
  if base64En then ∃ rest, object = (Base64.text c).bytes ++ 0 :: rest else object = c

/-- A pointer is returned only to the whole of a ciphertext, and NULL on every failure. -/
def FailureSeen (ssl : OpenSSL) (cipher : Bytes → Bytes → Bytes) (p key : Bytes) (keyLen : Int)
    (base64En : Bool) : Prop :=
  (∀ rounds object outLen,
    aesEcbPkcs5Encrypt ssl rounds p p.length key keyLen base64En = .ok (some object, outLen) →
      ¬ ssl.Fails key p ∧ Carries (cipher (key.take 16) (addPadding p)) base64En object) ∧
  (ssl.Fails key p → ∃ rounds outLen,
    aesEcbPkcs5Encrypt ssl rounds p p.length key keyLen base64En = .ok (none, outLen))

section Refusals

variable {ssl : OpenSSL} {cipher : Bytes → Bytes → Bytes} {key p c : Bytes}

theorem encrypts_unless_fails (answers : Answers ssl cipher) (works : ¬ ssl.Fails key p) :
    EncryptsTo ssl key p (cipher (key.take 16) (addPadding p)) := by
  simp only [OpenSSL.Fails, not_or, not_not, Bool.not_eq_false] at works
  obtain ⟨ctxNew, init, update⟩ := works
  have whole : 16 ∣ (addPadding p).length := ⟨_, addPadding_whole p⟩
  have size : (addPadding p).length = paddedSize p.length := addPadding_whole p
  have result := answers.encryptUpdate (key.take 16) (addPadding p) whole update
  have length := answers.cipherLength (key.take 16) (addPadding p) whole
  rw [size] at result length
  exact ⟨ctxNew, init, result, length, answers.encodeBlock _⟩

theorem encryptSteps_fails (answers : Answers ssl cipher) (enough : 16 ≤ key.length) (fails : ssl.Fails key p) :
    ∃ out outLen, ∀ rounds base64En, encryptSteps ssl rounds key (addPadding p)
      (List.replicate (paddedSize p.length) 0) (paddedSize p.length) base64En = (do
        reportErrors ssl rounds
        return (out, outLen, none)) := by
  by_cases ctxNew : ssl.evpCipherCtxNew = false
  · refine ⟨List.replicate (paddedSize p.length) 0, paddedSize p.length, ?_⟩
    intro rounds base64En
    simp [encryptSteps, ctxNew]
  by_cases init : ssl.evpEncryptInitEx (key.take 16) = 1
  · let update := ssl.evpEncryptUpdate (key.take 16) (addPadding p)
    have refused : update.ret ≠ 1 := by simpa [OpenSSL.Fails, ctxNew, init] using fails
    have room : update.written.length ≤ (List.replicate (paddedSize p.length) (0 : UInt8)).length := by
      have size : (addPadding p).length = paddedSize p.length := addPadding_whole p
      rw [List.length_replicate, ← size]
      exact answers.room (key.take 16) (addPadding p) refused
    refine ⟨update.written ++ (List.replicate (paddedSize p.length) 0).drop update.written.length,
      update.outl.getD (paddedSize p.length), ?_⟩
    intro rounds base64En
    simp only [encryptSteps, ctxNew, cipherKey_take enough, init, ok_bind, if_false, ne_eq, not_true,
      Bool.true_eq_false]
    rw [write_start room, ok_bind, if_pos refused]
  · refine ⟨List.replicate (paddedSize p.length) 0, paddedSize p.length, ?_⟩
    intro rounds base64En
    simp [encryptSteps, ctxNew, cipherKey_take enough, init]

/-- A failure is reported, and then only the mode decides what is returned. -/
theorem encrypt_fails (answers : Answers ssl cipher) (enough : 16 ≤ key.length)
    (fits : paddedSize p.length ≤ 2147483647) (fails : ssl.Fails key p) :
    ∃ out outLen, ∀ rounds keyLen base64En,
      aesEcbPkcs5Encrypt ssl rounds p p.length key keyLen base64En = (do
        reportErrors ssl rounds
        return (if base64En then none else some out, outLen)) := by
  obtain ⟨out, outLen, steps⟩ := encryptSteps_fails answers enough fails
  refine ⟨out, outLen, ?_⟩
  intro rounds keyLen base64En
  rw [encrypt_prepares _ _ _ _ _ _ fits, steps]
  cases reportErrors ssl rounds with
  | error e => rfl
  | ok u => rfl

theorem encrypt_fits {rounds : Nat} {keyLen : Int} {base64En : Bool} {r : Option Bytes × Int}
    (returns : aesEcbPkcs5Encrypt ssl rounds p p.length key keyLen base64En = .ok r) :
    paddedSize p.length ≤ 2147483647 := by
  by_contra large
  rw [encrypt_overflows ssl rounds key keyLen base64En (by omega)] at returns
  cases returns

theorem encrypt_carries (works : EncryptsTo ssl key p c) (enough : 16 ≤ key.length) {rounds : Nat} {keyLen : Int}
    {base64En : Bool} {object : Bytes} {outLen : Int}
    (returns : aesEcbPkcs5Encrypt ssl rounds p p.length key keyLen base64En = .ok (some object, outLen)) :
    Carries c base64En object := by
  have fits := encrypt_fits returns
  cases base64En with
  | false =>
    rw [encrypt_raw_to works rounds keyLen enough fits] at returns
    cases returns
    rfl
  | true =>
    by_cases double : paddedSize p.length * 2 ≤ 2147483647
    · obtain ⟨rest, text⟩ := encrypt_text_to works rounds keyLen enough double
      rw [text] at returns
      cases returns
      exact ⟨rest, rfl⟩
    · rw [encrypt_text_overflows works rounds keyLen enough fits (by omega)] at returns
      cases returns

theorem failure_seen_iff (answers : Answers ssl cipher) (enough : 16 ≤ key.length) (keyLen : Int)
    (base64En : Bool) : FailureSeen ssl cipher p key keyLen base64En ↔
      ¬ ssl.Fails key p ∨ base64En = true ∧ ssl.errors = [] ∧ paddedSize p.length ≤ 2147483647 := by
  by_cases fails : ssl.Fails key p
  · constructor
    · rintro ⟨_, refused⟩
      obtain ⟨rounds, outLen, returns⟩ := refused fails
      have fits := encrypt_fits returns
      obtain ⟨out, size, same⟩ := encrypt_fails answers enough fits fails
      rw [same, report_then] at returns
      have empty : ssl.errors = [] := reportErrors_returns.mp ⟨rounds, returns.1⟩
      have text : base64En = true := by simpa using congrArg Prod.fst returns.2
      exact Or.inr ⟨text, empty, fits⟩
    · rintro (works | ⟨rfl, empty, fits⟩)
      · exact absurd fails works
      obtain ⟨out, size, same⟩ := encrypt_fails answers enough fits fails
      obtain ⟨rounds, reported⟩ := reportErrors_returns.mpr empty
      constructor
      · intro rounds object outLen returns
        rw [same, report_then] at returns
        cases congrArg Prod.fst returns.2
      · intro _
        refine ⟨rounds, size, ?_⟩
        rw [same, report_then]
        exact ⟨reported, rfl⟩
  · apply iff_of_true
    · constructor
      · intro rounds object outLen returns
        exact ⟨fails, encrypt_carries (encrypts_unless_fails answers fails) enough returns⟩
      · exact fun failed => absurd failed fails
    · exact Or.inl fails

end Refusals

def sampleCipher (key xs : Bytes) : Bytes := codebook (sampleAes key) xs

theorem sample_answers : Answers sampleOpenSSL sampleCipher where
  encryptUpdate key xs whole _ := (documented_encrypts sample_documented).encryptUpdate key xs whole
  cipherLength := (documented_encrypts sample_documented).cipherLength
  room _ _ failed := absurd rfl failed
  encodeBlock _ := rfl

/-- No memory for a context, which queues no error. -/
def silentOpenSSL : OpenSSL := { sampleOpenSSL with evpCipherCtxNew := false }

theorem silent_answers : Answers silentOpenSSL sampleCipher :=
  ⟨sample_answers.encryptUpdate, sample_answers.cipherLength, sample_answers.room, sample_answers.encodeBlock⟩

theorem silent_text_refused :
    FailureSeen silentOpenSSL sampleCipher sampleSerial.bytes deviceKey.toList 16 true :=
  (failure_seen_iff silent_answers (by decide) 16 true).mpr (Or.inr ⟨rfl, rfl, by decide⟩)

/-- The output buffer that no call has written comes back in place of a ciphertext. -/
theorem silent_raw_mistaken :
    aesEcbPkcs5Encrypt silentOpenSSL 1 sampleSerial.bytes sampleSerial.bytes.length deviceKey.toList 16 false =
      .ok (some (List.replicate 16 0), 16) ∧
    ¬ FailureSeen silentOpenSSL sampleCipher sampleSerial.bytes deviceKey.toList 16 false := by
  have size : (sampleSerial.bytes.length : Int) = 6 := rfl
  have returned : aesEcbPkcs5Encrypt silentOpenSSL 1 sampleSerial.bytes sampleSerial.bytes.length
      deviceKey.toList 16 false = .ok (some (List.replicate 16 0), 16) := by
    rw [size]
    rfl
  refine ⟨returned, fun seen => ?_⟩
  exact (seen.1 _ _ _ returned).1 (Or.inl rfl)

end Newplat
