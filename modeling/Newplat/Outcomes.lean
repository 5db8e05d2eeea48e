import Newplat.CipherText

/-! What becomes of the cipher functions when a call to OpenSSL fails. Every failing call
leads through the error report, and only the report can go on for ever. -/
namespace Newplat

open Base Blocks

/-- For no number of rounds the loop is followed does the computation end. -/
def Hangs {α : Type} (f : Nat → Checked α) : Prop := ∀ rounds, f rounds = .error .diverges

section Hanging

variable {α β : Type}

theorem hangs_after {c : Checked β} {f : β → Nat → Checked α} (ends : Ends c) :
    (Hangs fun rounds => c >>= fun b => f b rounds) ↔ ∃ b, c = .ok b ∧ Hangs (f b) := by
  cases c with
  | ok b => simp [Hangs]
  | error e =>
    constructor
    · intro hangs
      have here := hangs 0
      cases here
      exact absurd rfl ends
    · rintro ⟨b, returns, -⟩
      cases returns

theorem hangs_before {f : Nat → Checked β} {g : β → Checked α} (ends : ∀ b, Ends (g b)) :
    (Hangs fun rounds => f rounds >>= g) ↔ Hangs f := by
  constructor
  · intro hangs rounds
    have here := hangs rounds
    cases run : f rounds with
    | ok b =>
      simp only [run, ok_bind] at here
      exact absurd here (ends b)
    | error e =>
      simp only [run] at here
      cases here
      rfl
  · intro hangs rounds
    simp only [hangs rounds]
    rfl

end Hanging

/-! The loop of `handleOpenSSLErrors`. Its one call of `ERR_get_error` stands before it. -/

theorem logErrors_stuck {errCode : Nat} (queued : errCode ≠ 0) (rounds : Nat) (log : List Nat) :
    logErrors rounds errCode log = none := by
  induction rounds generalizing log with
  | zero => rfl
  | succ rounds ih => simp [logErrors, queued, ih]

theorem handleOpenSSLErrors_empty (rounds : Nat) : handleOpenSSLErrors (rounds + 1) [] = some ([], []) := by
  simp [handleOpenSSLErrors, errGetError, logErrors]

theorem handleOpenSSLErrors_stuck (rounds : Nat) (code : ℕ+) (rest : List ℕ+) :
    handleOpenSSLErrors rounds (code :: rest) = none := by
  simp [handleOpenSSLErrors, errGetError, logErrors_stuck code.ne_zero]

/-- The report returns, with every queued error logged in order and none left. -/
def Drains (queue : List ℕ+) : Prop :=
  ∃ rounds, handleOpenSSLErrors rounds queue = some (queue.map fun code => (code : Nat), [])

theorem drains_iff (queue : List ℕ+) : Drains queue ↔ queue = [] := by
  cases queue with
  | nil => exact iff_of_true ⟨1, handleOpenSSLErrors_empty 0⟩ rfl
  | cons code rest => simp [Drains, handleOpenSSLErrors_stuck]

theorem reportErrors_hangs (ssl : OpenSSL) : Hangs (reportErrors ssl) ↔ ssl.errors ≠ [] := by
  cases queue : ssl.errors with
  | nil =>
    refine iff_of_false ?_ (by simp)
    intro hangs
    have here := hangs 1
    simp [reportErrors, queue, handleOpenSSLErrors_empty] at here
  | cons code rest =>
    refine iff_of_true ?_ (by simp)
    intro rounds
    simp [reportErrors, queue, handleOpenSSLErrors_stuck]

theorem ends_cipherKey (key : Bytes) : Ends (cipherKey key) := ends_read key 0 16

/-- A call failed, and the report of it is reached. -/
def CallFails (out : Bytes) : Option Update → Prop
  | none => True
  | some update => update.ret ≠ 1 ∧ update.written.length ≤ out.length

section Report

variable {α : Type} {ssl : OpenSSL} {out : Bytes}

theorem report_hangs {f : Checked α} (ends : Ends f) :
    (Hangs fun rounds => reportErrors ssl rounds >>= fun _ => f) ↔ ssl.errors ≠ [] := by
  rw [hangs_before fun _ => ends, reportErrors_hangs]

theorem reportErrors_returns : (∃ rounds, reportErrors ssl rounds = .ok ()) ↔ ssl.errors = [] := by
  cases queue : ssl.errors with
  | nil => exact iff_of_true ⟨1, by simp [reportErrors, queue, handleOpenSSLErrors_empty]⟩ rfl
  | cons code rest => simp [reportErrors, queue, handleOpenSSLErrors_stuck]

theorem report_then {rounds : Nat} {a b : α} :
    (do reportErrors ssl rounds; return a : Checked α) = .ok b ↔ reportErrors ssl rounds = .ok () ∧ a = b := by
  cases reportErrors ssl rounds with
  | error e =>
    apply iff_of_false
    · intro never
      cases never
    · rintro ⟨never, -⟩
      cases never
  | ok u => simp

theorem write_fits (out src : Bytes) : (∃ out', write out 0 src = .ok out') ↔ src.length ≤ out.length := by
  by_cases fits : src.length ≤ out.length <;> simp [write, fits]

/-- After the update only its own failure can lead to the report. -/
theorem update_hangs {update : Update} {f g : Bytes → Checked α} (fails : ∀ out, Ends (f out))
    (works : ∀ out, Ends (g out)) :
    (Hangs fun rounds => do
      let out ← write out 0 update.written
      if update.ret ≠ 1 then
        reportErrors ssl rounds
        f out
      else g out) ↔ ssl.errors ≠ [] ∧ CallFails out (some update) := by
  rw [hangs_after (ends_write _ _ _)]
  by_cases worked : update.ret = 1
  · have never (out : Bytes) : ¬ Hangs fun _ : Nat => g out := fun hangs => works out (hangs 0)
    simp [CallFails, worked, never]
  · simp [CallFails, worked, report_hangs (fails _), write_fits, and_comm]

end Report

section Encryption

variable (ssl : OpenSSL) (src : Bytes) (srcLen : Int) (key inp out : Bytes) (outLen : Int) (base64En : Bool)

def encryptBuffers : Checked (Bytes × Bytes × Int) := do
  let size ← int (16 * (srcLen.tdiv 16 + 1))
  let inp ← malloc (ssl.fresh 0) size
  let inp ← memset inp 0 (UInt8.ofInt (16 - srcLen.tmod 16)) size
  let inp ← memcpy inp 0 src 0 srcLen
  let out ← malloc (ssl.fresh 1) size
  let out ← memset out 0 0 size
  return (inp, out, size)

/-- The answer of `EVP_EncryptUpdate`, or nothing when a call before it fails. -/
def encryptCalls : Checked (Option Update) :=
  if ssl.evpCipherCtxNew = false then .ok none
  else do
    let key ← cipherKey key
    if ssl.evpEncryptInitEx key ≠ 1 then return none
    else return some (ssl.evpEncryptUpdate key inp)

def encodeOut : Checked (Bytes × Int × Option Bytes) :=
  if base64En then do
    let size ← int (outLen * 2)
    let res ← malloc (ssl.fresh 2) size
    let src ← read out 0 outLen
    let res ← write res 0 (ssl.evpEncodeBlock src ++ [0])
    return (out, outLen, some res)
  else .ok (out, outLen, none)

def encryptEnd (rounds : Nat) : Option Update → Checked (Bytes × Int × Option Bytes)
  | none => do
    reportErrors ssl rounds
    return (out, outLen, none)
  | some update => do
    let out ← write out 0 update.written
    if update.ret ≠ 1 then
      reportErrors ssl rounds
      return (out, update.outl.getD outLen, none)
    else encodeOut ssl out (update.outl.getD outLen) base64En

theorem encryptSteps_eq (rounds : Nat) :
    encryptSteps ssl rounds key inp out outLen base64En =
      encryptCalls ssl key inp >>= encryptEnd ssl out outLen base64En rounds := by
  unfold encryptSteps encryptCalls
  split
  · rfl
  · cases cipherKey key with
    | error e => rfl
    | ok key =>
      simp only [ok_bind]
      split
      · rfl
      · rfl

theorem encrypt_eq (rounds : Nat) (keyLen : Int) :
    aesEcbPkcs5Encrypt ssl rounds src srcLen key keyLen base64En = (do
      let buffers ← encryptBuffers ssl src srcLen
      let update ← encryptCalls ssl key buffers.1
      let ended ← encryptEnd ssl buffers.2.1 buffers.2.2 base64En rounds update
      return (if base64En then ended.2.2 else some ended.1, ended.2.1)) := by
  simp only [aesEcbPkcs5Encrypt, encryptBuffers, encryptSteps_eq, bind_assoc, pure_bind]

theorem ends_encryptBuffers : Ends (encryptBuffers ssl src srcLen) := by
  apply ends_bind (ends_int _)
  intro size _
  apply ends_bind (ends_malloc _ _)
  intro inp _
  apply ends_bind (ends_memset _ _ _ _)
  intro inp _
  apply ends_bind (ends_memcpy _ _ _ _ _)
  intro inp _
  apply ends_bind (ends_malloc _ _)
  intro out _
  apply ends_bind (ends_memset _ _ _ _)
  intro out _
  exact ends_ok _

theorem ends_encryptCalls : Ends (encryptCalls ssl key inp) := by
  unfold encryptCalls
  split
  · exact ends_ok _
  · apply ends_bind (ends_cipherKey key)
    intro key _
    split
    · exact ends_ok _
    · exact ends_ok _

theorem ends_encodeOut : Ends (encodeOut ssl out outLen base64En) := by
  unfold encodeOut
  split
  · apply ends_bind (ends_int _)
    intro size _
    apply ends_bind (ends_malloc _ _)
    intro res _
    apply ends_bind (ends_read _ _ _)
    intro src _
    apply ends_bind (ends_write _ _ _)
    intro res _
    exact ends_ok _
  · exact ends_ok _

theorem encryptEnd_hangs (update : Option Update) :
    (Hangs fun rounds => encryptEnd ssl out outLen base64En rounds update) ↔
      ssl.errors ≠ [] ∧ CallFails out update := by
  cases update with
  | none => simp [encryptEnd, report_hangs (ends_ok _), CallFails]
  | some update => exact update_hangs (fun _ => ends_ok _) fun _ => ends_encodeOut _ _ _ _

/-- The run reaches an error exit. -/
def EncryptFails : Prop :=
  ∃ inp out size update, encryptBuffers ssl src srcLen = .ok (inp, out, size) ∧
    encryptCalls ssl key inp = .ok update ∧ CallFails out update

theorem encrypt_hangs (keyLen : Int) :
    (Hangs fun rounds => aesEcbPkcs5Encrypt ssl rounds src srcLen key keyLen base64En) ↔
      ssl.errors ≠ [] ∧ EncryptFails ssl src srcLen key := by
  have ended (out : Bytes) (outLen : Int) (update : Option Update) :
      (Hangs fun rounds => encryptEnd ssl out outLen base64En rounds update >>= fun ended =>
        pure (if base64En then ended.2.2 else some ended.1, ended.2.1)) ↔
        ssl.errors ≠ [] ∧ CallFails out update :=
    (hangs_before fun _ => ends_ok _).trans (encryptEnd_hangs ssl out outLen base64En update)
  simp only [encrypt_eq]
  rw [hangs_after (ends_encryptBuffers ssl src srcLen)]
  simp only [hangs_after (ends_encryptCalls _ _ _), ended]
  constructor
  · rintro ⟨⟨inp, out, size⟩, buffers, update, calls, queued, fails⟩
    exact ⟨queued, inp, out, size, update, buffers, calls, fails⟩
  · rintro ⟨queued, inp, out, size, update, buffers, calls, fails⟩
    exact ⟨(inp, out, size), buffers, update, calls, queued, fails⟩

end Encryption

section Decryption

variable (ssl : OpenSSL) (src : Bytes) (srcLen : Int) (key inp out : Bytes) (outLen : Int) (base64En : Bool)

/-- The answer of `EVP_DecryptUpdate`, or nothing when a call before it fails. -/
def decryptCalls : Checked (Option Update) := do
  let (inp, textlen) ← decodeSource ssl src srcLen inp base64En
  if textlen < 0 then return none
  else if ssl.evpCipherCtxNew = false then return none
  else
    let key ← cipherKey key
    if ssl.evpDecryptInitEx key ≠ 1 then return none
    else
      let input ← cipherInput src srcLen inp base64En
      return some (ssl.evpDecryptUpdate key input)

def decryptEnd (rounds : Nat) : Option Update → Checked (Bytes × Int)
  | none => do
    reportErrors ssl rounds
    return (out, outLen)
  | some update => do
    let out ← write out 0 update.written
    if update.ret ≠ 1 then
      reportErrors ssl rounds
      return (out, update.outl.getD outLen)
    else return (out, update.outl.getD outLen)

theorem decryptSteps_eq (rounds : Nat) :
    decryptSteps ssl rounds src srcLen key inp out outLen base64En =
      decryptCalls ssl src srcLen key inp base64En >>= decryptEnd ssl out outLen rounds := by
  unfold decryptSteps decryptCalls
  cases decodeSource ssl src srcLen inp base64En with
  | error e => rfl
  | ok decoded =>
    obtain ⟨inp, textlen⟩ := decoded
    simp only [ok_bind]
    split
    · rfl
    split
    · rfl
    cases cipherKey key with
    | error e => rfl
    | ok key =>
      simp only [ok_bind]
      split
      · rfl
      cases cipherInput src srcLen inp base64En with
      | error e => rfl
      | ok input => rfl

theorem ends_decodeSource : Ends (decodeSource ssl src srcLen inp base64En) := by
  unfold decodeSource
  split
  · apply ends_bind (ends_read _ _ _)
    intro text _
    apply ends_bind (ends_write _ _ _)
    intro inp _
    exact ends_ok _
  · exact ends_ok _

theorem ends_cipherInput : Ends (cipherInput src srcLen inp base64En) := by
  unfold cipherInput
  split
  · exact ends_bind (ends_int _) fun triple _ => ends_read _ _ _
  · exact ends_read _ _ _

theorem ends_decryptCalls : Ends (decryptCalls ssl src srcLen key inp base64En) := by
  apply ends_bind (ends_decodeSource _ _ _ _ _)
  rintro ⟨inp, textlen⟩ _
  dsimp only
  split
  · exact ends_ok _
  split
  · exact ends_ok _
  apply ends_bind (ends_cipherKey key)
  intro key _
  split
  · exact ends_ok _
  · exact ends_bind (ends_cipherInput _ _ _ _) fun input _ => ends_ok _

theorem ends_stripPadding : Ends (stripPadding out outLen) := by
  apply ends_bind (ends_readByte _ _)
  intro unpadding _
  exact ends_bind (ends_write _ _ _) fun out _ => ends_ok _

theorem decryptEnd_hangs (update : Option Update) :
    (Hangs fun rounds => decryptEnd ssl out outLen rounds update) ↔
      ssl.errors ≠ [] ∧ CallFails out update := by
  cases update with
  | none => simp [decryptEnd, report_hangs (ends_ok _), CallFails]
  | some update => exact update_hangs (fun _ => ends_ok _) fun _ => ends_ok _

def DecryptFails : Prop :=
  ∃ inp out update, malloc (ssl.fresh 0) srcLen = .ok inp ∧ malloc (ssl.fresh 1) srcLen = .ok out ∧
    decryptCalls ssl src srcLen key inp base64En = .ok update ∧ CallFails out update

theorem decrypt_hangs (keyLen : Int) :
    (Hangs fun rounds => aesEcbPkcs5Decrypt ssl rounds src srcLen key keyLen outLen base64En) ↔
      ssl.errors ≠ [] ∧ DecryptFails ssl src srcLen key base64En := by
  simp only [aesEcbPkcs5Decrypt, decryptSteps_eq]
  rw [hangs_after (ends_malloc _ _)]
  simp only [hangs_after (ends_malloc _ _), hangs_before fun _ => ends_stripPadding _ _,
    hangs_after (ends_decryptCalls _ _ _ _ _ _), decryptEnd_hangs]
  constructor
  · rintro ⟨inp, mallocIn, out, mallocOut, update, calls, queued, fails⟩
    exact ⟨queued, inp, out, update, mallocIn, mallocOut, calls, fails⟩
  · rintro ⟨queued, inp, out, update, mallocIn, mallocOut, calls, fails⟩
    exact ⟨inp, mallocIn, out, mallocOut, update, calls, queued, fails⟩

end Decryption

/-- The report drains exactly the empty queue; the cipher functions come back to their caller
exactly when nothing is queued or their run reaches no error exit. -/
theorem errors_end_iff (queue : List ℕ+) (ssl : OpenSSL) (src : Bytes) (srcLen : Int) (key : Bytes)
    (keyLen outLen : Int) (base64En : Bool) :
    (Drains queue ↔ queue = []) ∧
    ((¬ Hangs fun rounds => aesEcbPkcs5Encrypt ssl rounds src srcLen key keyLen base64En) ↔
      ssl.errors = [] ∨ ¬ EncryptFails ssl src srcLen key) ∧
    ((¬ Hangs fun rounds => aesEcbPkcs5Decrypt ssl rounds src srcLen key keyLen outLen base64En) ↔
      ssl.errors = [] ∨ ¬ DecryptFails ssl src srcLen key base64En) := by
  refine ⟨drains_iff queue, ?_, ?_⟩
  · rw [encrypt_hangs, not_and_or, not_not]
  · rw [decrypt_hangs, not_and_or, not_not]

/-- No memory for a context, and the one error this queues. -/
def exhaustedOpenSSL : OpenSSL := { sampleOpenSSL with
  evpCipherCtxNew := false
  errors := [65] }

theorem queued_error_hangs : ¬ Drains exhaustedOpenSSL.errors ∧
    Hangs fun rounds =>
      aesEcbPkcs5Encrypt exhaustedOpenSSL rounds sampleSerial.bytes 6 deviceKey.toList 16 true := by
  constructor
  · intro drains
    cases (drains_iff _).mp drains
  · have buffers : encryptBuffers exhaustedOpenSSL sampleSerial.bytes 6 =
        .ok (addPadding sampleSerial.bytes, List.replicate 16 0, 16) := rfl
    have stops : encryptCalls exhaustedOpenSSL deviceKey.toList (addPadding sampleSerial.bytes) = .ok none :=
      rfl
    rw [encrypt_hangs]
    exact ⟨by simp [exhaustedOpenSSL], _, _, _, none, buffers, stops, trivial⟩

end Newplat
