import Newplat.Outcomes

/-! The two index computations at the end of the decryption. They stand after every error
exit, and trust both `*outLen` and the byte it leads to. -/
namespace Newplat

open Base

/-- The answer of `EVP_DecryptUpdate` in a call of the function, or nothing when a call to
OpenSSL before it fails. -/
def decryptUpdate (ssl : OpenSSL) (src : Bytes) (srcLen : Int) (key : Bytes) (base64En : Bool) :
    Checked (Option Update) := do
  let inp ← malloc (ssl.fresh 0) srcLen
  decryptCalls ssl src srcLen key inp base64En

/-- The function returns, so both indexes are inside `out`; the pad byte is one that the
decryption wrote, and what remains is part of what it wrote. -/
def UnpadsSafely (ssl : OpenSSL) (src : Bytes) (srcLen : Nat) (key : Bytes) (keyLen outLen : Int)
    (base64En : Bool) : Prop :=
  ∃ rounds update plain, decryptUpdate ssl src srcLen key base64En = .ok (some update) ∧
    aesEcbPkcs5Decrypt ssl rounds src srcLen key keyLen outLen base64En = .ok plain ∧
    1 ≤ update.outl.getD outLen ∧ update.outl.getD outLen ≤ update.written.length ∧
    0 ≤ plain.2 ∧ plain.2 ≤ update.written.length

/-- The update put its bytes into `out`, and succeeded or failed with nothing queued. -/
def Update.Lands (ssl : OpenSSL) (srcLen : Nat) (update : Update) : Prop :=
  update.written.length ≤ srcLen ∧ (update.ret = 1 ∨ ssl.errors = [])

/-- The length it left leads to a byte it put out, which is no larger than that length, and
is zero only when `out` has room for one more. -/
def Update.Unpads (srcLen : Nat) (outLen : Int) (update : Update) : Prop :=
  ∃ n pad, update.outl.getD outLen = (n + 1 : Nat) ∧ update.written[n]? = some pad ∧
    pad.toNat ≤ n + 1 ∧ (pad = 0 → n + 1 < srcLen)

section Unpadding

variable {ssl : OpenSSL} {out : Bytes} {outLen : Int} {update : Update}

theorem decryptEnd_returns (r : Bytes × Int) :
    (∃ rounds, decryptEnd ssl out outLen rounds (some update) = .ok r) ↔
      update.Lands ssl out.length ∧ r = (splice out 0 update.written, update.outl.getD outLen) := by
  unfold Update.Lands
  by_cases fits : update.written.length ≤ out.length
  · have written : write out 0 update.written = .ok (splice out 0 update.written) :=
      write_at rfl (by omega)
    by_cases worked : update.ret = 1
    · simp [decryptEnd, written, worked, fits, eq_comm]
    · have reported (rounds : Nat) : decryptEnd ssl out outLen rounds (some update) = .ok r ↔
          reportErrors ssl rounds = .ok () ∧
            r = (splice out 0 update.written, update.outl.getD outLen) := by
        simp only [decryptEnd, written, ok_bind, if_pos worked]
        cases reportErrors ssl rounds with
        | error e => simp; intro h; cases h
        | ok u => simp [eq_comm]
      simp [reported, ← reportErrors_returns, fits, worked]
  · have missing : write out 0 update.written = .error .outOfBounds := write_outside rfl (by omega)
    simp only [decryptEnd, missing, fits, false_and, iff_false]
    rintro ⟨rounds, never⟩
    cases never

theorem readByte_written {n : Nat} {pad : UInt8} (fits : update.written.length ≤ out.length)
    (last : update.written[n]? = some pad) :
    readByte (splice out 0 update.written) ((n + 1 : Nat) - 1) = .ok pad := by
  obtain ⟨inside, same⟩ := List.getElem?_eq_some_iff.mp last
  have size : (splice out 0 update.written).length = out.length := splice_length (by omega)
  have at_n : ((n + 1 : Nat) : Int) - 1 = n := by omega
  have there : n < (splice out 0 update.written).length := by omega
  have front : (splice out 0 update.written)[n] = update.written[n] := by
    simp [splice, inside]
  rw [readByte_at at_n there, front, same]

/-- The last steps, on an `out` whose front is what the update put out. -/
theorem stripPadding_written {n : Nat} {pad : UInt8} (fits : update.written.length ≤ out.length)
    (last : update.written[n]? = some pad) :
    (∃ plain, stripPadding (splice out 0 update.written) (n + 1 : Nat) = .ok plain ∧ 0 ≤ plain.2 ∧
      plain.2 ≤ update.written.length) ↔ pad.toNat ≤ n + 1 ∧ (pad = 0 → n + 1 < out.length) := by
  obtain ⟨inside, -⟩ := List.getElem?_eq_some_iff.mp last
  have size : (splice out 0 update.written).length = out.length := splice_length (by omega)
  have nothing : pad = 0 ↔ pad.toNat = 0 := UInt8.toNat_inj.symm
  simp only [stripPadding, readByte_written fits last, ok_bind, write, List.length_singleton, size]
  constructor
  · rintro ⟨plain, returns, low, -⟩
    split at returns
    · rename_i within
      cases returns
      simp only at low
      refine ⟨by omega, ?_⟩
      intro zero
      have none := nothing.mp zero
      omega
    · cases returns
  · rintro ⟨small, room⟩
    have within : (0 : Int) ≤ (n + 1 : Nat) - pad.toNat ∧
        ((n + 1 : Nat) : Int) - pad.toNat + (1 : Nat) ≤ out.length := by
      by_cases zero : pad = 0
      · have more := room zero
        have none := nothing.mp zero
        omega
      · have some : pad.toNat ≠ 0 := fun none => zero (nothing.mpr none)
        omega
    rw [if_pos within]
    exact ⟨_, rfl, by simp only; omega, by simp only; omega⟩

theorem decrypt_update {src key : Bytes} {srcLen : Nat} {base64En : Bool}
    (calls : decryptUpdate ssl src srcLen key base64En = .ok (some update)) (rounds : Nat) (keyLen : Int) :
    aesEcbPkcs5Decrypt ssl rounds src srcLen key keyLen outLen base64En = (do
      let out ← malloc (ssl.fresh 1) srcLen
      let r ← decryptEnd ssl out outLen rounds (some update)
      stripPadding r.1 r.2) := by
  obtain ⟨inp, mallocIn, -⟩ := malloc_ok (ssl.fresh 0) (rfl : (srcLen : Int) = _)
  rw [decryptUpdate, mallocIn, ok_bind] at calls
  simp only [aesEcbPkcs5Decrypt, mallocIn, ok_bind, decryptSteps_eq, calls]

end Unpadding

/-- The unpadding is safe exactly when the calls of the decryption succeed, with at least one
byte put out, and the last one is no larger than their number; and no zero when `out` is full. -/
theorem unpadsSafely_iff (ssl : OpenSSL) (src : Bytes) (srcLen : Nat) (key : Bytes) (keyLen outLen : Int)
    (base64En : Bool) :
    UnpadsSafely ssl src srcLen key keyLen outLen base64En ↔
      ∃ update, decryptUpdate ssl src srcLen key base64En = .ok (some update) ∧
        update.Lands ssl srcLen ∧ update.Unpads srcLen outLen := by
  obtain ⟨out, mallocOut, size⟩ := malloc_ok (ssl.fresh 1) (rfl : (srcLen : Int) = _)
  constructor
  · rintro ⟨rounds, update, plain, calls, returns, first, last, low, high⟩
    refine ⟨update, calls, ?_⟩
    simp only [decrypt_update calls, mallocOut, ok_bind] at returns
    cases ends : decryptEnd ssl out outLen rounds (some update) with
    | error e =>
      rw [ends] at returns
      cases returns
    | ok r =>
      obtain ⟨lands, rfl⟩ := (decryptEnd_returns r).mp ⟨rounds, ends⟩
      obtain ⟨n, length⟩ : ∃ n : Nat, update.outl.getD outLen = (n + 1 : Nat) :=
        ⟨(update.outl.getD outLen).toNat - 1, by omega⟩
      have inside : n < update.written.length := by omega
      have pad := List.getElem?_eq_getElem inside
      simp only [ends, ok_bind, length] at returns
      have stripped := (stripPadding_written lands.1 pad).mp ⟨plain, returns, low, high⟩
      rw [size] at lands stripped
      exact ⟨lands, n, _, length, pad, stripped⟩
  · rintro ⟨update, calls, lands, n, pad, length, last, stripped⟩
    obtain ⟨inside, -⟩ := List.getElem?_eq_some_iff.mp last
    rw [← size] at lands stripped
    obtain ⟨rounds, ends⟩ : ∃ rounds, decryptEnd ssl out outLen rounds (some update) =
        .ok (splice out 0 update.written, update.outl.getD outLen) :=
      (decryptEnd_returns _).mpr ⟨lands, rfl⟩
    obtain ⟨plain, returns, low, high⟩ := (stripPadding_written lands.1 last).mpr stripped
    refine ⟨rounds, update, plain, calls, ?_, by omega, by omega, low, high⟩
    simp only [decrypt_update calls, mallocOut, ok_bind, ends, length, returns]

/-- Text that is no base64, received with `*outLen` still 0. -/
def garbledText : Bytes := CString.ascii "????"

theorem garbled_text_unsafe : ¬ UnpadsSafely sampleOpenSSL garbledText 4 deviceKey.toList 16 0 true := by
  intro safe
  obtain ⟨update, calls, -⟩ := (unpadsSafely_iff _ _ _ _ _ _ _).mp safe
  have stops : decryptUpdate sampleOpenSSL garbledText 4 deviceKey.toList true = .ok none := rfl
  have same := calls.symm.trans stops
  cases same

end Newplat
