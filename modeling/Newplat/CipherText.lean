import Newplat.Base.Base64
import Newplat.Base.Blocks
import Newplat.Encrypt

/-! What the cipher functions compute when OpenSSL behaves as documented. The sender's
side is exact at every length; the two receivers below differ in what they recover. -/
namespace Newplat

open Base Blocks

abbrev AesBlock := Vector UInt8 16

/-- Bytes `EVP_DecryptUpdate` puts out for a total input of `n`: every complete block, but
the last one is held back when nothing follows it. -/
def released (n : Nat) : Nat := if n % 16 = 0 then n - 16 else 16 * (n / 16)

/-- Every call succeeds. AES-128 under a key permutes the blocks, and text is base64. -/
structure Documented (ssl : OpenSSL) (aes : Bytes → Equiv.Perm AesBlock) : Prop where
  ctxNew : ssl.evpCipherCtxNew = true
  encryptInit : ∀ key, ssl.evpEncryptInitEx key = 1
  encryptUpdate : ∀ key xs, 16 ∣ xs.length →
    ssl.evpEncryptUpdate key xs = ⟨1, codebook (aes key) xs, some xs.length⟩
  decryptInit : ∀ key, ssl.evpDecryptInitEx key = 1
  decryptUpdate : ∀ key xs, ssl.evpDecryptUpdate key xs =
    ⟨1, codebook (aes key).symm (xs.take (released xs.length)), some (released xs.length)⟩
  encodeBlock : ∀ xs, ssl.evpEncodeBlock xs = Base64.encode xs
  decodeBlock : ∀ text xs, Base64.decodeBlock text = some xs →
    ssl.evpDecodeBlock text = ((xs.length : Int), xs)

/-- A library that behaves as documented over a given block permutation. -/
def documentedOpenSSL (aes : Bytes → Equiv.Perm AesBlock) : OpenSSL where
  fresh _ _ := 0
  evpCipherCtxNew := true
  evpEncryptInitEx _ := 1
  evpEncryptUpdate key xs := ⟨1, codebook (aes key) xs, some (16 * (xs.length / 16) : Nat)⟩
  evpDecryptInitEx _ := 1
  evpDecryptUpdate key xs :=
    ⟨1, codebook (aes key).symm (xs.take (released xs.length)), some (released xs.length)⟩
  evpEncodeBlock := Base64.encode
  evpDecodeBlock text :=
    match Base64.decodeBlock text with
    | some xs => (xs.length, xs)
    | none => (-1, [])
  errors := []

theorem documentedOpenSSL_documented (aes : Bytes → Equiv.Perm AesBlock) :
    Documented (documentedOpenSSL aes) aes where
  ctxNew := rfl
  encryptInit _ := rfl
  encryptUpdate key xs whole := by
    have size : 16 * (xs.length / 16) = xs.length := Nat.mul_div_cancel' whole
    simp only [documentedOpenSSL, size]
  decryptInit _ := rfl
  decryptUpdate _ _ := rfl
  encodeBlock _ := rfl
  decodeBlock text xs h := by simp only [documentedOpenSSL, h]

def deviceKey : Vector UInt8 16 := ⟨(CString.ascii "hb0iojui87890oi9").toArray, by decide⟩

/-- A serial number, and AES-128 under the device key on the blocks the examples use. -/
def sampleSerial : CString := CString.lit "d72e64"

def sampleAes (key : Bytes) : Equiv.Perm AesBlock :=
  if key = deviceKey.toList then
    Equiv.swap (Vector.replicate 16 65)
      #v[215, 119, 202, 46, 192, 83, 136, 239, 124, 93, 54, 1, 210, 146, 132, 159] *
    Equiv.swap (Vector.replicate 16 16)
      #v[208, 197, 61, 28, 52, 104, 114, 181, 252, 26, 29, 22, 101, 133, 152, 34] *
    Equiv.swap #v[100, 55, 50, 101, 54, 52, 10, 10, 10, 10, 10, 10, 10, 10, 10, 10]
      #v[115, 168, 255, 171, 110, 200, 171, 144, 228, 183, 25, 136, 183, 115, 233, 161]
  else 1

abbrev sampleOpenSSL : OpenSSL := documentedOpenSSL sampleAes

theorem sample_documented : Documented sampleOpenSSL sampleAes := documentedOpenSSL_documented sampleAes

def paddedSize (n : Nat) : Nat := 16 * (n / 16 + 1)

def cipherText (aes : Bytes → Equiv.Perm AesBlock) (key p : Bytes) : Bytes :=
  codebook (aes key) (addPadding p)

theorem addPadding_whole (p : Bytes) : (addPadding p).length = 16 * (p.length / 16 + 1) :=
  addPadding_length p

theorem cipherText_length (aes : Bytes → Equiv.Perm AesBlock) (key p : Bytes) :
    (cipherText aes key p).length = paddedSize p.length :=
  codebook_length (by decide) (addPadding_whole p)

theorem padding_byte (n : Nat) :
    UInt8.ofInt (16 - (n : Int).tmod 16) = UInt8.ofNat (padLength n) := by
  have value : ((16 - (n : Int).tmod 16) % 2 ^ 8).toNat = padLength n := by
    rw [Int.tmod_eq_emod_of_nonneg (by omega), padLength]
    omega
  rw [UInt8.ofInt, value]

/-- The hand padding: fill the buffer with the pad byte, then overwrite its front. -/
theorem padding_filled (p : Bytes) :
    p ++ (List.replicate (paddedSize p.length) (UInt8.ofNat (padLength p.length))).drop p.length =
      addPadding p := by
  have rest : paddedSize p.length - p.length = padLength p.length := by
    unfold paddedSize padLength
    omega
  rw [List.drop_replicate, rest, addPadding]

theorem blocks_size (n : Nat) : 16 * ((n : Int).tdiv 16 + 1) = (paddedSize n : Nat) := by
  rw [Int.tdiv_eq_ediv_of_nonneg (by omega), paddedSize]
  omega

theorem encrypt_prepares (ssl : OpenSSL) (rounds : Nat) (p key : Bytes) (keyLen : Int)
    (base64En : Bool) (fits : paddedSize p.length ≤ 2147483647) :
    aesEcbPkcs5Encrypt ssl rounds p p.length key keyLen base64En = (do
      let (out, outLen, res) ← encryptSteps ssl rounds key (addPadding p)
        (List.replicate (paddedSize p.length) 0) (paddedSize p.length) base64En
      return (if base64En then res else some out, outLen)) := by
  have small : int (paddedSize p.length : Nat) = .ok (paddedSize p.length : Nat) :=
    int_ok (by omega) (by omega)
  obtain ⟨inp, mallocIn, lenIn⟩ := malloc_ok (ssl.fresh 0) (rfl : ((paddedSize p.length : Nat) : Int) = _)
  obtain ⟨out, mallocOut, lenOut⟩ := malloc_ok (ssl.fresh 1)
    (rfl : ((paddedSize p.length : Nat) : Int) = _)
  have within : p.length ≤ (List.replicate (paddedSize p.length)
      (UInt8.ofNat (padLength p.length))).length := by
    rw [List.length_replicate, paddedSize]
    omega
  simp only [aesEcbPkcs5Encrypt, blocks_size, padding_byte, small, ok_bind, mallocIn, mallocOut,
    memset_whole _ lenIn rfl, memset_whole _ lenOut rfl, memcpy_start rfl within, padding_filled]

theorem encrypt_overflows (ssl : OpenSSL) (rounds : Nat) {p : Bytes} (key : Bytes) (keyLen : Int)
    (base64En : Bool) (large : 2147483647 < paddedSize p.length) :
    aesEcbPkcs5Encrypt ssl rounds p p.length key keyLen base64En = .error .overflow := by
  have overflow : int (paddedSize p.length : Nat) = .error .overflow := if_neg (by omega)
  simp only [aesEcbPkcs5Encrypt, blocks_size, overflow]
  rfl

theorem encrypt_front (ssl : OpenSSL) (rounds : Nat) (p rest key : Bytes) (keyLen : Int)
    (base64En : Bool) :
    aesEcbPkcs5Encrypt ssl rounds (p ++ rest) p.length key keyLen base64En =
      aesEcbPkcs5Encrypt ssl rounds p p.length key keyLen base64En := by
  have same (inp : Bytes) : memcpy inp 0 (p ++ rest) 0 p.length = memcpy inp 0 p 0 p.length := by
    rw [memcpy, memcpy, read_start rfl (by rw [List.length_append]; omega), read_start rfl le_rfl,
      List.take_left, List.take_length]
  simp only [aesEcbPkcs5Encrypt, same]

/-- The sender's calls succeed: whole blocks are encrypted to as many bytes, and the text
of a ciphertext is its base64. -/
structure Encrypts (ssl : OpenSSL) (cipher : Bytes → Bytes → Bytes) : Prop where
  ctxNew : ssl.evpCipherCtxNew = true
  encryptInit : ∀ key, ssl.evpEncryptInitEx key = 1
  encryptUpdate : ∀ key xs, 16 ∣ xs.length →
    ssl.evpEncryptUpdate key xs = ⟨1, cipher key xs, some xs.length⟩
  cipherLength : ∀ key xs, 16 ∣ xs.length → (cipher key xs).length = xs.length
  encodeBlock : ∀ xs, ssl.evpEncodeBlock xs = Base64.encode xs

theorem documented_encrypts {ssl : OpenSSL} {aes : Bytes → Equiv.Perm AesBlock}
    (doc : Documented ssl aes) :
    Encrypts ssl fun key xs => codebook (aes key) xs where
  ctxNew := doc.ctxNew
  encryptInit := doc.encryptInit
  encryptUpdate := doc.encryptUpdate
  cipherLength key xs whole := by
    obtain ⟨n, size⟩ := whole
    rw [codebook_length (by decide) size, size]
  encodeBlock := doc.encodeBlock

/-- The calls for one plaintext succeed, and give the ciphertext `c`. -/
structure EncryptsTo (ssl : OpenSSL) (key p c : Bytes) : Prop where
  ctxNew : ssl.evpCipherCtxNew = true
  encryptInit : ssl.evpEncryptInitEx (key.take 16) = 1
  encryptUpdate : ssl.evpEncryptUpdate (key.take 16) (addPadding p) = ⟨1, c, some (paddedSize p.length : Nat)⟩
  length : c.length = paddedSize p.length
  encodeBlock : ssl.evpEncodeBlock c = Base64.encode c

section Sender

variable {ssl : OpenSSL} {cipher : Bytes → Bytes → Bytes} {key p c : Bytes}

theorem cipherKey_take (enough : 16 ≤ key.length) : cipherKey key = .ok (key.take 16) :=
  read_start rfl enough

theorem encrypts_to (works : Encrypts ssl cipher) (key p : Bytes) :
    EncryptsTo ssl key p (cipher (key.take 16) (addPadding p)) where
  ctxNew := works.ctxNew
  encryptInit := works.encryptInit _
  encryptUpdate := by
    rw [works.encryptUpdate _ _ ⟨_, addPadding_whole p⟩, addPadding_whole p, paddedSize]
  length := (works.cipherLength _ _ ⟨_, addPadding_whole p⟩).trans (addPadding_whole p)
  encodeBlock := works.encodeBlock _

theorem encryptSteps_encrypts (works : EncryptsTo ssl key p c) (rounds : Nat) (enough : 16 ≤ key.length)
    (base64En : Bool) :
    encryptSteps ssl rounds key (addPadding p) (List.replicate (paddedSize p.length) 0)
        (paddedSize p.length) base64En = (do
      if base64En then
        let size ← int (paddedSize p.length * 2)
        let res ← malloc (ssl.fresh 2) size
        let src ← read c 0 (paddedSize p.length)
        let res ← write res 0 (ssl.evpEncodeBlock src ++ [0])
        return (c, paddedSize p.length, some res)
      else
        return (c, paddedSize p.length, none)) := by
  have written : write (List.replicate (paddedSize p.length) 0) 0 c = .ok c := by
    rw [write_start (by rw [List.length_replicate, works.length]), works.length]
    simp
  simp [encryptSteps, works.ctxNew, cipherKey_take enough, works.encryptInit, works.encryptUpdate, written]

/-- The text of whole blocks and its terminator fit twice their size. -/
theorem text_room {n : Nat} (size : c.length = paddedSize n) :
    (Base64.encode c ++ [0]).length ≤ paddedSize n * 2 := by
  have block : 16 ≤ paddedSize n := by
    unfold paddedSize
    omega
  rw [List.length_append, Base64.encode_length, size, List.length_singleton]
  omega

/-- The object behind the returned pointer: the text, its terminator, and unused room. -/
theorem encrypt_text_to (works : EncryptsTo ssl key p c) (rounds : Nat) (keyLen : Int)
    (enough : 16 ≤ key.length) (fits : paddedSize p.length * 2 ≤ 2147483647) :
    ∃ rest, aesEcbPkcs5Encrypt ssl rounds p p.length key keyLen true =
      .ok (some ((Base64.text c).bytes ++ 0 :: rest), paddedSize p.length) := by
  have small : int ((paddedSize p.length : Nat) * 2) = .ok ((paddedSize p.length * 2 : Nat) : Int) := by
    rw [int_ok (by omega) (by omega)]
    push_cast
    rfl
  obtain ⟨res, mallocRes, lenRes⟩ :=
    malloc_ok (ssl.fresh 2) (rfl : ((paddedSize p.length * 2 : Nat) : Int) = _)
  have source : read c 0 (paddedSize p.length) = .ok c := by
    rw [read_start rfl (Nat.le_of_eq works.length.symm), ← works.length, List.take_length]
  have room : (Base64.encode c ++ [0]).length ≤ res.length := by
    rw [lenRes]
    exact text_room works.length
  refine ⟨res.drop (Base64.encode c ++ [0]).length, ?_⟩
  rw [encrypt_prepares _ _ _ _ _ _ (by omega), encryptSteps_encrypts works rounds enough]
  simp only [small, ok_bind, mallocRes, source, works.encodeBlock, write_start room]
  simp [Base64.text]

theorem encrypt_text_overflows (works : EncryptsTo ssl key p c) (rounds : Nat) (keyLen : Int)
    (enough : 16 ≤ key.length) (fits : paddedSize p.length ≤ 2147483647)
    (large : 2147483647 < paddedSize p.length * 2) :
    aesEcbPkcs5Encrypt ssl rounds p p.length key keyLen true = .error .overflow := by
  have overflow : int ((paddedSize p.length : Nat) * 2) = .error .overflow := if_neg (by omega)
  rw [encrypt_prepares _ _ _ _ _ _ fits, encryptSteps_encrypts works rounds enough]
  simp only [if_true, overflow]
  rfl

theorem encrypt_raw_to (works : EncryptsTo ssl key p c) (rounds : Nat) (keyLen : Int)
    (enough : 16 ≤ key.length) (fits : paddedSize p.length ≤ 2147483647) :
    aesEcbPkcs5Encrypt ssl rounds p p.length key keyLen false = .ok (some c, paddedSize p.length) := by
  rw [encrypt_prepares _ _ _ _ _ _ fits, encryptSteps_encrypts works rounds enough]
  rfl

theorem encrypt_sealed (works : Encrypts ssl cipher) (rounds : Nat) (p : Bytes) (keyLen : Int)
    (enough : 16 ≤ key.length) (fits : paddedSize p.length * 2 ≤ 2147483647) :
    ∃ rest, aesEcbPkcs5Encrypt ssl rounds p p.length key keyLen true =
      .ok (some ((Base64.text (cipher (key.take 16) (addPadding p))).bytes ++ 0 :: rest),
        paddedSize p.length) :=
  encrypt_text_to (encrypts_to works key p) rounds keyLen enough fits

variable {aes : Bytes → Equiv.Perm AesBlock}

theorem encrypt_raw (doc : Documented ssl aes) (rounds : Nat) (p : Bytes) (keyLen : Int)
    (enough : 16 ≤ key.length) (fits : paddedSize p.length ≤ 2147483647) :
    aesEcbPkcs5Encrypt ssl rounds p p.length key keyLen false =
      .ok (some (cipherText aes (key.take 16) p), paddedSize p.length) :=
  encrypt_raw_to (encrypts_to (documented_encrypts doc) key p) rounds keyLen enough fits

theorem encrypt_text (doc : Documented ssl aes) (rounds : Nat) (p : Bytes) (keyLen : Int)
    (enough : 16 ≤ key.length) (fits : paddedSize p.length * 2 ≤ 2147483647) :
    ∃ rest, aesEcbPkcs5Encrypt ssl rounds p p.length key keyLen true =
      .ok (some ((Base64.text (cipherText aes (key.take 16) p)).bytes ++ 0 :: rest),
        paddedSize p.length) :=
  encrypt_sealed (documented_encrypts doc) rounds p keyLen enough fits

end Sender

end Newplat
