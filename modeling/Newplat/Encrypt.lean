import Newplat.Base.Memory

/-! The cipher functions of encrypt.c. OpenSSL is a parameter: what each call answers,
what it writes, and what the error queue holds when a call has failed. A size computed
in `int` that leaves its range ends the run, as does an access outside an object. -/
namespace Newplat

open Base

/-- One `EVP_*Update` call: its return value, the bytes it puts at the start of the
output buffer, and the length it stores, when it stores one. -/
structure Update where
  ret : Int
  written : Bytes
  outl : Option Int

structure OpenSSL where
  fresh : Nat → Nat → UInt8
  evpCipherCtxNew : Bool
  evpEncryptInitEx : Bytes → Int
  evpEncryptUpdate : Bytes → Bytes → Update
  evpDecryptInitEx : Bytes → Int
  evpDecryptUpdate : Bytes → Bytes → Update
  evpEncodeBlock : Bytes → Bytes
  evpDecodeBlock : Bytes → Int × Bytes
  errors : List ℕ+

def errGetError : List ℕ+ → Nat × List ℕ+
  | [] => (0, [])
  | code :: rest => (code, rest)

/-- The `while(errCode)` loop for a number of rounds. Its body does not assign `errCode`. -/
def logErrors : Nat → Nat → List Nat → Option (List Nat)
  | 0, _, _ => none
  | rounds + 1, errCode, log =>
    if errCode = 0 then some log else logErrors rounds errCode (log ++ [errCode])

def handleOpenSSLErrors (rounds : Nat) (queue : List ℕ+) : Option (List Nat × List ℕ+) := do
  let (errCode, rest) := errGetError queue
  let log ← logErrors rounds errCode []
  some (log, rest)

def reportErrors (ssl : OpenSSL) (rounds : Nat) : Checked Unit :=
  match handleOpenSSLErrors rounds ssl.errors with
  | some _ => .ok ()
  | none => .error .diverges

/-- The bytes `EVP_aes_128_ecb` reads through the key pointer, whatever `keyLen` is. -/
def cipherKey (key : Bytes) : Checked Bytes := read key 0 16

/-- The `do { } while(0)` of the encryption: `out`, `*outLen` and `res` after it. A failing
step leaves through `break` with `res` still NULL. -/
def encryptSteps (ssl : OpenSSL) (rounds : Nat) (key inp out : Bytes) (outLen : Int)
    (base64En : Bool) : Checked (Bytes × Int × Option Bytes) :=
  if ssl.evpCipherCtxNew = false then do
    reportErrors ssl rounds
    return (out, outLen, none)
  else do
    let key ← cipherKey key
    if ssl.evpEncryptInitEx key ≠ 1 then
      reportErrors ssl rounds
      return (out, outLen, none)
    else
      let update := ssl.evpEncryptUpdate key inp
      let out ← write out 0 update.written
      let outLen := update.outl.getD outLen
      if update.ret ≠ 1 then
        reportErrors ssl rounds
        return (out, outLen, none)
      else if base64En then
        let size ← int (outLen * 2)
        let res ← malloc (ssl.fresh 2) size
        let src ← read out 0 outLen
        let res ← write res 0 (ssl.evpEncodeBlock src ++ [0])
        return (out, outLen, some res)
      else
        return (out, outLen, none)

/-- The returned pointer (`none` is NULL) with the object behind it, and `*outLen`. -/
def aesEcbPkcs5Encrypt (ssl : OpenSSL) (rounds : Nat) (src : Bytes) (srcLen : Int) (key : Bytes)
    (_keyLen : Int) (base64En : Bool) : Checked (Option Bytes × Int) := do
  let quotient := srcLen.tdiv 16
  let mod := srcLen.tmod 16
  let blockCount := quotient + 1
  let padding := 16 - mod
  let size ← int (16 * blockCount)
  let inp ← malloc (ssl.fresh 0) size
  let inp ← memset inp 0 (UInt8.ofInt padding) size
  let inp ← memcpy inp 0 src 0 srcLen
  let out ← malloc (ssl.fresh 1) size
  let out ← memset out 0 0 size
  let (out, outLen, res) ← encryptSteps ssl rounds key inp out size base64En
  return (if base64En then res else some out, outLen)

/-- `EVP_DecodeBlock` into `in`, when the source is text: `in` and the call's answer. -/
def decodeSource (ssl : OpenSSL) (src : Bytes) (srcLen : Int) (inp : Bytes) (base64En : Bool) :
    Checked (Bytes × Int) :=
  if base64En then do
    let text ← read src 0 srcLen
    let (textlen, bytes) := ssl.evpDecodeBlock text
    let inp ← write inp 0 bytes
    return (inp, textlen)
  else .ok (inp, 0)

/-- What `EVP_DecryptUpdate` is given: `srcLen*3/4` decoded bytes, or the source itself. -/
def cipherInput (src : Bytes) (srcLen : Int) (inp : Bytes) (base64En : Bool) : Checked Bytes :=
  if base64En then do
    let triple ← int (srcLen * 3)
    read inp 0 (triple.tdiv 4)
  else read src 0 srcLen

/-- The `do { } while(0)` of the decryption: `out` and `*outLen` after it. -/
def decryptSteps (ssl : OpenSSL) (rounds : Nat) (src : Bytes) (srcLen : Int) (key inp out : Bytes)
    (outLen : Int) (base64En : Bool) : Checked (Bytes × Int) := do
  let (inp, textlen) ← decodeSource ssl src srcLen inp base64En
  if textlen < 0 then
    reportErrors ssl rounds
    return (out, outLen)
  else if ssl.evpCipherCtxNew = false then
    reportErrors ssl rounds
    return (out, outLen)
  else
    let key ← cipherKey key
    if ssl.evpDecryptInitEx key ≠ 1 then
      reportErrors ssl rounds
      return (out, outLen)
    else
      let input ← cipherInput src srcLen inp base64En
      let update := ssl.evpDecryptUpdate key input
      let out ← write out 0 update.written
      let outLen := update.outl.getD outLen
      if update.ret ≠ 1 then
        reportErrors ssl rounds
        return (out, outLen)
      else
        return (out, outLen)

/-- PKCS5 UNPADDING: the last byte is trusted as the padding length. -/
def stripPadding (out : Bytes) (outLen : Int) : Checked (Bytes × Int) := do
  let unpadding ← readByte out (outLen - 1)
  let outLen := outLen - unpadding.toNat
  let out ← write out outLen [0]
  return (out, outLen)

/-- The returned buffer and `*outLen`, which holds `outLen` before the call. -/
def aesEcbPkcs5Decrypt (ssl : OpenSSL) (rounds : Nat) (src : Bytes) (srcLen : Int) (key : Bytes)
    (_keyLen outLen : Int) (base64En : Bool) : Checked (Bytes × Int) := do
  let inp ← malloc (ssl.fresh 0) srcLen
  let out ← malloc (ssl.fresh 1) srcLen
  let (out, outLen) ← decryptSteps ssl rounds src srcLen key inp out outLen base64En
  stripPadding out outLen

end Newplat
