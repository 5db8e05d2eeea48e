import Newplat.Base.ByteOrder
import Newplat.Base.Fields

/-! The pack and unpack functions of utils.c. A pointer is a buffer and an offset; each
function answers what it wrote or read and its return value. -/
namespace Newplat

open Base

/-- `*((T *)p) = conv(val); return sizeof(T);` on a host with the given byte order. -/
def packWord (host : ByteOrder) {n : Nat} (conv : Word n → Word n) (mem : Bytes) (p : Nat)
    (val : Word n) : Checked (Bytes × Nat) := do
  let mem ← write mem p (storeWord host (conv val))
  return (mem, n)

/-- `*val = conv(*((T *)p)); return sizeof(T);` -/
def unpackWord (host : ByteOrder) (n : Nat) (conv : Word n → Word n) (mem : Bytes) (p : Nat) :
    Checked (Word n × Nat) := do
  let bytes ← read mem p n
  return (conv (loadWord host n bytes), n)

/-! The branch compiled where `__BYTE_ORDER` is not `__BIG_ENDIAN`. -/
namespace LittleHost

def packBe64 (mem : Bytes) (p : Nat) (val : Word 8) := packWord .little bswap mem p val
def unpackBe64 (mem : Bytes) (p : Nat) := unpackWord .little 8 bswap mem p
def packBe32 (mem : Bytes) (p : Nat) (val : Word 4) := packWord .little bswap mem p val
def unpackBe32 (mem : Bytes) (p : Nat) := unpackWord .little 4 bswap mem p
def packBe16 (mem : Bytes) (p : Nat) (val : Word 2) := packWord .little bswap mem p val
def unpackBe16 (mem : Bytes) (p : Nat) := unpackWord .little 2 bswap mem p
def packLe64 (mem : Bytes) (p : Nat) (val : Word 8) := packWord .little id mem p val
def unpackLe64 (mem : Bytes) (p : Nat) := unpackWord .little 8 id mem p
def packLe32 (mem : Bytes) (p : Nat) (val : Word 4) := packWord .little id mem p val
def unpackLe32 (mem : Bytes) (p : Nat) := unpackWord .little 4 id mem p
def packLe16 (mem : Bytes) (p : Nat) (val : Word 2) := packWord .little id mem p val
def unpackLe16 (mem : Bytes) (p : Nat) := unpackWord .little 2 id mem p

end LittleHost

/-! The branch compiled where `__BYTE_ORDER` is `__BIG_ENDIAN`. -/
namespace BigHost

def packBe64 (mem : Bytes) (p : Nat) (val : Word 8) := packWord .big id mem p val
def unpackBe64 (mem : Bytes) (p : Nat) := unpackWord .big 8 id mem p
def packBe32 (mem : Bytes) (p : Nat) (val : Word 4) := packWord .big id mem p val
def unpackBe32 (mem : Bytes) (p : Nat) := unpackWord .big 4 id mem p
def packBe16 (mem : Bytes) (p : Nat) (val : Word 2) := packWord .big id mem p val
def unpackBe16 (mem : Bytes) (p : Nat) := unpackWord .big 2 id mem p
def packLe64 (mem : Bytes) (p : Nat) (val : Word 8) := packWord .big bswap mem p val
def unpackLe64 (mem : Bytes) (p : Nat) := unpackWord .big 8 bswap mem p
def packLe32 (mem : Bytes) (p : Nat) (val : Word 4) := packWord .big bswap mem p val
def unpackLe32 (mem : Bytes) (p : Nat) := unpackWord .big 4 bswap mem p
def packLe16 (mem : Bytes) (p : Nat) (val : Word 2) := packWord .big bswap mem p val
def unpackLe16 (mem : Bytes) (p : Nat) := unpackWord .big 2 bswap mem p

end BigHost

def packU8 (mem : Bytes) (p : Nat) (val : UInt8) : Checked (Bytes × Nat) := do
  let mem ← write mem p [val]
  return (mem, 1)

def unpackU8 (mem : Bytes) (p : Nat) : Checked (UInt8 × Nat) := do
  let val ← readByte mem p
  return (val, 1)

def packStr (mem : Bytes) (p : Nat) (str : Bytes) (len : Nat) : Checked (Bytes × Nat) := do
  let mem ← memset mem p 0 len
  let mem ← memcpy mem p str 0 len
  return (mem, len)

/-- The bytes land in `str`, whose contents before the call are given. -/
def unpackStr (mem : Bytes) (p : Nat) (str : Bytes) (len : Nat) : Checked (Bytes × Nat) := do
  let str ← memset str 0 0 len
  let str ← memcpy str 0 mem p len
  return (str, len)

inductive Field where
  | u8 (val : UInt8)
  | be16 (val : Word 2)
  | be32 (val : Word 4)
  | be64 (val : Word 8)
  | le16 (val : Word 2)
  | le32 (val : Word 4)
  | le64 (val : Word 8)
  | str (bytes : Bytes)

inductive Shape where
  | u8
  | be16
  | be32
  | be64
  | le16
  | le32
  | le64
  | str (len : Nat)

/-- One pack call on a little-endian host; a string comes in a buffer of its length. -/
def packField (mem : Bytes) (p : Nat) : Field → Checked (Bytes × Nat)
  | .u8 val => packU8 mem p val
  | .be16 val => LittleHost.packBe16 mem p val
  | .be32 val => LittleHost.packBe32 mem p val
  | .be64 val => LittleHost.packBe64 mem p val
  | .le16 val => LittleHost.packLe16 mem p val
  | .le32 val => LittleHost.packLe32 mem p val
  | .le64 val => LittleHost.packLe64 mem p val
  | .str bytes => packStr mem p bytes bytes.length

/-- One unpack call; `stale` fills the buffer a string is read into. -/
def unpackField (stale : Nat → UInt8) (mem : Bytes) (p : Nat) : Shape → Checked (Field × Nat)
  | .u8 => do let (val, n) ← unpackU8 mem p; return (.u8 val, n)
  | .be16 => do let (val, n) ← LittleHost.unpackBe16 mem p; return (.be16 val, n)
  | .be32 => do let (val, n) ← LittleHost.unpackBe32 mem p; return (.be32 val, n)
  | .be64 => do let (val, n) ← LittleHost.unpackBe64 mem p; return (.be64 val, n)
  | .le16 => do let (val, n) ← LittleHost.unpackLe16 mem p; return (.le16 val, n)
  | .le32 => do let (val, n) ← LittleHost.unpackLe32 mem p; return (.le32 val, n)
  | .le64 => do let (val, n) ← LittleHost.unpackLe64 mem p; return (.le64 val, n)
  | .str len => do
    let (bytes, n) ← unpackStr mem p ((List.range len).map stale) len
    return (.str bytes, n)

def packAll (mem : Bytes) (p : Nat) : List Field → Checked (Bytes × Nat)
  | [] => .ok (mem, p)
  | f :: fs => do
    let (mem, n) ← packField mem p f
    packAll mem (p + n) fs

def unpackAll (stale : Nat → UInt8) (mem : Bytes) (p : Nat) : List Shape → Checked (List Field × Nat)
  | [] => .ok ([], p)
  | s :: ss => do
    let (f, n) ← unpackField stale mem p s
    let (fs, p) ← unpackAll stale mem (p + n) ss
    return (f :: fs, p)

end Newplat
