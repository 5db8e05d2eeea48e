import Newplat.Pack

/-! The wire format behind the pack functions, and that the walks over memory are it. -/
namespace Newplat

open Base

def Field.shape : Field → Shape
  | .u8 _ => .u8
  | .be16 _ => .be16
  | .be32 _ => .be32
  | .be64 _ => .be64
  | .le16 _ => .le16
  | .le32 _ => .le32
  | .le64 _ => .le64
  | .str bytes => .str bytes.length

def Shape.size : Shape → Nat
  | .u8 => 1
  | .be16 => 2
  | .be32 => 4
  | .be64 => 8
  | .le16 => 2
  | .le32 => 4
  | .le64 => 8
  | .str len => len

/-- The bytes a field means on the wire, whatever host packs it. -/
def Field.wire : Field → Bytes
  | .u8 val => [val]
  | .be16 val => storeWord .big val
  | .be32 val => storeWord .big val
  | .be64 val => storeWord .big val
  | .le16 val => storeWord .little val
  | .le32 val => storeWord .little val
  | .le64 val => storeWord .little val
  | .str bytes => bytes

def Shape.parse (bs : Bytes) : Shape → Field
  | .u8 => .u8 (bs.headD 0)
  | .be16 => .be16 (loadWord .big 2 bs)
  | .be32 => .be32 (loadWord .big 4 bs)
  | .be64 => .be64 (loadWord .big 8 bs)
  | .le16 => .le16 (loadWord .little 2 bs)
  | .le32 => .le32 (loadWord .little 4 bs)
  | .le64 => .le64 (loadWord .little 8 bs)
  | .str _ => .str bs

theorem wire_length (f : Field) : f.wire.length = f.shape.size := by
  cases f with
  | u8 val => rfl
  | be16 val => exact storeWord_length .big val
  | be32 val => exact storeWord_length .big val
  | be64 val => exact storeWord_length .big val
  | le16 val => exact storeWord_length .little val
  | le32 val => exact storeWord_length .little val
  | le64 val => exact storeWord_length .little val
  | str bytes => rfl

theorem parse_wire (f : Field) : f.shape.parse f.wire = f := by
  cases f with
  | u8 val => rfl
  | be16 val => exact congrArg Field.be16 (loadWord_storeWord .big val)
  | be32 val => exact congrArg Field.be32 (loadWord_storeWord .big val)
  | be64 val => exact congrArg Field.be64 (loadWord_storeWord .big val)
  | le16 val => exact congrArg Field.le16 (loadWord_storeWord .little val)
  | le32 val => exact congrArg Field.le32 (loadWord_storeWord .little val)
  | le64 val => exact congrArg Field.le64 (loadWord_storeWord .little val)
  | str bytes => rfl

theorem shape_parse (s : Shape) (bs : Bytes) (size : bs.length = s.size) :
    (s.parse bs).shape = s := by
  cases s with
  | str len => exact congrArg Shape.str size
  | _ => rfl

theorem wire_parse (s : Shape) (bs : Bytes) (size : bs.length = s.size) : (s.parse bs).wire = bs := by
  cases s with
  | u8 =>
    obtain ⟨b, rfl⟩ := List.length_eq_one_iff.mp size
    rfl
  | be16 => exact storeWord_loadWord .big size
  | be32 => exact storeWord_loadWord .big size
  | be64 => exact storeWord_loadWord .big size
  | le16 => exact storeWord_loadWord .little size
  | le32 => exact storeWord_loadWord .little size
  | le64 => exact storeWord_loadWord .little size
  | str len => rfl

def wire : Format Field Shape where
  shape := Field.shape
  size := Shape.size
  bytes := Field.wire
  parse s bs := s.parse bs
  bytes_length := wire_length
  parse_bytes := parse_wire
  shape_parse := shape_parse
  bytes_parse := wire_parse

@[simp] theorem wire_size (s : Shape) : wire.size s = s.size := rfl

theorem packWord_splices (host : ByteOrder) {n : Nat} (conv : Word n → Word n) {mem : Bytes} {p : Nat}
    (val : Word n) (room : p + n ≤ mem.length) :
    packWord host conv mem p val = .ok (splice mem p (storeWord host (conv val)), n) := by
  have fits : p + (storeWord host (conv val)).length ≤ mem.length := by
    rw [storeWord_length]
    exact room
  rw [packWord, write_at rfl fits]
  rfl

theorem packBe_splices {n : Nat} {mem : Bytes} {p : Nat} (val : Word n) (room : p + n ≤ mem.length) :
    packWord .little bswap mem p val = .ok (splice mem p (storeWord .big val), n) := by
  rw [packWord_splices .little bswap val room, storeWord_bswap]
  rfl

/-- All of the field is overwritten after it was cleared. -/
theorem packStr_writes {mem str : Bytes} {p len : Nat} (enough : len ≤ str.length)
    (room : p + len ≤ mem.length) : packStr mem p str len = .ok (splice mem p (str.take len), len) := by
  have zeros : (List.replicate len (0 : UInt8)).length = len := List.length_replicate
  have size : (str.take len).length = len := by
    rw [List.length_take]
    omega
  have cleared : memset mem p 0 len = .ok (splice mem p (List.replicate len 0)) :=
    memset_at 0 rfl rfl room
  have fits : p + (List.replicate len (0 : UInt8)).length ≤ mem.length := by
    rw [zeros]
    exact room
  have copied : memcpy (splice mem p (List.replicate len 0)) p str 0 len =
      .ok (splice mem p (str.take len)) := by
    rw [memcpy, read_start rfl enough, ok_bind,
      write_at rfl (by rw [splice_length fits, size]; exact room), splice_again fits (size.trans zeros.symm)]
  simp only [packStr, cleared, ok_bind, copied]
  rfl

theorem packStr_splices {mem : Bytes} {p : Nat} (str : Bytes) (room : p + str.length ≤ mem.length) :
    packStr mem p str str.length = .ok (splice mem p str, str.length) := by
  have written := packStr_writes (Nat.le_refl str.length) room
  rwa [List.take_length] at written

/-- Every pack call writes its field's wire bytes in place and answers their number. -/
theorem packField_splices {mem : Bytes} {p : Nat} (f : Field) (room : p + f.shape.size ≤ mem.length) :
    packField mem p f = .ok (splice mem p f.wire, f.shape.size) := by
  cases f with
  | u8 val =>
    have put : write mem p [val] = .ok (splice mem p [val]) := write_at rfl room
    rw [packField, packU8, put]
    rfl
  | be16 val => exact packBe_splices val room
  | be32 val => exact packBe_splices val room
  | be64 val => exact packBe_splices val room
  | le16 val => exact packWord_splices .little id val room
  | le32 val => exact packWord_splices .little id val room
  | le64 val => exact packWord_splices .little id val room
  | str bytes => exact packStr_splices bytes room

theorem packWord_outside (host : ByteOrder) {n : Nat} (conv : Word n → Word n) {mem : Bytes} {p : Nat}
    (val : Word n) (outside : mem.length < p + n) :
    packWord host conv mem p val = .error .outOfBounds := by
  have missing : write mem p (storeWord host (conv val)) = .error .outOfBounds :=
    write_outside rfl (by rw [storeWord_length]; exact outside)
  rw [packWord, missing]
  rfl

theorem packField_room {mem : Bytes} {p : Nat} (f : Field) {r : Bytes × Nat}
    (returns : packField mem p f = .ok r) : p + f.shape.size ≤ mem.length := by
  by_contra inside
  have outside : mem.length < p + f.shape.size := Nat.lt_of_not_le inside
  have fails : packField mem p f = .error .outOfBounds := by
    cases f with
    | u8 val =>
      have missing : write mem p [val] = .error .outOfBounds := write_outside rfl outside
      rw [packField, packU8, missing]
      rfl
    | be16 val => exact packWord_outside .little bswap val outside
    | be32 val => exact packWord_outside .little bswap val outside
    | be64 val => exact packWord_outside .little bswap val outside
    | le16 val => exact packWord_outside .little id val outside
    | le32 val => exact packWord_outside .little id val outside
    | le64 val => exact packWord_outside .little id val outside
    | str bytes =>
      have missing : write mem p (List.replicate bytes.length 0) = .error .outOfBounds :=
        write_outside rfl (by rw [List.length_replicate]; exact outside)
      have cleared : memset mem p 0 bytes.length = .error .outOfBounds := by
        rw [memset, if_pos (Int.natCast_nonneg _)]
        exact missing
      rw [packField, packStr, cleared]
      rfl
  rw [fails] at returns
  cases returns

theorem packField_frame {mem mem' : Bytes} {p n : Nat} (f : Field)
    (returns : packField mem p f = .ok (mem', n)) :
    n = f.shape.size ∧ mem'.length = mem.length ∧ mem'.take p = mem.take p ∧
      mem'.drop (p + n) = mem.drop (p + n) := by
  have room := packField_room f returns
  have fits : p + f.wire.length ≤ mem.length := by
    rw [wire_length]
    exact room
  rw [packField_splices f room] at returns
  cases returns
  refine ⟨rfl, splice_length fits, splice_before fits, ?_⟩
  rw [← wire_length]
  exact splice_after fits

theorem unpackWord_reads (host : ByteOrder) (n : Nat) (conv : Word n → Word n) {mem : Bytes} {p : Nat}
    (room : p + n ≤ mem.length) :
    unpackWord host n conv mem p = .ok (conv (loadWord host n ((mem.drop p).take n)), n) := by
  rw [unpackWord, read_at rfl rfl room]
  rfl

theorem field_length {mem : Bytes} {p n : Nat} (room : p + n ≤ mem.length) :
    ((mem.drop p).take n).length = n := by
  rw [List.length_take, List.length_drop]
  omega

theorem unpackBe_reads (n : Nat) {mem : Bytes} {p : Nat} (room : p + n ≤ mem.length) :
    unpackWord .little n bswap mem p = .ok (loadWord .big n ((mem.drop p).take n), n) := by
  rw [unpackWord_reads .little n bswap room, bswap_loadWord .little (field_length room)]
  rfl

theorem unpackU8_reads {mem : Bytes} {p : Nat} (room : p + 1 ≤ mem.length) :
    unpackU8 mem p = .ok (((mem.drop p).take 1).headD 0, 1) := by
  have byte : ((mem.drop p).take 1).headD 0 = mem[p] := by
    rw [List.drop_eq_getElem_cons room]
    rfl
  rw [unpackU8, readByte_at rfl room, byte]
  rfl

theorem unpackStr_writes {mem str : Bytes} {p len : Nat} (enough : len ≤ str.length)
    (room : p + len ≤ mem.length) :
    unpackStr mem p str len = .ok ((mem.drop p).take len ++ str.drop len, len) := by
  have size := field_length room
  have cleared : memset str 0 0 len = .ok (List.replicate len 0 ++ str.drop len) := by
    have filled : memset str 0 0 len = .ok (splice str 0 (List.replicate len 0)) :=
      memset_at 0 rfl rfl (by omega)
    rw [filled, splice, List.length_replicate, Nat.zero_add, List.take_zero, List.nil_append]
  have whole : ((mem.drop p).take len).length ≤ (List.replicate len 0 ++ str.drop len).length := by
    rw [size, List.length_append, List.length_replicate]
    omega
  have copied : memcpy (List.replicate len 0 ++ str.drop len) 0 mem p len =
      .ok ((mem.drop p).take len ++ str.drop len) := by
    rw [memcpy, read_at rfl rfl room, ok_bind, write_start whole, size, List.drop_left' List.length_replicate]
  simp only [unpackStr, cleared, ok_bind, copied]
  rfl

theorem unpackStr_reads {mem str : Bytes} {p len : Nat} (size : str.length = len)
    (room : p + len ≤ mem.length) : unpackStr mem p str len = .ok ((mem.drop p).take len, len) := by
  rw [unpackStr_writes (Nat.le_of_eq size.symm) room, List.drop_of_length_le (Nat.le_of_eq size),
    List.append_nil]

theorem unpackField_reads (stale : Nat → UInt8) {mem : Bytes} {p : Nat} (s : Shape)
    (room : p + s.size ≤ mem.length) :
    unpackField stale mem p s = .ok (s.parse ((mem.drop p).take s.size), s.size) := by
  cases s with
  | u8 => rw [unpackField, unpackU8_reads room]; rfl
  | be16 => rw [unpackField, LittleHost.unpackBe16, unpackBe_reads 2 room]; rfl
  | be32 => rw [unpackField, LittleHost.unpackBe32, unpackBe_reads 4 room]; rfl
  | be64 => rw [unpackField, LittleHost.unpackBe64, unpackBe_reads 8 room]; rfl
  | le16 => rw [unpackField, LittleHost.unpackLe16, unpackWord_reads .little 2 id room]; rfl
  | le32 => rw [unpackField, LittleHost.unpackLe32, unpackWord_reads .little 4 id room]; rfl
  | le64 => rw [unpackField, LittleHost.unpackLe64, unpackWord_reads .little 8 id room]; rfl
  | str len =>
    have size : ((List.range len).map stale).length = len := by
      rw [List.length_map, List.length_range]
    rw [unpackField, unpackStr_reads size room]
    rfl

/-- The packing walk is one write of the encoded sequence. -/
theorem packAll_splices (fs : List Field) {mem : Bytes} {p : Nat}
    (room : p + wire.total (fs.map Field.shape) ≤ mem.length) :
    packAll mem p fs = .ok (splice mem p (wire.encode fs), p + wire.total (fs.map Field.shape)) := by
  induction fs generalizing mem p with
  | nil =>
    have same : splice mem p [] = mem := by simp [splice]
    rw [packAll, Format.encode, same]
    rfl
  | cons f fs ih =>
    rw [List.map_cons, Format.total, wire_size] at room
    have len : f.wire.length = f.shape.size := wire_length f
    have here : p + f.shape.size ≤ mem.length := by omega
    have fits : p + f.wire.length ≤ mem.length := by omega
    have rest : (wire.encode fs).length = wire.total (fs.map Field.shape) := wire.encode_length fs
    have next : p + f.shape.size + wire.total (fs.map Field.shape) ≤ (splice mem p f.wire).length := by
      rw [splice_length fits]
      omega
    have joined : splice (splice mem p f.wire) (p + f.shape.size) (wire.encode fs) =
        splice mem p (f.wire ++ wire.encode fs) := by
      rw [← len]
      apply splice_append
      omega
    simp only [packAll, packField_splices f here, ok_bind, ih next, joined]
    rw [List.map_cons, Format.total, wire_size, Nat.add_assoc]
    rfl

/-- The unpacking walk is the decoder on the bytes from the pointer on. -/
theorem unpackAll_decodes (stale : Nat → UInt8) (ss : List Shape) {mem : Bytes} {p : Nat}
    (room : p + wire.total ss ≤ mem.length) :
    unpackAll stale mem p ss = .ok (wire.decode ss (mem.drop p), p + wire.total ss) := by
  induction ss generalizing p with
  | nil => rfl
  | cons s ss ih =>
    rw [Format.total, wire_size] at room
    have here : p + s.size ≤ mem.length := by omega
    have next : p + s.size + wire.total ss ≤ mem.length := by omega
    simp only [unpackAll, unpackField_reads stale s here, ok_bind, ih next]
    rw [Format.decode, Format.total, wire_size, List.drop_drop, Nat.add_assoc]
    rfl

/-- Packing then unpacking any field sequence, at any offset, gives the values back, and both
walks advance by the sum of the sizes; each call stays inside its own field; and unpacking
any long enough buffer, then packing, reproduces its bytes. -/
theorem fields_round_trip (stale : Nat → UInt8) :
    (∀ fs mem p, p + wire.total (fs.map Field.shape) ≤ mem.length → ∃ mem',
      packAll mem p fs = .ok (mem', p + wire.total (fs.map Field.shape)) ∧
      unpackAll stale mem' p (fs.map Field.shape) =
        .ok (fs, p + wire.total (fs.map Field.shape))) ∧
    (∀ f mem p mem' n, packField mem p f = .ok (mem', n) →
      n = f.shape.size ∧ mem'.length = mem.length ∧ mem'.take p = mem.take p ∧
      mem'.drop (p + n) = mem.drop (p + n)) ∧
    (∀ ss mem p, p + wire.total ss ≤ mem.length → ∃ fs,
      unpackAll stale mem p ss = .ok (fs, p + wire.total ss) ∧ fs.map Field.shape = ss ∧
      ∀ mem2 q, q + wire.total ss ≤ mem2.length → ∃ mem2',
        packAll mem2 q fs = .ok (mem2', q + wire.total ss) ∧
        (mem2'.drop q).take (wire.total ss) = (mem.drop p).take (wire.total ss)) := by
  refine ⟨?_, ?_, ?_⟩
  · intro fs mem p room
    have size : (wire.encode fs).length = wire.total (fs.map Field.shape) := wire.encode_length fs
    have fits : p + (wire.encode fs).length ≤ mem.length := by omega
    refine ⟨splice mem p (wire.encode fs), packAll_splices fs room, ?_⟩
    rw [unpackAll_decodes stale _ (by rw [splice_length fits]; exact room), splice_from fits]
    exact congrArg (fun x => Except.ok (x, _)) (wire.decode_encode fs _)
  · intro f mem p mem' n returns
    exact packField_frame f returns
  · intro ss mem p room
    obtain ⟨bytes, shapes⟩ := wire.encode_decode ss (mem.drop p) (by rw [List.length_drop]; omega)
    refine ⟨wire.decode ss (mem.drop p), unpackAll_decodes stale ss room, shapes, ?_⟩
    intro mem2 q room2
    have shapes' : (wire.decode ss (mem.drop p)).map Field.shape = ss := shapes
    have walk : packAll mem2 q (wire.decode ss (mem.drop p)) = .ok
        (splice mem2 q (wire.encode (wire.decode ss (mem.drop p))),
          q + wire.total ((wire.decode ss (mem.drop p)).map Field.shape)) :=
      packAll_splices _ (by rw [shapes']; exact room2)
    rw [shapes', bytes] at walk
    have size : ((mem.drop p).take (wire.total ss)).length = wire.total ss := field_length room
    refine ⟨_, walk, ?_⟩
    rw [splice_from (by omega)]
    exact List.take_left' size

theorem two_fields_round_trip : ∃ mem',
    packAll (List.replicate 4 0) 1 [.be16 4660, .u8 7] = .ok (mem', 4) ∧
      unpackAll (fun _ => 0) mem' 1 [.be16, .u8] = .ok ([.be16 4660, .u8 7], 4) :=
  (fields_round_trip fun _ => 0).1 [.be16 4660, .u8 7] (List.replicate 4 0) 1 (by decide)

end Newplat
