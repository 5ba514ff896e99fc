import BgtDvb.EsgTypes

/-!
# The decoders of an ESG

`libesg`: a container names the structures in it by type, place and length, and has each decoded from its own part; the
access descriptor of the bootstrap stands alone.  Counts, lengths and optional parts come from the bytes.

A decoder comes to `none` where the source returns `NULL`, and into a fault where it looks at a byte outside.  The buffer is
never `NULL`, and memory never runs out.  Where several bytes make one value all of them are looked at, so that an index
that wraps round comes behind one that is outside.
-/

namespace BgtDvb.Esg

open CheckedRead

/-! ### Parts that several decoders have -/

def u8 (buffer : List UInt8) (pos : ℕ) : Decode UInt8 := byte .outside buffer pos

/-- `(buffer[pos] << 8) | buffer[pos+1]` -/
def be16 (buffer : List UInt8) (pos : ℕ) : Decode ℕ := do
  let x ← u8 buffer pos
  let y ← u8 buffer (pos + 1)
  .ok (x.toNat <<< 8 ||| y.toNat)

/-- `(buffer[pos] << 16) | (buffer[pos+1] << 8) | buffer[pos+2]` -/
def be24 (buffer : List UInt8) (pos : ℕ) : Decode ℕ := do
  let x ← u8 buffer pos
  let y ← u8 buffer (pos + 1)
  let z ← u8 buffer (pos + 2)
  .ok (x.toNat <<< 16 ||| y.toNat <<< 8 ||| z.toNat)

def copy (buffer : List UInt8) (pos n : ℕ) : Decode (List UInt8) := span .outside buffer pos n

/-- A `uint32_t` less another. -/
def minus (size pos : ℕ) : ℕ := (size + 2 ^ 32 - pos) % 2 ^ 32

/-- The bytes of `union esg_ip_address`. -/
def ipBytes (ipVersion6 : Bool) : ℕ := if ipVersion6 then 16 else 4

/-! ### `encapsulation/fragment_management_information.c` -/

structure EncapsulationEntry where
  fragmentType : UInt8
  dataRepositoryOffset : ℕ
  fragmentVersion : UInt8
  fragmentId : ℕ
  deriving Repr, DecidableEq

structure EncapsulationStructure where
  fragmentReferenceFormat : UInt8
  entryList : List EncapsulationEntry
  deriving Repr, DecidableEq

/-- With another format `esg_encapsulation_structure_free` is called, which frees the first entry in its loop and once more
as `entry_list`. -/
def encapsulationEntry (buffer : List UInt8) (format : UInt8) (pos : ℕ) : Decode EncapsulationEntry :=
  if format = 0x21 then do
    let fragmentType ← u8 buffer pos
    let dataRepositoryOffset ← be24 buffer (pos + 1)
    let fragmentVersion ← u8 buffer (pos + 4)
    let fragmentId ← be24 buffer (pos + 5)
    .ok ⟨fragmentType, dataRepositoryOffset, fragmentVersion, fragmentId⟩
  else .error .badFree

def encapsulationEntries (buffer : List UInt8) (size : ℕ) (format : UInt8) (pos : ℕ) : Decode (List EncapsulationEntry) :=
  if pos < size then do
    let entry ← encapsulationEntry buffer format pos
    let entries ← encapsulationEntries buffer size format (pos + 8)
    .ok (entry :: entries)
  else .ok []
termination_by size - pos

/-- `esg_encapsulation_structure_decode` -/
def encapsulationStructureDecode (buffer : List UInt8) (size : ℕ) : Decode (Option EncapsulationStructure) :=
  if size ≤ 2 then .ok none
  else do
    let format ← u8 buffer 1
    let entries ← encapsulationEntries buffer size format 2
    .ok (some ⟨format, entries⟩)

/-! ### The repositories -/

structure StringRepository where
  encodingType : UInt8
  data : List UInt8
  deriving Repr, DecidableEq

/-- `esg_string_repository_decode` -/
def stringRepositoryDecode (buffer : List UInt8) (size : ℕ) : Decode (Option StringRepository) :=
  if size ≤ 1 then .ok none
  else do
    let encodingType ← u8 buffer 0
    let data ← copy buffer 1 (size - 1)
    .ok (some ⟨encodingType, data⟩)

/-- `esg_data_repository_decode` -/
def dataRepositoryDecode (buffer : List UInt8) (size : ℕ) : Decode (Option (List UInt8)) :=
  if size ≤ 0 then .ok none
  else do
    let data ← copy buffer 0 size
    .ok (some data)

/-! ### `transport/session_partition_declaration.c` -/

structure SessionField where
  identifier : ℕ
  encoding : ℕ
  length : UInt8
  deriving Repr, DecidableEq

inductive FieldValue where
  | string (bytes : List UInt8)
  | unsignedShort (n : ℕ)
  deriving Repr, DecidableEq

structure IpStreamField where
  startFieldValue : Option FieldValue
  endFieldValue : FieldValue
  deriving Repr, DecidableEq

structure IpStream where
  id : UInt8
  sourceIp : List UInt8
  destinationIp : List UInt8
  port : ℕ
  sessionId : ℕ
  fieldList : List IpStreamField
  deriving Repr, DecidableEq

structure SessionPartitionDeclaration where
  numFields : UInt8
  overlapping : Bool
  fieldList : List SessionField
  nOIpStreams : UInt8
  ipVersion6 : Bool
  ipStreamList : List IpStream
  deriving Repr, DecidableEq

def sessionFields (buffer : List UInt8) : ℕ → ℕ → Decode (List SessionField)
  | 0, _ => .ok []
  | n + 1, pos => do
    let identifier ← be16 buffer pos
    let encoding ← be16 buffer (pos + 2)
    let length ← u8 buffer (pos + 4)
    let fields ← sessionFields buffer n (pos + 5)
    .ok (⟨identifier, encoding, length⟩ :: fields)

/-- With another encoding `esg_session_partition_declaration_free` is called, which asks the stream behind the last one for
its fields. -/
def fieldValue (buffer : List UInt8) (encoding fieldLength pos : ℕ) : Decode FieldValue :=
  if encoding = 0x0000 then do
    let bytes ← copy buffer pos fieldLength
    .ok (.string bytes)
  else if encoding = 0x0101 then do
    let n ← be16 buffer pos
    .ok (.unsignedShort n)
  else .error .badFree

/-- The length of a field of a stream, from the declaration or in front of the values, and where the values are. -/
def fieldLength (buffer : List UInt8) (size : ℕ) (field : SessionField) (pos : ℕ) : Decode (ℕ × ℕ) :=
  if field.length ≠ 0 then .ok (field.length.toNat, pos)
  else do
    let r ← vluimsbf8 (buffer.drop pos) (minus size pos)
    .ok (r.2, (pos + r.1) % 2 ^ 32)

/-- The values of a field of a stream, one or two of `length` bytes, and where the next field is. -/
def ipStreamValues (buffer : List UInt8) (overlapping : Bool) (encoding length pos : ℕ) : Decode (IpStreamField × ℕ) :=
  if overlapping then do
    let start ← fieldValue buffer encoding length pos
    let pos := (pos + length) % 2 ^ 32
    let value ← fieldValue buffer encoding length pos
    .ok (⟨some start, value⟩, (pos + length) % 2 ^ 32)
  else do
    let value ← fieldValue buffer encoding length pos
    .ok (⟨none, value⟩, (pos + length) % 2 ^ 32)

def ipStreamField (buffer : List UInt8) (size : ℕ) (overlapping : Bool) (field : SessionField) (pos : ℕ) :
    Decode (IpStreamField × ℕ) := do
  let r ← fieldLength buffer size field pos
  ipStreamValues buffer overlapping field.encoding r.1 r.2

def ipStreamFields (buffer : List UInt8) (size : ℕ) (overlapping : Bool) :
    List SessionField → ℕ → Decode (List IpStreamField × ℕ)
  | [], pos => .ok ([], pos)
  | field :: fields, pos => do
    let (first, pos) ← ipStreamField buffer size overlapping field pos
    let (rest, pos) ← ipStreamFields buffer size overlapping fields pos
    .ok (first :: rest, pos)

def ipStreams (buffer : List UInt8) (size : ℕ) (overlapping ipVersion6 : Bool) (fields : List SessionField) :
    ℕ → ℕ → Decode (List IpStream)
  | 0, _ => .ok []
  | n + 1, pos => do
    let ip := ipBytes ipVersion6
    let id ← u8 buffer pos
    let sourceIp ← copy buffer (pos + 1) ip
    let destinationIp ← copy buffer (pos + 1 + ip) ip
    let port ← be16 buffer (pos + 1 + 2 * ip)
    let sessionId ← be16 buffer (pos + 3 + 2 * ip)
    let (fieldList, pos) ← ipStreamFields buffer size overlapping fields (pos + 5 + 2 * ip)
    let streams ← ipStreams buffer size overlapping ipVersion6 fields n pos
    .ok (⟨id, sourceIp, destinationIp, port, sessionId, fieldList⟩ :: streams)

/-- `esg_session_partition_declaration_decode` -/
def sessionPartitionDeclarationDecode (buffer : List UInt8) (size : ℕ) : Decode (Option SessionPartitionDeclaration) :=
  if size ≤ 2 then .ok none
  else do
    let numFields ← u8 buffer 0
    let flags ← u8 buffer 1
    let overlapping := high flags
    if size < 2 + 5 * numFields.toNat then .ok none
    else do
      let fields ← sessionFields buffer numFields.toNat 2
      let pos := 2 + 5 * numFields.toNat
      let nOIpStreams ← u8 buffer pos
      let version ← u8 buffer (pos + 1)
      let ipVersion6 := high version
      let streams ← ipStreams buffer size overlapping ipVersion6 fields nOIpStreams.toNat (pos + 2)
      .ok (some ⟨numFields, overlapping, fields, nOIpStreams, ipVersion6, streams⟩)

/-! ### `representation/textual_decoder_init.c` -/

structure TextualDecoderInit where
  version : UInt8
  numNamespacePrefixes : UInt8
  namespacePrefixList : List (ℕ × ℕ)
  numFragmentTypes : UInt8
  xmlFragmentTypeList : List (ℕ × ℕ)
  deriving Repr, DecidableEq

/-- The loops over the namespace prefixes and the fragment types: two numbers each. -/
def pairs (buffer : List UInt8) : ℕ → ℕ → Decode (List (ℕ × ℕ))
  | 0, _ => .ok []
  | n + 1, pos => do
    let first ← be16 buffer pos
    let second ← be16 buffer (pos + 2)
    let rest ← pairs buffer n (pos + 4)
    .ok ((first, second) :: rest)

/-- `esg_textual_decoder_init_decode` -/
def textualDecoderInitDecode (buffer : List UInt8) (size : ℕ) : Decode (Option TextualDecoderInit) :=
  if size ≤ 1 then .ok none
  else do
    let version ← u8 buffer 0
    let (offset, decoderInitLength) ← vluimsbf8 (buffer.drop 1) (size - 1)
    let pos := 1 + offset
    if size < (pos + decoderInitLength) % 2 ^ 32 then .ok none
    else do
      let numNamespacePrefixes ← u8 buffer pos
      let prefixes ← pairs buffer numNamespacePrefixes.toNat (pos + 1)
      let pos := pos + 1 + 4 * numNamespacePrefixes.toNat
      let numFragmentTypes ← u8 buffer pos
      let types ← pairs buffer numFragmentTypes.toNat (pos + 1)
      .ok (some ⟨version, numNamespacePrefixes, prefixes, numFragmentTypes, types⟩)

/-! ### `representation/init_message.c` -/

inductive EncodingParameters where
  | bim (bufferSizeFlag positionCodeFlag : Bool) (characterEncoding : UInt8) (bufferSize : ℕ)
  | textual (characterEncoding : UInt8)
  deriving Repr, DecidableEq

structure InitMessage where
  encodingVersion : UInt8
  indexingFlag : Bool
  decoderInitPtr : UInt8
  indexingVersion : UInt8
  encodingParameters : EncodingParameters
  decoderInit : Option TextualDecoderInit
  deriving Repr, DecidableEq

def indexingVersion (buffer : List UInt8) (indexingFlag : Bool) : Decode UInt8 :=
  if indexingFlag then u8 buffer 3 else .ok 0

/-- `case 0xF1` -/
def bimParameters (buffer : List UInt8) (pos : ℕ) : Decode EncodingParameters := do
  let flags ← u8 buffer pos
  let characterEncoding ← u8 buffer (pos + 1)
  if high flags then do
    let bufferSize ← be24 buffer (pos + 2)
    .ok (.bim true (flags &&& 0x40 != 0) characterEncoding bufferSize)
  else .ok (.bim false (flags &&& 0x40 != 0) characterEncoding 0)

/-- The parameters and the decoder init of an encoding that is known. -/
def encodingDecode (buffer : List UInt8) (size : ℕ) (encodingVersion decoderInitPtr : UInt8) (pos : ℕ) :
    Decode (Option (EncodingParameters × Option TextualDecoderInit)) :=
  if encodingVersion = 0xF1 then do
    let parameters ← bimParameters buffer pos
    .ok (some (parameters, none))
  else if encodingVersion = 0xF2 ∨ encodingVersion = 0xF3 then do
    let characterEncoding ← u8 buffer pos
    let decoderInit ← textualDecoderInitDecode (buffer.drop decoderInitPtr.toNat) (minus size decoderInitPtr.toNat)
    .ok (some (.textual characterEncoding, decoderInit))
  else .ok none

/-- `esg_init_message_decode` -/
def initMessageDecode (buffer : List UInt8) (size : ℕ) : Decode (Option InitMessage) :=
  if size ≤ 3 then .ok none
  else do
    let encodingVersion ← u8 buffer 0
    let indexing ← u8 buffer 1
    let decoderInitPtr ← u8 buffer 2
    let indexingVersion ← indexingVersion buffer (high indexing)
    let encoding ← encodingDecode buffer size encodingVersion decoderInitPtr (if high indexing then 4 else 3)
    .ok (encoding.map fun r => ⟨encodingVersion, high indexing, decoderInitPtr, indexingVersion, r.1, r.2⟩)

/-! ### `encapsulation/container.c` -/

/-- What `data` points to: nothing for the types that are left to do, or what the decoder of the type came to. -/
inductive StructureData where
  | todo
  | encapsulation (s : Option EncapsulationStructure)
  | strings (s : Option StringRepository)
  | repository (s : Option (List UInt8))
  | partition (s : Option SessionPartitionDeclaration)
  | initMessage (s : Option InitMessage)
  deriving Repr, DecidableEq

structure ContainerStructure where
  type : UInt8
  id : UInt8
  ptr : ℕ
  length : ℕ
  data : StructureData
  deriving Repr, DecidableEq

structure Container where
  numStructures : UInt8
  structureList : List ContainerStructure
  structureBodyPtr : ℕ
  structureBodyLength : ℕ
  structureBody : List UInt8
  deriving Repr, DecidableEq

/-- The structures that are decoded or skipped. -/
inductive StructureKind where
  | todo
  | encapsulation
  | strings
  | repository
  | partition
  | initMessage
  deriving Repr, DecidableEq

/-- The two `switch`es over the type and the id. -/
def structureKind (type id : UInt8) : Option StructureKind :=
  match type with
  | 0x01 => if id = 0x00 then some .encapsulation else none
  | 0x02 => if id = 0x00 then some .strings else none
  | 0x03 | 0x04 | 0x05 => some .todo
  | 0xE0 => if id = 0x00 then some .repository else none
  | 0xE1 => if id = 0xFF then some .partition else none
  | 0xE2 => if id = 0x00 then some .initMessage else none
  | _ => none

def structureDecode (kind : StructureKind) (part : List UInt8) (length : ℕ) : Decode StructureData :=
  match kind with
  | .todo => .ok .todo
  | .encapsulation => .encapsulation <$> encapsulationStructureDecode part length
  | .strings => .strings <$> stringRepositoryDecode part length
  | .repository => .repository <$> dataRepositoryDecode part length
  | .partition => .partition <$> sessionPartitionDeclarationDecode part length
  | .initMessage => .initMessage <$> initMessageDecode part length

/-- `n` bytes of a buffer from `ptr` on. -/
def partOf (buffer : List UInt8) (ptr n : ℕ) : List UInt8 := (buffer.drop ptr).take n

def containerStructures (buffer : List UInt8) (size : ℕ) : ℕ → ℕ → Decode (Option (List ContainerStructure))
  | 0, _ => .ok (some [])
  | n + 1, pos => do
    let type ← u8 buffer pos
    let id ← u8 buffer (pos + 1)
    let ptr ← be24 buffer (pos + 2)
    let length ← be24 buffer (pos + 5)
    if size < ptr + length then .ok none
    else
      match structureKind type id with
      | none => .ok none
      | some kind => do
        let data ← structureDecode kind (partOf buffer ptr length) length
        let rest ← containerStructures buffer size n (pos + 8)
        .ok (rest.map fun structures => ⟨type, id, ptr, length, data⟩ :: structures)

/-- `esg_container_decode` -/
def containerDecode (buffer : List UInt8) (size : ℕ) : Decode (Option Container) :=
  if size ≤ 1 then .ok none
  else do
    let numStructures ← u8 buffer 0
    let pos := 1 + numStructures.toNat * 8
    if size < pos then .ok none
    else do
      let structures ← containerStructures buffer size numStructures.toNat 1
      match structures with
      | none => .ok none
      | some structures => do
        let body ← copy buffer pos (size - pos)
        .ok (some ⟨numStructures, structures, pos, size - pos, body⟩)

/-! ### `bootstrap/access_descriptor.c` -/

structure Entry where
  version : UInt8
  multipleStreamTransport : Bool
  ipVersion6 : Bool
  providerId : ℕ
  sourceIp : List UInt8
  destinationIp : List UInt8
  port : ℕ
  tsi : ℕ
  deriving Repr, DecidableEq

structure AccessDescriptor where
  nOEntries : ℕ
  entryList : List Entry
  deriving Repr, DecidableEq

def accessEntries (buffer : List UInt8) (size : ℕ) : ℕ → ℕ → Decode (Option (List Entry))
  | 0, _ => .ok (some [])
  | n + 1, pos => do
    let version ← u8 buffer pos
    let (offset, entryLength) ← vluimsbf8 (buffer.drop (pos + 1)) (minus size (pos + 1))
    let pos := pos + 1 + offset
    if size < (pos + entryLength) % 2 ^ 32 then .ok none
    else do
      let flags ← u8 buffer pos
      let ip := ipBytes (flags &&& 0x40 != 0)
      let providerId ← be16 buffer (pos + 1)
      let sourceIp ← copy buffer (pos + 3) ip
      let destinationIp ← copy buffer (pos + 3 + ip) ip
      let port ← be16 buffer (pos + 3 + 2 * ip)
      let tsi ← be16 buffer (pos + 5 + 2 * ip)
      let rest ← accessEntries buffer size n (pos + 7 + 2 * ip)
      .ok (rest.map fun entries =>
        ⟨version, high flags, flags &&& 0x40 != 0, providerId, sourceIp, destinationIp, port, tsi⟩ :: entries)

/-- `esg_access_descriptor_decode` -/
def accessDescriptorDecode (buffer : List UInt8) (size : ℕ) : Decode (Option AccessDescriptor) :=
  if size ≤ 2 then .ok none
  else do
    let nOEntries ← be16 buffer 0
    let entries ← accessEntries buffer size nOEntries 2
    .ok (entries.map fun entries => ⟨nOEntries, entries⟩)

end BgtDvb.Esg
