import VortarisECS.Network.SyncPlan
import VortarisECS.Serialization.EntityRecord

/-!
# Packets

The four kinds of packets and their grammar, in both wire versions.  The first
version sends whole components; the second one puts a field mask before the
fields, and a delta carries one record for each bucket that is due.  A packet is
checked against the grammar, with sizes computed in `size_t`, before it is
applied.
-/

namespace VortarisECS

/-- The kinds of packets. -/
inductive SyncPacketKind
  | spawn
  | delta
  | fullState
  | despawn
  deriving DecidableEq, Repr

/-- The wire version this code writes. -/
def syncVersion : Nat := 2

/-- The oldest wire version this code reads. -/
def syncVersionMin : Nat := 1

/-- How components are carried in a wire version. -/
def PayloadFormat.ofVersion (version : Nat) : PayloadFormat :=
  if version = 1 then .whole else .masked

/-! ## The grammar -/

/-- The fields of one bucket of a component. -/
structure BucketRecord where
  bucket : Nat
  mask : List Bool
  payload : List UInt8
  deriving DecidableEq, Repr

/-- One component of a delta: a whole one, or the buckets that were due. -/
inductive DeltaComponent
  | whole (block : ComponentBlock)
  | buckets (type : ComponentTypeId) (records : List BucketRecord)
  deriving DecidableEq, Repr

/-- One entity of a delta. -/
structure DeltaEntity where
  id : UInt64
  components : List DeltaComponent
  deriving DecidableEq, Repr

/-- A packet that was taken apart. -/
inductive SyncPacket
  | spawn (record : EntityRecord)
  | delta (entities : List DeltaEntity)
  | fullState (records : List EntityRecord)
  | despawn (id : UInt64)
  deriving DecidableEq, Repr

/-- A version that this code reads. -/
def versionParser : Parser Nat :=
  (Parser.number 2).andThen fun version =>
    if version < syncVersionMin ∨ version > syncVersion then Parser.fail
    else Parser.pure version

/-- A bucket: its number, a mask, and the bytes of the masked fields. -/
def bucketParser (schema : ComponentSchema) : Parser BucketRecord :=
  (Parser.number 1).andThen fun bucket =>
    (maskParser schema.fields.length).andThen fun mask =>
      (Parser.bytes (payloadSize schema mask)).map fun payload =>
        ⟨bucket, mask, payload⟩

/-- The buckets of a component. -/
def bucketsParser (registry : ComponentRegistry) : Parser DeltaComponent :=
  (Parser.number 4).andThen fun t =>
    match registry.schemaOf (UInt32.ofNat t) with
    | none => Parser.fail
    | some schema =>
        (Parser.number 1).andThen fun count =>
          (Parser.many count (bucketParser schema)).map
            (.buckets (UInt32.ofNat t))

/-- A component of a delta, as its version has it. -/
def deltaComponentParser (registry : ComponentRegistry) (version : Nat) :
    Parser DeltaComponent :=
  if version = 1 then (blockParser registry .whole).map .whole
  else bucketsParser registry

/-- An entity of a delta. -/
def deltaEntityParser (registry : ComponentRegistry) (version : Nat) :
    Parser DeltaEntity :=
  (Parser.number 8).andThen fun id =>
    (Parser.number 1).andThen fun count =>
      (Parser.many count (deltaComponentParser registry version)).map
        fun components => ⟨UInt64.ofNat id, components⟩

/-- A packet of a given kind. -/
def packetParser (registry : ComponentRegistry) :
    SyncPacketKind → Parser SyncPacket
  | .despawn => (Parser.number 8).map fun id => .despawn (UInt64.ofNat id)
  | .spawn =>
      versionParser.andThen fun version =>
        (recordParser registry (.ofVersion version)).map .spawn
  | .fullState =>
      versionParser.andThen fun version =>
        (Parser.number 4).andThen fun count =>
          (Parser.many count (recordParser registry (.ofVersion version))).map
            .fullState
  | .delta =>
      versionParser.andThen fun version =>
        (Parser.number 4).andThen fun count =>
          (Parser.many count (deltaEntityParser registry version)).map .delta

/-- The packet a byte string is, if it is one of that kind. -/
def parsePacket (registry : ComponentRegistry) (kind : SyncPacketKind)
    (data : List UInt8) : Option SyncPacket :=
  (packetParser registry kind).complete data

/-! ## The checking walk -/

/-- Read the version of a packet, if it is one this code reads. -/
def readSyncVersion (buf : BinaryBuffer) : Option (Nat × BinaryBuffer) :=
  match buf.readU16 with
  | none => none
  | some (version, buf) =>
      if version < syncVersionMin ∨ version > syncVersion then none
      else some (version, buf)

/-- Check one bucket and skip its payload. -/
def consumeBucket (schema : ComponentSchema) : Check := fun buf =>
  match buf.readU8 with
  | none => none
  | some (_, buf) =>
      match readFieldMask buf schema.fields.length with
      | none => none
      | some (mask, buf) =>
          buf.skip (serializedComponentFieldsSize schema mask)

/-- `consume_delta_component_v2`, the type included. -/
def consumeBuckets (registry : ComponentRegistry) : Check := fun buf =>
  match buf.readU32 with
  | none => none
  | some (t, buf) =>
      match registry.schemaOf (UInt32.ofNat t) with
      | none => none
      | some schema =>
          match buf.readU8 with
          | none => none
          | some (count, buf) => (consumeBucket schema).times count buf

/-- Skip a component of a delta. -/
def consumeDeltaComponent (registry : ComponentRegistry) (version : Nat) :
    Check :=
  if version = 1 then consumeBlock registry .whole else consumeBuckets registry

/-- Skip an entity of a delta. -/
def consumeDeltaEntity (registry : ComponentRegistry) (version : Nat) :
    Check := fun buf =>
  match buf.readU64 with
  | none => none
  | some (_, buf) =>
      match buf.readU8 with
      | none => none
      | some (count, buf) =>
          (consumeDeltaComponent registry version).times count buf

/-- Check a count and that many items. -/
def consumeCounted (item : Check) : Check := fun buf =>
  match buf.readU32 with
  | none => none
  | some (count, buf) => item.times count buf

/-- The body of `validate_packet`, up to the test that nothing is left. -/
def consumePacket (registry : ComponentRegistry) (kind : SyncPacketKind) :
    Check := fun buf =>
  match kind with
  | .despawn => buf.readU64.map Prod.snd
  | .spawn =>
      match readSyncVersion buf with
      | none => none
      | some (version, buf) =>
          consumeRecord registry (.ofVersion version) buf
  | .delta =>
      match readSyncVersion buf with
      | none => none
      | some (version, buf) =>
          consumeCounted (consumeDeltaEntity registry version) buf
  | .fullState =>
      match readSyncVersion buf with
      | none => none
      | some (version, buf) =>
          consumeCounted (consumeRecord registry (.ofVersion version)) buf

/-- `validate_packet`. -/
def validatePacket (registry : ComponentRegistry) (kind : SyncPacketKind)
    (data : List UInt8) : Bool :=
  match consumePacket registry kind ⟨data, 0⟩ with
  | none => false
  | some buf => buf.atEnd

/-! ## What is in the grammar passes -/

section Passes

variable {registry : ComponentRegistry} {schema : ComponentSchema}
variable {version : Nat}

/-- The versions that are read. -/
theorem versionParser_eq_some
    {input rest : List UInt8} :
    versionParser input = some (version, rest) ↔
      Parser.number 2 input = some (version, rest) ∧
        syncVersionMin ≤ version ∧ version ≤ syncVersion := by
  unfold versionParser
  rw [Parser.andThen_eq_some]
  constructor
  · rintro ⟨found, between, parsed, checked⟩
    split at checked
    · exact absurd checked (by simp [Parser.fail])
    · rw [Parser.pure, Option.some.injEq, Prod.mk.injEq] at checked
      obtain ⟨rfl, rfl⟩ := checked
      exact ⟨parsed, by omega, by omega⟩
  · rintro ⟨parsed, atLeast, atMost⟩
    refine ⟨version, rest, parsed, ?_⟩
    rw [if_neg (by omega)]
    rfl

/-- The version is read as it is parsed. -/
theorem readSyncVersion_follows :
    BinaryBuffer.Follows readSyncVersion versionParser := by
  intro buf input version rest remaining parsed
  obtain ⟨parsedNumber, atLeast, atMost⟩ := versionParser_eq_some.mp parsed
  obtain ⟨read, after⟩ := BinaryBuffer.readNumber_follows 2 buf input version
    rest remaining parsedNumber
  have read' : buf.readU16 = some (version, buf.upTo rest) := read
  refine ⟨?_, after⟩
  unfold readSyncVersion
  rw [read']
  exact if_neg (by omega)

/-- A bucket and its parts. -/
theorem bucketParser_eq_some
    {input rest : List UInt8} {record : BucketRecord} :
    bucketParser schema input = some (record, rest) ↔
      ∃ between later,
        Parser.number 1 input = some (record.bucket, between) ∧
        maskParser schema.fields.length between = some (record.mask, later) ∧
        Parser.bytes (payloadSize schema record.mask) later =
          some (record.payload, rest) := by
  unfold bucketParser
  rw [Parser.andThen_eq_some]
  constructor
  · rintro ⟨bucket, between, parsedBucket, parsedRest⟩
    obtain ⟨mask, later, parsedMask, parsedPayload⟩ :=
      Parser.andThen_eq_some.mp parsedRest
    obtain ⟨payload, parsedBytes, rfl⟩ := Parser.map_eq_some.mp parsedPayload
    exact ⟨between, later, parsedBucket, parsedMask, parsedBytes⟩
  · rintro ⟨between, later, parsedBucket, parsedMask, parsedBytes⟩
    exact ⟨record.bucket, between, parsedBucket, Parser.andThen_eq_some.mpr
      ⟨record.mask, later, parsedMask, Parser.map_eq_some.mpr
        ⟨record.payload, parsedBytes, rfl⟩⟩⟩

/-- The buckets of a component and their parts. -/
theorem bucketsParser_eq_some
    {input rest : List UInt8} {component : DeltaComponent} :
    bucketsParser registry input = some (component, rest) ↔
      ∃ t between schema count later records,
        Parser.number 4 input = some (t, between) ∧
        registry.schemaOf (UInt32.ofNat t) = some schema ∧
        Parser.number 1 between = some (count, later) ∧
        Parser.many count (bucketParser schema) later = some (records, rest) ∧
        component = .buckets (UInt32.ofNat t) records := by
  unfold bucketsParser
  rw [Parser.andThen_eq_some]
  constructor
  · rintro ⟨t, between, parsedType, parsedRest⟩
    cases registered : registry.schemaOf (UInt32.ofNat t) with
    | none =>
        rw [registered] at parsedRest
        exact absurd parsedRest (by simp [Parser.fail])
    | some schema =>
        rw [registered] at parsedRest
        obtain ⟨count, later, parsedCount, parsedContent⟩ :=
          Parser.andThen_eq_some.mp parsedRest
        obtain ⟨records, parsedRecords, rfl⟩ :=
          Parser.map_eq_some.mp parsedContent
        exact ⟨t, between, schema, count, later, records, parsedType,
          registered, parsedCount, parsedRecords, rfl⟩
  · rintro ⟨t, between, schema, count, later, records, parsedType, registered,
      parsedCount, parsedRecords, rfl⟩
    refine ⟨t, between, parsedType, ?_⟩
    rw [registered]
    exact Parser.andThen_eq_some.mpr ⟨count, later, parsedCount,
      Parser.map_eq_some.mpr ⟨records, parsedRecords, rfl⟩⟩

/-- The wire size of masked fields that fit is computed exactly. -/
theorem serializedComponentFieldsSize_eq
    {buf : BinaryBuffer} {rest : List UInt8} (remaining : buf.Remaining rest)
    {mask : List Bool} (fits : payloadSize schema mask ≤ rest.length) :
    serializedComponentFieldsSize schema mask = payloadSize schema mask :=
  fieldsSize_eq_wireSize (payloadSize_small remaining fits)

/-- A bucket that is parsed is skipped. -/
theorem consumeBucket_passes :
    (consumeBucket schema).Passes (bucketParser schema) := by
  intro buf input record rest remaining parsed
  obtain ⟨between, later, parsedBucket, parsedMask, parsedBytes⟩ :=
    bucketParser_eq_some.mp parsed
  obtain ⟨readBucket, afterBucket⟩ := BinaryBuffer.readNumber_follows 1 buf
    input record.bucket between remaining parsedBucket
  have readBucket' : buf.readU8 = some (_, buf.upTo between) := readBucket
  obtain ⟨readMask, afterMask⟩ := readFieldMask_follows schema.fields.length
    (buf.upTo between) between record.mask later afterBucket parsedMask
  dsimp only at readMask
  obtain ⟨fits, _, rfl⟩ := Parser.bytes_eq_some.mp parsedBytes
  unfold consumeBucket
  rw [readBucket']
  dsimp only
  rw [readMask]
  dsimp only
  rw [serializedComponentFieldsSize_eq afterMask fits,
    BinaryBuffer.skip_follows afterMask fits]
  exact ⟨rfl, (afterMask.advance fits).1⟩

/-- So are the buckets of a component. -/
theorem consumeBuckets_passes :
    (consumeBuckets registry).Passes (bucketsParser registry) := by
  intro buf input component rest remaining parsed
  obtain ⟨t, between, schema, count, later, records, parsedType, registered,
    parsedCount, parsedRecords, _⟩ := bucketsParser_eq_some.mp parsed
  obtain ⟨readType, afterType⟩ := BinaryBuffer.readNumber_follows 4 buf input t
    between remaining parsedType
  have readType' : buf.readU32 = some (t, buf.upTo between) := readType
  obtain ⟨readCount, afterCount⟩ := BinaryBuffer.readNumber_follows 1
    (buf.upTo between) between count later afterType parsedCount
  have readCount' : (buf.upTo between).readU8 = some (count, _) := readCount
  unfold consumeBuckets
  rw [readType']
  dsimp only
  rw [registered]
  dsimp only
  rw [readCount']
  exact consumeBucket_passes.times count _ later records rest afterCount
    parsedRecords

/-- So is a component. -/
theorem consumeDeltaComponent_passes :
    (consumeDeltaComponent registry version).Passes
      (deltaComponentParser registry version) := by
  unfold consumeDeltaComponent deltaComponentParser
  split
  · intro buf input component rest remaining parsed
    obtain ⟨block, parsedBlock, _⟩ := Parser.map_eq_some.mp parsed
    exact consumeBlock_passes buf input block rest remaining parsedBlock
  · exact consumeBuckets_passes

/-- So is an entity. -/
theorem consumeDeltaEntity_passes :
    (consumeDeltaEntity registry version).Passes
      (deltaEntityParser registry version) := by
  intro buf input entity rest remaining parsed
  obtain ⟨id, between, parsedId, parsedRest⟩ :=
    Parser.andThen_eq_some.mp parsed
  obtain ⟨count, later, parsedCount, parsedContent⟩ :=
    Parser.andThen_eq_some.mp parsedRest
  obtain ⟨components, parsedComponents, _⟩ :=
    Parser.map_eq_some.mp parsedContent
  obtain ⟨readId, afterId⟩ := BinaryBuffer.readNumber_follows 8 buf input id
    between remaining parsedId
  have readId' : buf.readU64 = some (id, buf.upTo between) := readId
  obtain ⟨readCount, afterCount⟩ := BinaryBuffer.readNumber_follows 1
    (buf.upTo between) between count later afterId parsedCount
  have readCount' : (buf.upTo between).readU8 = some (count, _) := readCount
  unfold consumeDeltaEntity
  rw [readId']
  dsimp only
  rw [readCount']
  exact consumeDeltaComponent_passes.times count _ later components rest
    afterCount parsedComponents

/-- So are items that are counted. -/
theorem consumeCounted_passes
    {item : Check} {parser : Parser α} (passes : item.Passes parser) :
    (consumeCounted item).Passes
      ((Parser.number 4).andThen fun count => Parser.many count parser) := by
  intro buf input values rest remaining parsed
  obtain ⟨count, between, parsedCount, parsedValues⟩ :=
    Parser.andThen_eq_some.mp parsed
  obtain ⟨readCount, after⟩ := BinaryBuffer.readNumber_follows 4 buf input count
    between remaining parsedCount
  have readCount' : buf.readU32 = some (count, buf.upTo between) := readCount
  unfold consumeCounted
  rw [readCount']
  exact passes.times count _ between values rest after parsedValues

/-- The three kinds of packets with a version: what is checked behind it is what
the grammar asks for. -/
theorem readSyncVersion_passes
    {check : Nat → Check} {parser : Nat → Parser α}
    (passes : ∀ version, (check version).Passes (parser version)) :
    Check.Passes
      (fun buf =>
        match readSyncVersion buf with
        | none => none
        | some (version, buf) => check version buf)
      (versionParser.andThen parser) := by
  intro buf input value rest remaining parsed
  obtain ⟨version, between, parsedVersion, parsedRest⟩ :=
    Parser.andThen_eq_some.mp parsed
  obtain ⟨read, after⟩ := readSyncVersion_follows buf input version between
    remaining parsedVersion
  dsimp only
  rw [read]
  exact passes version _ between value rest after parsedRest

/-- Values do not matter for skipping. -/
theorem passes_map
    {check : Check} {parser : Parser α} (passes : check.Passes parser)
    (f : α → β) : check.Passes (parser.map f) := by
  intro buf input value rest remaining parsed
  obtain ⟨before, parsedBefore, _⟩ := Parser.map_eq_some.mp parsed
  exact passes buf input before rest remaining parsedBefore

/-- A packet that is parsed is skipped. -/
theorem consumePacket_passes (kind : SyncPacketKind) :
    (consumePacket registry kind).Passes (packetParser registry kind) := by
  cases kind with
  | despawn =>
      intro buf input value rest remaining parsed
      obtain ⟨id, parsedId, _⟩ := Parser.map_eq_some.mp parsed
      obtain ⟨readId, after⟩ := BinaryBuffer.readNumber_follows 8 buf input id
        rest remaining parsedId
      have readId' : buf.readU64 = some (id, buf.upTo rest) := readId
      refine ⟨?_, after⟩
      dsimp only [consumePacket]
      rw [readId']
      rfl
  | spawn =>
      exact readSyncVersion_passes fun version =>
        passes_map consumeRecord_passes _
  | fullState =>
      apply readSyncVersion_passes
      intro version buf input value rest remaining parsed
      obtain ⟨count, between, parsedCount, parsedContent⟩ :=
        Parser.andThen_eq_some.mp parsed
      obtain ⟨records, parsedRecords, _⟩ := Parser.map_eq_some.mp parsedContent
      exact consumeCounted_passes consumeRecord_passes buf input records rest
        remaining (Parser.andThen_eq_some.mpr
          ⟨count, between, parsedCount, parsedRecords⟩)
  | delta =>
      apply readSyncVersion_passes
      intro version buf input value rest remaining parsed
      obtain ⟨count, between, parsedCount, parsedContent⟩ :=
        Parser.andThen_eq_some.mp parsed
      obtain ⟨entities, parsedEntities, _⟩ :=
        Parser.map_eq_some.mp parsedContent
      exact consumeCounted_passes consumeDeltaEntity_passes buf input entities
        rest remaining (Parser.andThen_eq_some.mpr
          ⟨count, between, parsedCount, parsedEntities⟩)

/-- A packet in the grammar is accepted. -/
theorem validatePacket_of_parsed
    {kind : SyncPacketKind} {data : List UInt8}
    (inMemory : data.length < sizeLimit) {packet : SyncPacket}
    (parsed : parsePacket registry kind data = some packet) :
    validatePacket registry kind data = true := by
  obtain ⟨passed, after⟩ := consumePacket_passes kind ⟨data, 0⟩ data packet []
    (BinaryBuffer.remaining_start inMemory) (Parser.complete_eq_some.mp parsed)
  unfold validatePacket
  rw [passed]
  exact after.atEnd_iff.mpr rfl

end Passes

/-! ## The parts of a packet -/

section Parts

variable {registry : ComponentRegistry} {data : List UInt8}
variable {packet : SyncPacket}

/-- A spawn and its parts. -/
theorem parsePacket_spawn_eq_some :
    parsePacket registry .spawn data = some packet ↔
      ∃ version first record,
        versionParser data = some (version, first) ∧
        recordParser registry (.ofVersion version) first = some (record, []) ∧
        packet = .spawn record := by
  unfold parsePacket packetParser
  rw [Parser.complete_eq_some, Parser.andThen_eq_some]
  constructor
  · rintro ⟨version, first, parsedVersion, parsedRest⟩
    obtain ⟨record, parsedRecord, rfl⟩ := Parser.map_eq_some.mp parsedRest
    exact ⟨version, first, record, parsedVersion, parsedRecord, rfl⟩
  · rintro ⟨version, first, record, parsedVersion, parsedRecord, rfl⟩
    exact ⟨version, first, parsedVersion, Parser.map_eq_some.mpr
      ⟨record, parsedRecord, rfl⟩⟩

/-- The parts of a counted packet. -/
theorem parseCounted_eq_some
    {item : Nat → Parser α} {wrap : List α → SyncPacket} :
    (versionParser.andThen fun version =>
        (Parser.number 4).andThen fun count =>
          (Parser.many count (item version)).map wrap).complete data =
        some packet ↔
      ∃ version first count second values,
        versionParser data = some (version, first) ∧
        Parser.number 4 first = some (count, second) ∧
        Parser.many count (item version) second = some (values, []) ∧
        packet = wrap values := by
  rw [Parser.complete_eq_some, Parser.andThen_eq_some]
  constructor
  · rintro ⟨version, first, parsedVersion, parsedRest⟩
    obtain ⟨count, second, parsedCount, parsedContent⟩ :=
      Parser.andThen_eq_some.mp parsedRest
    obtain ⟨values, parsedValues, rfl⟩ := Parser.map_eq_some.mp parsedContent
    exact ⟨version, first, count, second, values, parsedVersion, parsedCount,
      parsedValues, rfl⟩
  · rintro ⟨version, first, count, second, values, parsedVersion, parsedCount,
      parsedValues, rfl⟩
    exact ⟨version, first, parsedVersion, Parser.andThen_eq_some.mpr
      ⟨count, second, parsedCount, Parser.map_eq_some.mpr
        ⟨values, parsedValues, rfl⟩⟩⟩

/-- A full state and its parts. -/
theorem parsePacket_fullState_eq_some :
    parsePacket registry .fullState data = some packet ↔
      ∃ version first count second records,
        versionParser data = some (version, first) ∧
        Parser.number 4 first = some (count, second) ∧
        Parser.many count (recordParser registry (.ofVersion version)) second =
          some (records, []) ∧
        packet = .fullState records :=
  parseCounted_eq_some

/-- A delta and its parts. -/
theorem parsePacket_delta_eq_some :
    parsePacket registry .delta data = some packet ↔
      ∃ version first count second entities,
        versionParser data = some (version, first) ∧
        Parser.number 4 first = some (count, second) ∧
        Parser.many count (deltaEntityParser registry version) second =
          some (entities, []) ∧
        packet = .delta entities :=
  parseCounted_eq_some

/-- A despawn is the id of its entity. -/
theorem despawn_reads
    (inMemory : data.length < sizeLimit)
    (parsed : parsePacket registry .despawn data = some packet) :
    ∃ id buf, packet = .despawn (UInt64.ofNat id) ∧
      BinaryBuffer.readU64 ⟨data, 0⟩ = some (id, buf) ∧ buf.Remaining [] := by
  obtain ⟨id, parsedId, rfl⟩ :=
    Parser.map_eq_some.mp (Parser.complete_eq_some.mp parsed)
  obtain ⟨readId, remaining⟩ := BinaryBuffer.readNumber_follows 8 ⟨data, 0⟩ data
    id [] (BinaryBuffer.remaining_start inMemory) parsedId
  exact ⟨id, _, rfl, readId, remaining⟩

/-- A spawn is read as far as the id of its entity; the components follow. -/
theorem spawn_reads
    (inMemory : data.length < sizeLimit) {record : EntityRecord}
    (parsed : parsePacket registry .spawn data = some (.spawn record)) :
    ∃ version headed id blocks buf input,
      record = ⟨UInt64.ofNat id, blocks⟩ ∧
      readSyncVersion ⟨data, 0⟩ = some (version, headed) ∧
      headed.readU64 = some (id, buf) ∧ buf.Remaining input ∧
      blocksParser registry (.ofVersion version) input = some (blocks, []) := by
  obtain ⟨version, first, found, parsedVersion, parsedRecord, same⟩ :=
    parsePacket_spawn_eq_some.mp parsed
  rw [SyncPacket.spawn.injEq] at same
  subst same
  obtain ⟨id, input, parsedId, parsedContent⟩ :=
    Parser.andThen_eq_some.mp parsedRecord
  obtain ⟨blocks, parsedBlocks, rfl⟩ := Parser.map_eq_some.mp parsedContent
  obtain ⟨readVersion, afterVersion⟩ := readSyncVersion_follows ⟨data, 0⟩ data
    version first (BinaryBuffer.remaining_start inMemory) parsedVersion
  obtain ⟨readId, afterId⟩ := BinaryBuffer.readNumber_follows 8 _ first id
    input afterVersion parsedId
  exact ⟨version, _, id, blocks, _, input, rfl, readVersion, readId, afterId,
    parsedBlocks⟩

/-- A counted packet is read as far as its count. -/
theorem counted_reads
    (inMemory : data.length < sizeLimit) {version count : Nat}
    {first second : List UInt8}
    (parsedVersion : versionParser data = some (version, first))
    (parsedCount : Parser.number 4 first = some (count, second)) :
    ∃ headed buf, readSyncVersion ⟨data, 0⟩ = some (version, headed) ∧
      headed.readU32 = some (count, buf) ∧ buf.Remaining second := by
  obtain ⟨readVersion, afterVersion⟩ := readSyncVersion_follows ⟨data, 0⟩ data
    version first (BinaryBuffer.remaining_start inMemory) parsedVersion
  obtain ⟨readCount, afterCount⟩ := BinaryBuffer.readNumber_follows 4 _ first
    count second afterVersion parsedCount
  exact ⟨_, _, readVersion, readCount, afterCount⟩

/-- A full state is read as far as its count; the records follow. -/
theorem fullState_reads
    (inMemory : data.length < sizeLimit) {records : List EntityRecord}
    (parsed : parsePacket registry .fullState data =
      some (.fullState records)) :
    ∃ version headed count buf input,
      readSyncVersion ⟨data, 0⟩ = some (version, headed) ∧
      headed.readU32 = some (count, buf) ∧ buf.Remaining input ∧
      Parser.many count (recordParser registry (.ofVersion version)) input =
        some (records, []) := by
  obtain ⟨version, first, count, input, found, parsedVersion, parsedCount,
    parsedRecords, same⟩ := parsePacket_fullState_eq_some.mp parsed
  rw [SyncPacket.fullState.injEq] at same
  subst same
  obtain ⟨headed, buf, readVersion, readCount, remaining⟩ :=
    counted_reads inMemory parsedVersion parsedCount
  exact ⟨version, headed, count, buf, input, readVersion, readCount, remaining,
    parsedRecords⟩

/-- A delta is read as far as its count; the entities follow. -/
theorem delta_reads
    (inMemory : data.length < sizeLimit) {entities : List DeltaEntity}
    (parsed : parsePacket registry .delta data = some (.delta entities)) :
    ∃ version headed count buf input,
      readSyncVersion ⟨data, 0⟩ = some (version, headed) ∧
      headed.readU32 = some (count, buf) ∧ buf.Remaining input ∧
      Parser.many count (deltaEntityParser registry version) input =
        some (entities, []) := by
  obtain ⟨version, first, count, input, found, parsedVersion, parsedCount,
    parsedEntities, same⟩ := parsePacket_delta_eq_some.mp parsed
  rw [SyncPacket.delta.injEq] at same
  subst same
  obtain ⟨headed, buf, readVersion, readCount, remaining⟩ :=
    counted_reads inMemory parsedVersion parsedCount
  exact ⟨version, headed, count, buf, input, readVersion, readCount, remaining,
    parsedEntities⟩

end Parts
end VortarisECS
