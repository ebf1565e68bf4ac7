import VortarisECS.Core.World
import VortarisECS.Serialization.FieldMask
import VortarisECS.Serialization.Walk

/-!
# Entity records

Snapshots and packets carry entities as records: an id, a count and one block
for each component, its type id followed by its fields.  A record is walked once
to check it and once to build the entity.  How a block says which fields it
carries differs between the formats.
-/

namespace VortarisECS

/-- One component of an entity on the wire: the fields it carries, and their
bytes. -/
structure ComponentBlock where
  type : ComponentTypeId
  mask : List Bool := []
  payload : List UInt8
  deriving DecidableEq, Repr

/-- An entity and its components. -/
structure EntityRecord where
  id : UInt64
  blocks : List ComponentBlock
  deriving DecidableEq, Repr

/-- An id that is not listed is not found. -/
theorem find?_record_eq_none
    {records : List EntityRecord} {id : UInt64}
    (absent : id ∉ records.map EntityRecord.id) :
    (records.find? fun record => record.id = id) = none := by
  rw [List.find?_eq_none]
  intro record member same
  apply absent
  rw [← of_decide_eq_true same]
  exact List.mem_map_of_mem member

/-- Among records with different ids each one is found. -/
theorem find?_record_of_mem
    {records : List EntityRecord} {record : EntityRecord}
    (once : (records.map EntityRecord.id).Nodup) (member : record ∈ records) :
    (records.find? fun other => other.id = record.id) = some record := by
  induction records with
  | nil => exact absurd member List.not_mem_nil
  | cons first records inductionHypothesis =>
      rw [List.map_cons, List.nodup_cons] at once
      rw [List.find?_cons]
      obtain rfl | member := List.mem_cons.mp member
      · rw [decide_eq_true rfl]
      · have other : first.id ≠ record.id := by
          intro same
          apply once.1
          rw [same]
          exact List.mem_map_of_mem member
        rw [decide_eq_false other]
        exact inductionHypothesis once.2 member

/-- The wire size of the fields a mask selects. -/
def payloadSize (schema : ComponentSchema) (mask : List Bool) : Nat :=
  wireSize (maskedFields schema.fields mask)

/-- Put the payload of the selected fields into an instance. -/
def storePayload (schema : ComponentSchema) (mask : List Bool)
    (inst payload : List UInt8) : List UInt8 :=
  storeFields (maskedFields schema.fields mask) inst payload

/-- The places of the fields a block carries, with their bytes. -/
def ComponentBlock.patches (schema : ComponentSchema) (block : ComponentBlock) :
    List Patch :=
  fieldPatches (maskedFields schema.fields block.mask) block.payload

/-- How a block carries its fields: the masks it can carry with their bytes and
grammar, the size the checking walk computes and the reads of the acting one,
which agree on whatever fits the grammar. -/
structure PayloadFormat where
  carries : ComponentSchema → List Bool → Prop
  encode : List Bool → List UInt8
  mask : ComponentSchema → Parser (List Bool)
  size : ComponentSchema → BinaryBuffer → Option (Nat × BinaryBuffer)
  read : ComponentSchema → List UInt8 → BinaryBuffer →
    List UInt8 × Option BinaryBuffer
  size_eq : ∀ schema buf input mask' rest, buf.Remaining input →
    mask schema input = some (mask', rest) →
    payloadSize schema mask' ≤ rest.length →
    size schema buf = some (payloadSize schema mask', buf.upTo rest)
  read_eq : ∀ schema inst buf input mask' rest, buf.Remaining input →
    mask schema input = some (mask', rest) →
    payloadSize schema mask' ≤ rest.length →
    read schema inst buf =
      (storePayload schema mask' inst (rest.take (payloadSize schema mask')),
        some (buf.upTo (rest.drop (payloadSize schema mask'))))
  read_length : ∀ schema inst buf,
    (read schema inst buf).1.length = inst.length
  mask_reads : ∀ schema mask', carries schema mask' →
    (mask schema).Reads (encode mask') mask'
  mask_remaining : ∀ schema buf input mask' rest,
    BinaryBuffer.Remaining buf input →
    mask schema input = some (mask', rest) → (buf.upTo rest).Remaining rest

/-- What fits into the rest of a buffer is smaller than `size_t` can say. -/
theorem payloadSize_small
    {buf : BinaryBuffer} {rest : List UInt8} (remaining : buf.Remaining rest)
    {schema : ComponentSchema} {mask : List Bool}
    (fits : payloadSize schema mask ≤ rest.length) :
    payloadSize schema mask < sizeLimit := by
  have lengthEq := remaining.length_eq
  have inMemory := remaining.inMemory
  omega

namespace PayloadFormat

/-- Whole components: `serialize_component` and `deserialize_component`. -/
def whole : PayloadFormat where
  carries _ mask := mask = []
  encode _ := []
  mask _ := Parser.pure []
  size schema buf := some (serializedComponentSize schema, buf)
  read := deserializeComponent
  size_eq schema buf input mask rest remaining parsed fits := by
    rw [Parser.pure, Option.some.injEq, Prod.mk.injEq] at parsed
    obtain ⟨rfl, rfl⟩ := parsed
    have small := payloadSize_small remaining fits
    unfold payloadSize at small ⊢
    rw [maskedFields_nil_mask] at small ⊢
    rw [serializedComponentSize, fieldsSize_eq_wireSize small,
      remaining.upTo_self]
  read_eq schema inst buf input mask rest remaining parsed fits := by
    rw [Parser.pure, Option.some.injEq, Prod.mk.injEq] at parsed
    obtain ⟨rfl, rfl⟩ := parsed
    unfold storePayload
    unfold payloadSize at fits ⊢
    rw [maskedFields_nil_mask] at fits ⊢
    exact readFields_of_remaining remaining fits inst
  read_length schema inst buf := readFields_length _ _ _
  mask_reads schema mask carried := by
    rw [carried]
    exact Parser.reads_pure []
  mask_remaining schema buf input mask rest remaining parsed := by
    rw [Parser.pure, Option.some.injEq, Prod.mk.injEq] at parsed
    obtain ⟨rfl, rfl⟩ := parsed
    rw [remaining.upTo_self]
    exact remaining

/-- A field mask and the masked fields: `serialize_component_fields` and
`deserialize_component_fields`. -/
def masked : PayloadFormat where
  carries schema mask := mask.length = schema.fields.length
  encode := encodeMask
  mask schema := maskParser schema.fields.length
  size schema buf :=
    match readFieldMask buf schema.fields.length with
    | none => none
    | some (mask, buf) => some (serializedComponentFieldsSize schema mask, buf)
  read schema inst buf :=
    match readFieldMask buf schema.fields.length with
    | none => (inst, none)
    | some (mask, buf) => deserializeComponentFields schema inst buf mask
  size_eq schema buf input mask rest remaining parsed fits := by
    obtain ⟨read, after⟩ := readFieldMask_follows schema.fields.length buf input
      mask rest remaining parsed
    dsimp only at read
    have small := payloadSize_small after fits
    rw [read]
    dsimp only
    unfold payloadSize at small ⊢
    rw [serializedComponentFieldsSize, fieldsSize_eq_wireSize small]
  read_eq schema inst buf input mask rest remaining parsed fits := by
    obtain ⟨read, after⟩ := readFieldMask_follows schema.fields.length buf input
      mask rest remaining parsed
    dsimp only at read
    rw [read]
    dsimp only
    unfold storePayload
    unfold payloadSize at fits ⊢
    rw [deserializeComponentFields, readFields_of_remaining after fits,
      BinaryBuffer.upTo_upTo]
  read_length schema inst buf := by
    split
    · rfl
    · exact readFields_length _ _ _
  mask_reads _ _ carried := maskParser_reads carried
  mask_remaining schema buf input mask rest remaining parsed :=
    (readFieldMask_follows schema.fields.length buf input mask rest remaining
      parsed).2

end PayloadFormat

/-! ## The grammar -/

variable {registry : ComponentRegistry} {format : PayloadFormat}

/-- A component of a registered type. -/
def blockParser (registry : ComponentRegistry) (format : PayloadFormat) :
    Parser ComponentBlock :=
  (Parser.number 4).andThen fun t =>
    match registry.schemaOf (UInt32.ofNat t) with
    | none => Parser.fail
    | some schema =>
        (format.mask schema).andThen fun mask =>
          (Parser.bytes (payloadSize schema mask)).map fun payload =>
            ⟨UInt32.ofNat t, mask, payload⟩

/-- A 16-bit count and that many blocks. -/
def blocksParser (registry : ComponentRegistry) (format : PayloadFormat) :
    Parser (List ComponentBlock) :=
  (Parser.number 2).andThen fun count =>
    Parser.many count (blockParser registry format)

/-- An entity with its components. -/
def recordParser (registry : ComponentRegistry) (format : PayloadFormat) :
    Parser EntityRecord :=
  (Parser.number 8).andThen fun id =>
    (blocksParser registry format).map fun blocks => ⟨UInt64.ofNat id, blocks⟩

/-- A block parses when its type is registered and its payload follows. -/
theorem blockParser_eq_some
    {input rest : List UInt8} {block : ComponentBlock} :
    blockParser registry format input = some (block, rest) ↔
      ∃ t between schema later,
        Parser.number 4 input = some (t, between) ∧
        registry.schemaOf (UInt32.ofNat t) = some schema ∧
        format.mask schema between = some (block.mask, later) ∧
        Parser.bytes (payloadSize schema block.mask) later =
          some (block.payload, rest) ∧
        block.type = UInt32.ofNat t := by
  unfold blockParser
  rw [Parser.andThen_eq_some]
  constructor
  · rintro ⟨t, between, parsedType, parsedRest⟩
    cases registered : registry.schemaOf (UInt32.ofNat t) with
    | none =>
        rw [registered] at parsedRest
        exact absurd parsedRest (by simp [Parser.fail])
    | some schema =>
        rw [registered] at parsedRest
        dsimp only at parsedRest
        rw [Parser.andThen_eq_some] at parsedRest
        obtain ⟨mask, later, parsedMask, parsedPayload⟩ := parsedRest
        obtain ⟨payload, parsedBytes, rfl⟩ := Parser.map_eq_some.mp parsedPayload
        exact ⟨t, between, schema, later, parsedType, registered, parsedMask,
          parsedBytes, rfl⟩
  · rintro ⟨t, between, schema, later, parsedType, registered, parsedMask,
      parsedBytes, typeEq⟩
    refine ⟨t, between, parsedType, ?_⟩
    rw [registered]
    dsimp only
    rw [Parser.andThen_eq_some]
    refine ⟨block.mask, later, parsedMask, ?_⟩
    rw [Parser.map_eq_some]
    refine ⟨block.payload, parsedBytes, ?_⟩
    rw [← typeEq]

/-! ## The checking walk -/

/-- Check one component and skip its payload. -/
def consumeBlock (registry : ComponentRegistry) (format : PayloadFormat) :
    Check := fun buf =>
  match buf.readU32 with
  | none => none
  | some (t, buf) =>
      match registry.schemaOf (UInt32.ofNat t) with
      | none => none
      | some schema =>
          match format.size schema buf with
          | none => none
          | some (size, buf) => buf.skip size

/-- Check a count and that many components. -/
def consumeBlocks (registry : ComponentRegistry) (format : PayloadFormat) :
    Check := fun buf =>
  match buf.readU16 with
  | none => none
  | some (count, buf) => (consumeBlock registry format).times count buf

/-- Check an id and its components. -/
def consumeRecord (registry : ComponentRegistry) (format : PayloadFormat) :
    Check := fun buf =>
  match buf.readU64 with
  | none => none
  | some (_, buf) => consumeBlocks registry format buf

/-- Walking over a block is parsing it. -/
theorem consumeBlock_passes :
    (consumeBlock registry format).Passes (blockParser registry format) := by
  intro buf input block rest remaining parsed
  obtain ⟨t, between, schema, later, parsedType, registered, parsedMask,
    parsedBytes, _⟩ := blockParser_eq_some.mp parsed
  obtain ⟨readType, afterType⟩ := BinaryBuffer.readNumber_follows 4 buf input t
    between remaining parsedType
  have readType' : buf.readU32 = some (t, buf.upTo between) := readType
  obtain ⟨fits, _, rfl⟩ := Parser.bytes_eq_some.mp parsedBytes
  have afterMask := format.mask_remaining schema (buf.upTo between) between
    block.mask later afterType parsedMask
  have size := format.size_eq schema (buf.upTo between) between block.mask later
    afterType parsedMask fits
  unfold consumeBlock
  rw [readType']
  dsimp only
  rw [registered]
  dsimp only
  rw [size]
  dsimp only
  rw [BinaryBuffer.skip_follows afterMask fits]
  exact ⟨rfl, (afterMask.advance fits).1⟩

/-- Walking over blocks is parsing them. -/
theorem consumeBlocks_passes :
    (consumeBlocks registry format).Passes (blocksParser registry format) := by
  intro buf input blocks rest remaining parsed
  obtain ⟨count, between, parsedCount, parsedBlocks⟩ :=
    Parser.andThen_eq_some.mp parsed
  obtain ⟨readCount, after⟩ := BinaryBuffer.readNumber_follows 2 buf input count
    between remaining parsedCount
  have readCount' : buf.readU16 = some (count, buf.upTo between) := readCount
  unfold consumeBlocks
  rw [readCount']
  exact consumeBlock_passes.times count (buf.upTo between) between blocks rest
    after parsedBlocks

/-- Walking over a record is parsing it. -/
theorem consumeRecord_passes :
    (consumeRecord registry format).Passes (recordParser registry format) := by
  intro buf input record rest remaining parsed
  obtain ⟨id, between, parsedId, parsedContent⟩ :=
    Parser.andThen_eq_some.mp parsed
  obtain ⟨blocks, parsedBlocks, _⟩ := Parser.map_eq_some.mp parsedContent
  obtain ⟨readId, after⟩ := BinaryBuffer.readNumber_follows 8 buf input id
    between remaining parsedId
  have readId' : buf.readU64 = some (id, buf.upTo between) := readId
  unfold consumeRecord
  rw [readId']
  exact consumeBlocks_passes (buf.upTo between) between blocks rest after
    parsedBlocks

/-! ## The checking walk with ids -/

/-- `create_entity_preassigned` would refuse the id, whatever the world. -/
def idRefused (id : UInt64) : Bool :=
  decide ((⟨id⟩ : Entity).slot = 2 ^ 32 - 1) ||
    decide ((⟨id⟩ : Entity).slot ≥ maxPreassignedSlot)

/-- An id is accepted when its slot is in range. -/
theorem idRefused_eq_false_iff (e : Entity) :
    idRefused e.id = false ↔ e.slot < maxPreassignedSlot := by
  unfold idRefused maxPreassignedSlot
  rw [Bool.or_eq_false_iff, decide_eq_false_iff_not, decide_eq_false_iff_not]
  constructor
  · rintro ⟨_, inRange⟩
    exact Nat.lt_of_not_le inRange
  · intro inRange
    refine ⟨fun isLast => ?_, Nat.not_le_of_lt inRange⟩
    have small : e.slot < 2 ^ 24 := inRange
    have atLast : e.slot = 2 ^ 32 - 1 := isLast
    omega

/-- Check a record, its id against the guard of `create_entity_preassigned` and
against the ids already seen. -/
def scanRecord (registry : ComponentRegistry) (format : PayloadFormat)
    (seen : List UInt64) (buf : BinaryBuffer) :
    Option (List UInt64 × BinaryBuffer) :=
  match buf.readU64 with
  | none => none
  | some (id, buf) =>
      if idRefused (UInt64.ofNat id) then none
      else if UInt64.ofNat id ∈ seen then none
      else
        match consumeBlocks registry format buf with
        | none => none
        | some buf => some (UInt64.ofNat id :: seen, buf)

/-- Check `count` records with pairwise different ids. -/
def scanRecords (registry : ComponentRegistry) (format : PayloadFormat) :
    Nat → List UInt64 → BinaryBuffer → Option BinaryBuffer
  | 0, _, buf => some buf
  | count + 1, seen, buf =>
      match scanRecord registry format seen buf with
      | none => none
      | some (seen, buf) => scanRecords registry format count seen buf

/-- The ids of the records can all be created, after those already seen. -/
def Admissible (records : List EntityRecord) (seen : List UInt64) : Prop :=
  (∀ record ∈ records, idRefused record.id = false ∧ record.id ∉ seen) ∧
    (records.map EntityRecord.id).Nodup

instance (records : List EntityRecord) (seen : List UInt64) :
    Decidable (Admissible records seen) :=
  inferInstanceAs (Decidable (_ ∧ _))

theorem admissible_cons
    {record : EntityRecord} {records : List EntityRecord}
    {seen : List UInt64} :
    Admissible (record :: records) seen ↔
      (idRefused record.id = false ∧ record.id ∉ seen) ∧
        Admissible records (record.id :: seen) := by
  unfold Admissible
  rw [List.map_cons, List.nodup_cons, List.forall_mem_cons]
  simp only [List.mem_cons, not_or, List.mem_map, not_exists, not_and]
  constructor
  · rintro ⟨⟨head, tail⟩, apart, once⟩
    exact ⟨head, ⟨fun later member => ⟨(tail later member).1,
      fun same => apart later member same, (tail later member).2⟩, once⟩⟩
  · rintro ⟨head, tail, once⟩
    exact ⟨⟨head, fun later member => ⟨(tail later member).1,
      (tail later member).2.2⟩⟩,
      fun later member => (tail later member).2.1, once⟩

/-- On parsable records the scan decides whether the ids are admissible. -/
theorem scanRecords_eq
    (seen : List UInt64) {count : Nat} {buf : BinaryBuffer}
    {input rest : List UInt8} {records : List EntityRecord}
    (remaining : buf.Remaining input)
    (parsed : Parser.many count (recordParser registry format) input =
      some (records, rest)) :
    scanRecords registry format count seen buf =
      (if Admissible records seen then some (buf.upTo rest) else none) ∧
    (buf.upTo rest).Remaining rest := by
  induction count generalizing seen buf input records with
  | zero =>
      rw [Parser.many, Parser.pure, Option.some.injEq, Prod.mk.injEq] at parsed
      obtain ⟨rfl, rfl⟩ := parsed
      have trivially : Admissible [] seen :=
        ⟨fun record member => absurd member List.not_mem_nil, List.nodup_nil⟩
      rw [if_pos trivially, remaining.upTo_self]
      exact ⟨rfl, remaining⟩
  | succ count inductionHypothesis =>
      obtain ⟨record, between, later, parsedRecord, parsedLater, rfl⟩ :=
        Parser.many_succ_eq_some.mp parsed
      obtain ⟨id, middle, parsedId, parsedContent⟩ :=
        Parser.andThen_eq_some.mp parsedRecord
      obtain ⟨blocks, parsedBlocks, rfl⟩ := Parser.map_eq_some.mp parsedContent
      obtain ⟨readId, afterId⟩ := BinaryBuffer.readNumber_follows 8 buf input id
        middle remaining parsedId
      have readId' : buf.readU64 = some (id, buf.upTo middle) := readId
      obtain ⟨passed, after⟩ := consumeBlocks_passes (buf.upTo middle) middle
        blocks between afterId parsedBlocks
      rw [BinaryBuffer.upTo_upTo] at passed after
      obtain ⟨scanned, last⟩ := inductionHypothesis (UInt64.ofNat id :: seen)
        after parsedLater
      rw [BinaryBuffer.upTo_upTo] at scanned last
      refine ⟨?_, last⟩
      rw [scanRecords, scanRecord, readId']
      dsimp only
      simp only [admissible_cons]
      by_cases refused : idRefused (UInt64.ofNat id) = true
      · rw [if_pos refused, if_neg]
        rintro ⟨⟨accepted, _⟩, _⟩
        rw [refused] at accepted
        exact absurd accepted (by decide)
      · rw [if_neg refused]
        by_cases repeated : UInt64.ofNat id ∈ seen
        · rw [if_pos repeated, if_neg fun both => both.1.2 repeated]
        · rw [if_neg repeated, passed]
          dsimp only
          rw [scanned]
          have accepted := Bool.eq_false_iff.mpr refused
          by_cases tail : Admissible later (UInt64.ofNat id :: seen)
          · rw [if_pos tail, if_pos ⟨⟨accepted, repeated⟩, tail⟩]
          · rw [if_neg tail, if_neg fun both => tail both.2]

/-! ## The acting walk -/

/-- Add a component, zeroed, and read its fields into the instance. -/
def receiveBlock (registry : ComponentRegistry) (format : PayloadFormat)
    (e : Entity) : Act Effect World := fun w buf =>
  match buf.readU32 with
  | none => (.pure w, none)
  | some (t, buf) =>
      match registry.schemaOf (UInt32.ofNat t) with
      | none => (.pure w, none)
      | some schema =>
          let added := w.addRaw registry e (UInt32.ofNat t) none
          match added.state.getRaw e (UInt32.ofNat t) with
          | none => (added, none)
          | some dst =>
              let (inst, cursor) := format.read schema dst buf
              (added.mapState (·.writeRaw e (UInt32.ofNat t) inst), cursor)

/-- Receive a count and that many components. -/
def receiveBlocks (registry : ComponentRegistry) (format : PayloadFormat)
    (e : Entity) : Act Effect World := fun w buf =>
  match buf.readU16 with
  | none => (.pure w, none)
  | some (count, buf) => (receiveBlock registry format e).times count w buf

/-- Create the entity of a record and receive its components. -/
def receiveRecord (registry : ComponentRegistry) (format : PayloadFormat) :
    Act Effect World := fun w buf =>
  match buf.readU64 with
  | none => (.pure w, none)
  | some (id, buf) =>
      let e := w.preassignedHandle (UInt64.ofNat id)
      let created := w.createEntityPreassigned (UInt64.ofNat id)
      if e = Entity.null then (created, none)
      else
        let received := receiveBlocks registry format e created.state buf
        (created.andThen fun _ => received.1, received.2)

/-- What receiving a block does to a world. -/
def installBlock (registry : ComponentRegistry) (e : Entity) (w : World)
    (block : ComponentBlock) : Traced Effect World :=
  match registry.schemaOf block.type with
  | none => .pure w
  | some schema =>
      (w.addRaw registry e block.type none).mapState fun v =>
        v.writeRaw e block.type (storePayload schema block.mask
          ((v.getRaw e block.type).getD []) block.payload)

/-- Write the components of a record, one after the other. -/
def installBlocks (registry : ComponentRegistry) (e : Entity) (w : World)
    (blocks : List ComponentBlock) : Traced Effect World :=
  Traced.forEach (installBlock registry e) w blocks

end VortarisECS
