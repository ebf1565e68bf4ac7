import VortarisECS.Core.FiniteMap
import VortarisECS.Core.Stable
import VortarisECS.Core.WorldRealizes
import VortarisECS.Serialization.EntityRecord

/-!
# Encoding entity records

The bytes of a record, which the grammar reads back as the record.
-/

namespace VortarisECS

/-- The bytes of a component. -/
def encodeBlock (format : PayloadFormat) (block : ComponentBlock) :
    List UInt8 :=
  littleEndian 4 block.type.toNat ++
    (format.encode block.mask ++ block.payload)

/-- The bytes of a list of components. -/
def encodeBlocks (format : PayloadFormat) (blocks : List ComponentBlock) :
    List UInt8 :=
  littleEndian 2 blocks.length ++ blocks.flatMap (encodeBlock format)

/-- The bytes of an entity. -/
def encodeRecord (format : PayloadFormat) (record : EntityRecord) :
    List UInt8 :=
  littleEndian 8 record.id.toNat ++ encodeBlocks format record.blocks

/-- The block has a registered type, a mask the format carries, and the bytes of
exactly the selected fields. -/
def ComponentBlock.Encodable (registry : ComponentRegistry)
    (format : PayloadFormat) (block : ComponentBlock) : Prop :=
  ∃ schema, registry.schemaOf block.type = some schema ∧
    format.carries schema block.mask ∧
    block.payload.length = payloadSize schema block.mask

/-- The blocks can be counted and encoded. -/
structure EntityRecord.Encodable (registry : ComponentRegistry)
    (format : PayloadFormat) (record : EntityRecord) : Prop where
  counted : record.blocks.length < 2 ^ 16
  blocks : ∀ block ∈ record.blocks, block.Encodable registry format

variable {registry : ComponentRegistry} {format : PayloadFormat}

/-- The parser reads a block back. -/
theorem blockParser_reads
    {block : ComponentBlock} (encodable : block.Encodable registry format) :
    (blockParser registry format).Reads (encodeBlock format block) block := by
  obtain ⟨schema, registered, carried, sized⟩ := encodable
  intro rest
  rw [blockParser_eq_some]
  have bounded : block.type.toNat < 256 ^ 4 := block.type.toNat_lt
  have payload := Parser.reads_bytes block.payload rest
  rw [sized] at payload
  refine ⟨block.type.toNat, (format.encode block.mask ++ block.payload) ++ rest,
    schema, block.payload ++ rest, ?_, ?_, ?_, payload, ?_⟩
  · unfold encodeBlock
    rw [List.append_assoc]
    exact Parser.reads_number bounded _
  · rw [UInt32.ofNat_toNat]
    exact registered
  · rw [List.append_assoc]
    exact format.mask_reads schema block.mask carried _
  · exact UInt32.ofNat_toNat.symm

/-- The parser reads the blocks of a record back. -/
theorem blocksParser_reads
    {record : EntityRecord} (encodable : record.Encodable registry format) :
    (blocksParser registry format).Reads (encodeBlocks format record.blocks)
      record.blocks :=
  (Parser.reads_number encodable.counted).andThen
    (Parser.reads_many fun block member =>
      blockParser_reads (encodable.blocks block member))

/-- The parser reads a record back. -/
theorem recordParser_reads
    {record : EntityRecord} (encodable : record.Encodable registry format) :
    (recordParser registry format).Reads (encodeRecord format record)
      record := by
  have bounded : record.id.toNat < 256 ^ 8 := record.id.toNat_lt
  have content := (blocksParser_reads encodable).map fun blocks =>
    (⟨record.id, blocks⟩ : EntityRecord)
  refine (Parser.reads_number bounded).andThen ?_
  rw [UInt64.ofNat_toNat]
  exact content

/-- Records in a row are read back in order. -/
theorem records_read
    {records : List EntityRecord}
    (encodable : ∀ record ∈ records, record.Encodable registry format) :
    (Parser.many records.length (recordParser registry format)).Reads
      (records.flatMap (encodeRecord format)) records :=
  Parser.reads_many fun record member =>
    recordParser_reads (encodable record member)

/-! ## Describing entities -/

namespace World

variable {w : World} {e : Entity} {t : ComponentTypeId}

/-- One component of an entity as a block, with the fields a mask selects. -/
def blockOf (registry : ComponentRegistry) (w : World) (e : Entity)
    (mask : ComponentTypeId → List Bool) (t : ComponentTypeId) :
    ComponentBlock where
  type := t
  mask := mask t
  payload :=
    match registry.schemaOf t, w.getRaw e t with
    | some schema, some inst =>
        encodeFields (maskedFields schema.fields (mask t)) inst
    | _, _ => []

/-- Some components of an entity as a record. -/
def recordOf (registry : ComponentRegistry) (w : World)
    (mask : ComponentTypeId → List Bool) (types : List ComponentTypeId)
    (e : Entity) : EntityRecord where
  id := e.id
  blocks := types.map (w.blockOf registry e mask)

theorem recordOf_types
    (mask : ComponentTypeId → List Bool) (types : List ComponentTypeId) :
    (w.recordOf registry mask types e).blocks.map ComponentBlock.type =
      types := by
  unfold recordOf
  rw [List.map_map]
  exact List.map_id _

/-- A component the entity has can be encoded. -/
theorem blockOf_encodable
    {mask : ComponentTypeId → List Bool} {schema : ComponentSchema}
    (registered : registry.schemaOf t = some schema)
    (carried : format.carries schema (mask t)) {inst : List UInt8}
    (found : w.getRaw e t = some inst) :
    (w.blockOf registry e mask t).Encodable registry format := by
  refine ⟨schema, registered, carried, ?_⟩
  unfold blockOf
  rw [registered, found]
  exact length_encodeFields _ _

/-- A record of registered components can be encoded. -/
theorem recordOf_encodable
    {mask : ComponentTypeId → List Bool} {types : List ComponentTypeId}
    (counted : types.length < 2 ^ 16)
    (each : ∀ t ∈ types, ∃ schema inst, registry.schemaOf t = some schema ∧
      format.carries schema (mask t) ∧ w.getRaw e t = some inst) :
    (w.recordOf registry mask types e).Encodable registry format where
  counted := by
    unfold recordOf
    rw [List.length_map]
    exact counted
  blocks block member := by
    obtain ⟨t, inTypes, rfl⟩ := List.mem_map.mp member
    obtain ⟨schema, inst, registered, carried, found⟩ := each t inTypes
    exact blockOf_encodable registered carried found

/-- What a row of an archetype holds. -/
theorem getRaw_of_row
    (consistent : w.store.Consistent registry) {p : Ptr}
    (listed : p ∈ w.store.archetypeList) {row : Nat}
    (found : (w.store.deref p).entities[row]? = some e)
    (present : t ∈ (w.store.deref p).componentIds) :
    w.getRaw e t = some (((w.store.deref p).column t).row row) := by
  have location := (consistent.located e p row).mpr ⟨listed, found⟩
  unfold getRaw
  rw [location]
  exact if_pos ⟨real_of_location consistent location,
    Archetype.hasComponent_iff.mpr present⟩

theorem getEntityComponentTypes_of_row
    (consistent : w.store.Consistent registry) {p : Ptr}
    (listed : p ∈ w.store.archetypeList)
    (member : e ∈ (w.store.deref p).entities) :
    w.getEntityComponentTypes e = (w.store.deref p).componentIds := by
  obtain ⟨r, found⟩ := List.mem_iff_getElem?.mp member
  have location := (consistent.located e p r).mpr ⟨listed, found⟩
  unfold getEntityComponentTypes
  rw [if_pos (isAlive_of_location consistent location),
    ArchetypeStore.typesOf_of_location location]
  rfl

/-- Types are listed in ascending order. -/
theorem getEntityComponentTypes_ascending
    (consistent : w.store.Consistent registry) (e : Entity) :
    (w.getEntityComponentTypes e).Pairwise (· < ·) := by
  unfold getEntityComponentTypes
  split
  · rename_i alive
    obtain ⟨loc, location⟩ := location_of_isAlive alive
    rw [ArchetypeStore.typesOf_of_location location]
    exact (consistent.archetypeOf location).ascending
  · exact List.Pairwise.nil

/-- An entity has at most as many components as there are schemas. -/
theorem getEntityComponentTypes_length_le
    (consistent : w.store.Consistent registry) (e : Entity) :
    (w.getEntityComponentTypes e).length ≤ registry.schemas.length := by
  apply ComponentRegistry.registered_length_le
  · exact (getEntityComponentTypes_ascending consistent e).imp ne_of_lt
  · intro t member
    obtain ⟨schema, _, registered, _⟩ := getRaw_of_mem_types consistent member
    rw [registered]
    rfl

end World
end VortarisECS
