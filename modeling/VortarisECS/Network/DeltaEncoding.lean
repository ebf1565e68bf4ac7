import VortarisECS.Network.Packet
import VortarisECS.Serialization.RecordEncoding

/-!
# Encoding deltas

The bytes of a delta, which the grammar reads back as the delta.
-/

namespace VortarisECS

/-- The bytes of a bucket. -/
def encodeBucket (record : BucketRecord) : List UInt8 :=
  littleEndian 1 record.bucket ++ (encodeMask record.mask ++ record.payload)

/-- The bytes of a component of a delta. -/
def encodeDeltaComponent : DeltaComponent → List UInt8
  | .whole block => encodeBlock .whole block
  | .buckets t records =>
      littleEndian 4 t.toNat ++
        (littleEndian 1 records.length ++ records.flatMap encodeBucket)

/-- The bytes of an entity of a delta. -/
def encodeDeltaEntity (entity : DeltaEntity) : List UInt8 :=
  littleEndian 8 entity.id.toNat ++
    (littleEndian 1 entity.components.length ++
      entity.components.flatMap encodeDeltaComponent)

/-- The bucket has a small index, a mask of the right length and the bytes of
exactly the selected fields. -/
structure BucketRecord.Encodable (schema : ComponentSchema)
    (record : BucketRecord) : Prop where
  counted : record.bucket < 2 ^ 8
  masked : record.mask.length = schema.fields.length
  sized : record.payload.length = payloadSize schema record.mask

/-- The component has a registered type and buckets that can be counted and
encoded. -/
def DeltaComponent.Encodable (registry : ComponentRegistry) :
    DeltaComponent → Prop
  | .whole _ => False
  | .buckets t records =>
      records.length < 2 ^ 8 ∧
        ∃ schema, registry.schemaOf t = some schema ∧
          ∀ record ∈ records, record.Encodable schema

/-- The components can be counted and encoded. -/
structure DeltaEntity.Encodable (registry : ComponentRegistry)
    (entity : DeltaEntity) : Prop where
  counted : entity.components.length < 2 ^ 8
  components : ∀ component ∈ entity.components, component.Encodable registry

variable {registry : ComponentRegistry}

/-- A bucket is read back. -/
theorem bucketParser_reads
    {schema : ComponentSchema} {record : BucketRecord}
    (encodable : record.Encodable schema) :
    (bucketParser schema).Reads (encodeBucket record) record := by
  intro rest
  have payload := Parser.reads_bytes record.payload rest
  rw [encodable.sized] at payload
  rw [bucketParser_eq_some]
  refine ⟨encodeMask record.mask ++ record.payload ++ rest,
    record.payload ++ rest, ?_, ?_, payload⟩
  · unfold encodeBucket
    rw [List.append_assoc]
    exact Parser.reads_number encodable.counted _
  · rw [List.append_assoc]
    exact maskParser_reads encodable.masked _

/-- So is a component. -/
theorem deltaComponentParser_reads
    {component : DeltaComponent} (encodable : component.Encodable registry) :
    (deltaComponentParser registry syncVersion).Reads
      (encodeDeltaComponent component) component := by
  cases component with
  | whole block => exact encodable.elim
  | buckets t records =>
      obtain ⟨counted, schema, registered, each⟩ := encodable
      have bounded : t.toNat < 256 ^ 4 := t.toNat_lt
      refine (Parser.reads_number bounded).andThen ?_
      rw [UInt32.ofNat_toNat, registered]
      have many := Parser.reads_many fun record member =>
        bucketParser_reads (each record member)
      have counting : (Parser.number 1).Reads
          (littleEndian 1 records.length) records.length :=
        Parser.reads_number counted
      exact counting.andThen (many.map (DeltaComponent.buckets t))

/-- So is an entity. -/
theorem deltaEntityParser_reads
    {entity : DeltaEntity} (encodable : entity.Encodable registry) :
    (deltaEntityParser registry syncVersion).Reads (encodeDeltaEntity entity)
      entity := by
  have bounded : entity.id.toNat < 256 ^ 8 := entity.id.toNat_lt
  have many := Parser.reads_many fun component member =>
    deltaComponentParser_reads (encodable.components component member)
  have counting : (Parser.number 1).Reads
      (littleEndian 1 entity.components.length) entity.components.length :=
    Parser.reads_number encodable.counted
  refine (Parser.reads_number bounded).andThen ?_
  rw [UInt64.ofNat_toNat]
  exact counting.andThen (many.map fun components =>
    (⟨entity.id, components⟩ : DeltaEntity))

/-- A version, a count and that many entities are a delta. -/
theorem delta_parsed
    {entities : List DeltaEntity} (small : entities.length < 2 ^ 32)
    (encodable : ∀ entity ∈ entities, entity.Encodable registry) :
    parsePacket registry .delta
        (littleEndian 2 syncVersion ++
          (littleEndian 4 entities.length ++
            entities.flatMap encodeDeltaEntity)) =
      some (.delta entities) := by
  have version : versionParser.Reads (littleEndian 2 syncVersion)
      syncVersion := by
    intro rest
    rw [versionParser_eq_some]
    exact ⟨Parser.reads_number (by decide) rest, by decide, by decide⟩
  have content : Parser.Reads
      ((Parser.number 4).andThen fun count =>
        (Parser.many count (deltaEntityParser registry syncVersion)).map
          SyncPacket.delta) _ _ :=
    (Parser.reads_number small).andThen ((Parser.reads_many
      fun entity member =>
        deltaEntityParser_reads (encodable entity member)).map _)
  exact (version.andThen content).complete

end VortarisECS
