import VortarisECS.Network.Packet
import VortarisECS.Serialization.WireSizes

/-!
# Accepted packets are in the grammar

The validator stops at whatever the grammar does not allow, as long as no
registered component is so large that a cursor moved over it wraps.
-/

namespace VortarisECS

/-! ## Failing parsers -/

namespace Parser

/-- Two parsers fail if the first does, or the second after it. -/
theorem andThen_eq_none
    {first : Parser α} {next : α → Parser β} {input : List UInt8} :
    first.andThen next input = none ↔
      ∀ middle between, first input = some (middle, between) →
        next middle between = none := by
  unfold andThen
  cases first input with
  | none => simp
  | some parsed =>
      constructor
      · rintro fails middle between same
        rw [Option.some.inj same] at fails
        exact fails
      · exact fun fails => fails parsed.1 parsed.2 rfl

/-- A change of the value makes no parser fail. -/
theorem map_eq_none {f : α → β} {parser : Parser α} {input : List UInt8} :
    parser.map f input = none ↔ parser input = none := by
  rw [map, andThen_eq_none]
  constructor
  · intro fails
    cases parsed : parser input with
    | none => rfl
    | some found =>
        exact absurd (fails found.1 found.2 parsed) (Option.some_ne_none _)
  · intro fails middle between found
    rw [fails] at found
    exact absurd found.symm (Option.some_ne_none _)

end Parser

/-- The check stops at what the parser cannot parse. -/
def Check.Rejects (check : Check) (parser : Parser α) : Prop :=
  ∀ buf input, buf.Remaining input → buf.data.length < vectorLimit →
    parser input = none → check buf = none

/-- A number that cannot be parsed is not read. -/
theorem BinaryBuffer.readNumber_eq_none
    {buf : BinaryBuffer} {input : List UInt8} (remaining : buf.Remaining input)
    {width : Nat} (fails : Parser.number width input = none) :
    buf.readNumber width = none := by
  have few : ¬width ≤ input.length := by
    intro fits
    unfold Parser.number at fails
    rw [if_pos fits] at fails
    exact absurd fails nofun
  have lengthEq := remaining.length_eq
  rw [readNumber, size, if_pos (by omega)]

namespace Check.Rejects

/-- Read a number and check what follows it. -/
theorem number
    {width : Nat} {check : Nat → Check} {parser : Nat → Parser α}
    (rejects : ∀ value, (check value).Rejects (parser value)) :
    Check.Rejects
      (fun buf =>
        match buf.readNumber width with
        | none => none
        | some (value, buf) => check value buf)
      ((Parser.number width).andThen parser) := by
  intro buf input remaining short fails
  rw [Parser.andThen_eq_none] at fails
  dsimp only
  cases parsed : Parser.number width input with
  | none => rw [BinaryBuffer.readNumber_eq_none remaining parsed]
  | some found =>
      obtain ⟨read, after⟩ := BinaryBuffer.readNumber_follows width buf input
        found.1 found.2 remaining parsed
      dsimp only at read
      rw [read]
      exact rejects found.1 _ found.2 after short
        (fails found.1 found.2 parsed)

/-- Values do not matter for rejecting. -/
theorem map {check : Check} {parser : Parser α} (rejects : check.Rejects parser)
    (f : α → β) : check.Rejects (parser.map f) :=
  fun buf input remaining short fails =>
    rejects buf input remaining short (Parser.map_eq_none.mp fails)

/-- Repeat a check. -/
theorem times
    {check : Check} {parser : Parser α} (rejects : check.Rejects parser)
    (passes : check.Passes parser) (count : Nat) :
    Check.Rejects (check.times count) (Parser.many count parser) := by
  induction count with
  | zero => exact fun buf input _ _ fails => absurd fails nofun
  | succ count inductionHypothesis =>
      intro buf input remaining short fails
      rw [Parser.many, Parser.andThen_eq_none] at fails
      rw [Check.times]
      cases parsed : parser input with
      | none => rw [rejects buf input remaining short parsed, Option.bind_none]
      | some found =>
          obtain ⟨passed, after⟩ := passes buf input found.1 found.2 remaining
            parsed
          rw [passed, Option.bind_some]
          exact inductionHypothesis _ found.2 after short
            (Parser.map_eq_none.mp (fails found.1 found.2 parsed))

end Check.Rejects

/-! ## Sizes that do not wrap -/

/-- No registered component takes more bytes on the wire than a vector holds. -/
def ComponentRegistry.WireSizesFit (registry : ComponentRegistry) : Prop :=
  ∀ t schema, registry.schemaOf t = some schema →
    wireSize schema.fields ≤ vectorLimit

/-- Components of one byte are small enough. -/
theorem healthRegistry_fits :
    ComponentRegistry.healthRegistry.WireSizesFit := by
  intro t schema registered
  have small : ∀ schema ∈ ComponentRegistry.healthRegistry.schemas,
      wireSize schema.fields ≤ vectorLimit := by decide +kernel
  exact small schema
    (ComponentRegistry.mem_schemas_of_schemaOf registered)

section Sizes

variable {schema : ComponentSchema} {buf : BinaryBuffer} {input : List UInt8}

/-- A mask selects no more than there is. -/
theorem payloadSize_le (schema : ComponentSchema) (mask : List Bool) :
    payloadSize schema mask ≤ wireSize schema.fields :=
  ((maskedFields_sublist schema.fields mask).map fieldSize).sum_le_sum
    fun _ _ => Nat.zero_le _

/-- More bytes than there are cannot be skipped. -/
theorem skip_rejects
    (remaining : buf.Remaining input) (short : buf.data.length < vectorLimit)
    {count : Nat} (fit : count ≤ vectorLimit) (few : input.length < count) :
    buf.skip count = none := by
  have lengthEq := remaining.length_eq
  have noWrap : buf.pos + count < sizeLimit := by
    unfold vectorLimit at short fit
    unfold sizeLimit
    omega
  rw [BinaryBuffer.skip, BinaryBuffer.size, sizeT_of_lt noWrap,
    if_pos (by omega)]

/-- Skipping a payload follows taking it. -/
theorem skip_eq_none_of_bytes
    (remaining : buf.Remaining input) (short : buf.data.length < vectorLimit)
    {count : Nat} (fit : count ≤ vectorLimit)
    (fails : Parser.bytes count input = none) : buf.skip count = none := by
  refine skip_rejects remaining short fit (Nat.lt_of_not_le fun fits => ?_)
  unfold Parser.bytes at fails
  rw [if_pos fits] at fails
  exact absurd fails nofun

/-- A mask that is cut off is not read. -/
theorem readMaskBytes_rejects
    (remaining : buf.Remaining input) {count : Nat}
    (fails : Parser.many count (Parser.number 1) input = none) :
    readMaskBytes count buf = none := by
  induction count generalizing buf input with
  | zero => exact absurd fails nofun
  | succ count inductionHypothesis =>
      rw [Parser.many, Parser.andThen_eq_none] at fails
      rw [readMaskBytes, BinaryBuffer.readU8]
      cases parsed : Parser.number 1 input with
      | none => rw [BinaryBuffer.readNumber_eq_none remaining parsed]
      | some found =>
          obtain ⟨read, after⟩ := BinaryBuffer.readNumber_follows 1 buf input
            found.1 found.2 remaining parsed
          dsimp only at read
          rw [read]
          dsimp only
          rw [inductionHypothesis after
            (Parser.map_eq_none.mp (fails found.1 found.2 parsed))]
          rfl

theorem readFieldMask_rejects
    (remaining : buf.Remaining input) {fieldCount : Nat}
    (fails : maskParser fieldCount input = none) :
    readFieldMask buf fieldCount = none := by
  rw [readFieldMask,
    readMaskBytes_rejects remaining (Parser.map_eq_none.mp fails)]
  rfl

/-- A bucket that cannot be parsed is rejected. -/
theorem consumeBucket_rejects (fit : wireSize schema.fields ≤ vectorLimit) :
    (consumeBucket schema).Rejects (bucketParser schema) := by
  refine Check.Rejects.number fun bucket buf input remaining short fails => ?_
  rw [Parser.andThen_eq_none] at fails
  cases parsed : maskParser schema.fields.length input with
  | none => rw [readFieldMask_rejects remaining parsed]
  | some found =>
      obtain ⟨read, after⟩ := readFieldMask_follows schema.fields.length buf
        input found.1 found.2 remaining parsed
      dsimp only at read
      rw [read]
      dsimp only
      have small := (payloadSize_le schema found.1).trans fit
      rw [serializedComponentFieldsSize, fieldsSize_eq_wireSize
        (lt_of_le_of_lt small (by decide))]
      exact skip_eq_none_of_bytes after short small
        (Parser.map_eq_none.mp (fails found.1 found.2 parsed))

/-- The size a format computes is that of the payload behind the mask. -/
theorem ofVersion_size_eq
    (fit : wireSize schema.fields ≤ vectorLimit) (version : Nat)
    (remaining : buf.Remaining input) :
    (PayloadFormat.ofVersion version).size schema buf =
      ((PayloadFormat.ofVersion version).mask schema input).map fun found =>
        (payloadSize schema found.1, buf.upTo found.2) := by
  have small : wireSize schema.fields < sizeLimit :=
    lt_of_le_of_lt fit (by decide)
  unfold PayloadFormat.ofVersion
  split
  · dsimp only [PayloadFormat.whole, Parser.pure]
    rw [Option.map_some, payloadSize, maskedFields_nil_mask,
      serializedComponentSize, fieldsSize_eq_wireSize small,
      remaining.upTo_self]
  · dsimp only [PayloadFormat.masked]
    cases parsed : maskParser schema.fields.length input with
    | none =>
        rw [readFieldMask_rejects remaining parsed]
        rfl
    | some found =>
        obtain ⟨read, _⟩ := readFieldMask_follows schema.fields.length buf
          input found.1 found.2 remaining parsed
        dsimp only at read
        rw [read]
        dsimp only
        rw [serializedComponentFieldsSize, fieldsSize_eq_wireSize
          (lt_of_le_of_lt (payloadSize_le schema found.1) small)]
        rfl

end Sizes

/-! ## The walks of the validator -/

section Walks

variable {registry : ComponentRegistry} {version : Nat}

/-- So is a component. -/
theorem consumeBlock_rejects (fit : registry.WireSizesFit) :
    (consumeBlock registry (.ofVersion version)).Rejects
      (blockParser registry (.ofVersion version)) := by
  refine Check.Rejects.number fun t buf input remaining short fails => ?_
  cases registered : registry.schemaOf (UInt32.ofNat t) with
  | none => rfl
  | some schema =>
      rw [registered] at fails
      dsimp only at fails ⊢
      rw [Parser.andThen_eq_none] at fails
      rw [ofVersion_size_eq (fit _ schema registered) version remaining]
      cases parsed : (PayloadFormat.ofVersion version).mask schema input with
      | none => rfl
      | some found =>
          have after := (PayloadFormat.ofVersion version).mask_remaining schema
            buf input found.1 found.2 remaining parsed
          exact skip_eq_none_of_bytes after short
            ((payloadSize_le schema found.1).trans (fit _ schema registered))
            (Parser.map_eq_none.mp (fails found.1 found.2 parsed))

/-- So is a record. -/
theorem consumeRecord_rejects (fit : registry.WireSizesFit) :
    (consumeRecord registry (.ofVersion version)).Rejects
      (recordParser registry (.ofVersion version)) := by
  refine Check.Rejects.number fun id => .map ?_ _
  exact Check.Rejects.number fun count =>
    (consumeBlock_rejects fit).times consumeBlock_passes count

/-- So is an entity of a delta. -/
theorem consumeDeltaEntity_rejects (fit : registry.WireSizesFit) :
    (consumeDeltaEntity registry version).Rejects
      (deltaEntityParser registry version) := by
  refine Check.Rejects.number fun id => Check.Rejects.number fun count =>
    .map (Check.Rejects.times ?_ consumeDeltaComponent_passes count) _
  unfold consumeDeltaComponent deltaComponentParser
  split
  · rename_i isFirst
    have rejects : (consumeBlock registry (.ofVersion version)).Rejects
        (blockParser registry (.ofVersion version)) := consumeBlock_rejects fit
    unfold PayloadFormat.ofVersion at rejects
    rw [if_pos isFirst] at rejects
    exact rejects.map _
  · refine Check.Rejects.number fun t buf input remaining short fails => ?_
    cases registered : registry.schemaOf (UInt32.ofNat t) with
    | none => rfl
    | some schema =>
        rw [registered] at fails
        have counted : Check.Rejects
            (fun buf =>
              match buf.readNumber 1 with
              | none => none
              | some (count, buf) => (consumeBucket schema).times count buf)
            ((Parser.number 1).andThen fun count =>
              (Parser.many count (bucketParser schema)).map
                (DeltaComponent.buckets (UInt32.ofNat t))) :=
          Check.Rejects.number fun count =>
            ((consumeBucket_rejects (fit _ schema registered)).times
              consumeBucket_passes count).map _
        exact counted buf input remaining short fails

/-- Read the version and check what follows it. -/
theorem readSyncVersion_rejects
    {check : Nat → Check} {parser : Nat → Parser α}
    (rejects : ∀ version, (check version).Rejects (parser version)) :
    Check.Rejects
      (fun buf =>
        match readSyncVersion buf with
        | none => none
        | some (version, buf) => check version buf)
      (versionParser.andThen parser) := by
  intro buf input remaining short fails
  rw [Parser.andThen_eq_none] at fails
  dsimp only
  cases parsed : versionParser input with
  | none =>
      have stops : readSyncVersion buf = none := by
        unfold versionParser at parsed
        rw [Parser.andThen_eq_none] at parsed
        unfold readSyncVersion
        rw [BinaryBuffer.readU16]
        cases parsedNumber : Parser.number 2 input with
        | none => rw [BinaryBuffer.readNumber_eq_none remaining parsedNumber]
        | some found =>
            obtain ⟨read, _⟩ := BinaryBuffer.readNumber_follows 2 buf input
              found.1 found.2 remaining parsedNumber
            have checked := parsed found.1 found.2 parsedNumber
            dsimp only at read
            rw [read]
            dsimp only
            split at checked
            · rename_i outside
              exact if_pos outside
            · exact absurd checked nofun
      rw [stops]
  | some found =>
      obtain ⟨read, after⟩ := readSyncVersion_follows buf input found.1 found.2
        remaining parsed
      rw [read]
      exact rejects found.1 _ found.2 after short
        (fails found.1 found.2 parsed)

/-- So is every packet. -/
theorem consumePacket_rejects
    (fit : registry.WireSizesFit) (kind : SyncPacketKind) :
    (consumePacket registry kind).Rejects (packetParser registry kind) := by
  cases kind with
  | despawn =>
      intro buf input remaining short fails
      change (buf.readNumber 8).map Prod.snd = none
      rw [BinaryBuffer.readNumber_eq_none remaining (Parser.map_eq_none.mp fails)]
      rfl
  | spawn =>
      exact readSyncVersion_rejects fun version =>
        (consumeRecord_rejects fit).map _
  | fullState =>
      exact readSyncVersion_rejects fun version => Check.Rejects.number
        fun count => ((consumeRecord_rejects fit).times consumeRecord_passes
          count).map _
  | delta =>
      exact readSyncVersion_rejects fun version => Check.Rejects.number
        fun count => ((consumeDeltaEntity_rejects fit).times
          consumeDeltaEntity_passes count).map _

/-- An accepted packet is in the grammar. -/
theorem parsed_of_validatePacket
    (fit : registry.WireSizesFit) {kind : SyncPacketKind} {data : List UInt8}
    (inMemory : data.length < vectorLimit)
    (accepted : validatePacket registry kind data = true) :
    ∃ packet, parsePacket registry kind data = some packet := by
  have remaining : BinaryBuffer.Remaining ⟨data, 0⟩ data :=
    BinaryBuffer.remaining_start (inMemory.trans (by decide))
  unfold validatePacket at accepted
  cases parsed : packetParser registry kind data with
  | none =>
      rw [consumePacket_rejects fit kind _ data remaining inMemory parsed]
        at accepted
      exact absurd accepted nofun
  | some found =>
      obtain ⟨passed, after⟩ := consumePacket_passes kind _ data found.1 found.2
        remaining parsed
      rw [passed] at accepted
      refine ⟨found.1, Parser.complete_eq_some.mpr ?_⟩
      rw [parsed, ← after.atEnd_iff.mp accepted]

end Walks

end VortarisECS
