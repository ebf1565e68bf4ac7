import VortarisECS.Network.DeltaInstall

/-!
# The scratch buffer of discarded records

A record of a delta for an entity that is dead here is read into a scratch
buffer, to move the cursor over it.  The buffer outlives the packet and only
grows, to the number of bytes the record's fields have on the wire, while the
reader puts every field at its place in the component.
-/

namespace VortarisECS

/-- The fields that are read before the buffer runs out. -/
def fieldsRead : List FieldDescriptor → BinaryBuffer → List FieldDescriptor
  | [], _ => []
  | fd :: fields, buf =>
      match readField fd [] buf with
      | none => []
      | some (_, buf) => fd :: fieldsRead fields buf

/-- A discarded record: the size of the scratch buffer it is read into, the
size of its fields on the wire, and the fields that are read. -/
structure Discard where
  scratch : Nat
  wireSize : Nat
  fields : List FieldDescriptor
  deriving DecidableEq, Repr

namespace Discard

/-- The bytes `deserialize_component_fields` writes. -/
def Writes (discard : Discard) (byte : Nat) : Prop :=
  ∃ fd ∈ discard.fields, fd.offset ≤ byte ∧ byte < fd.offset + fieldSize fd

/-- The fields that are read end within `room` bytes. -/
def EndsWithin (discard : Discard) (room : Nat) : Prop :=
  ∀ fd ∈ discard.fields, fieldSize fd = 0 ∨ fd.offset + fieldSize fd ≤ room

instance (discard : Discard) (room : Nat) :
    Decidable (discard.EndsWithin room) :=
  List.decidableBAll _ _

/-- No record has a field that ends behind the largest size on the wire of the
records up to it. -/
def AllEndWithin : Nat → List Discard → Prop
  | _, [] => True
  | room, discard :: discards =>
      discard.EndsWithin (max room discard.wireSize) ∧
        AllEndWithin (max room discard.wireSize) discards

instance decidableAllEndWithin :
    ∀ (room : Nat) (discards : List Discard),
      Decidable (AllEndWithin room discards)
  | _, [] => inferInstanceAs (Decidable True)
  | room, discard :: discards =>
      have := decidableAllEndWithin (max room discard.wireSize) discards
      inferInstanceAs (Decidable (_ ∧ _))

end Discard

namespace Client

/-! ## The branch -/

/-- Read one bucket into the scratch buffer, grown to what the bucket has on the
wire. -/
def discardIntoScratch (schema : ComponentSchema) : Act Discard Nat :=
  fun scratch buf =>
    match buf.readU8 with
    | none => (.pure scratch, none)
    | some (_, buf) =>
        match readFieldMask buf schema.fields.length with
        | none => (.pure scratch, none)
        | some (mask, buf) =>
            let sz := serializedComponentFieldsSize schema mask
            if sizeT (buf.pos + sz) > buf.size then (.pure scratch, none)
            else
              let scratch := max scratch sz
              (⟨scratch,
                [⟨scratch, sz, fieldsRead (maskedFields schema.fields mask) buf⟩]⟩,
                (deserializeComponentFields schema [] buf mask).2)

/-- The buckets of a component of a dead entity. -/
def discardBuckets (registry : ComponentRegistry) : Act Discard Nat :=
  fun scratch buf =>
    match buf.readU32 with
    | none => (.pure scratch, none)
    | some (t, buf) =>
        match registry.schemaOf (UInt32.ofNat t) with
        | none => (.pure scratch, none)
        | some schema =>
            match buf.readU8 with
            | none => (.pure scratch, none)
            | some (count, buf) =>
                (discardIntoScratch schema).times count scratch buf

/-- One component of a delta, with the scratch buffer. -/
def applyDeltaComponentScratch (registry : ComponentRegistry) (version : Nat)
    (e : Entity) : Act Discard (World × Nat) := fun st buf =>
  if version = 1 ∨ st.1.isAlive e = true then
    let (step, cursor) := applyDeltaComponent registry version e st.1 buf
    (.pure (step.state, st.2), cursor)
  else
    let (step, cursor) := discardBuckets registry st.2 buf
    (⟨(st.1, step.state), step.effects⟩, cursor)

/-- One entity of a delta, with the scratch buffer. -/
def applyDeltaEntityScratch (registry : ComponentRegistry) (version : Nat) :
    Act Discard (Client × Nat) := fun st buf =>
  match buf.readU64 with
  | none => (.pure st, none)
  | some (id, buf) =>
      let e : Entity := ⟨UInt64.ofNat id⟩
      match buf.readU8 with
      | none => (.pure st, none)
      | some (count, buf) =>
          let (step, cursor) := (applyDeltaComponentScratch registry version
            e).times count (st.1.world, st.2) buf
          let c : Client := { st.1 with world := step.state.1 }
          if cursor.isSome ∧ c.world.isAlive e then
            (⟨(c.track e, step.state.2), step.effects⟩, cursor)
          else (⟨(c, step.state.2), step.effects⟩, cursor)

/-- `apply_delta`, from a size of the scratch buffer on: the records it
discards. -/
def applyDeltaScratch (registry : ComponentRegistry) (c : Client)
    (scratch : Nat) (data : List UInt8) : Traced Discard (Client × Nat) :=
  match readSyncVersion ⟨data, 0⟩ with
  | none => .pure (c, scratch)
  | some (version, buf) =>
      match buf.readU32 with
      | none => .pure (c, scratch)
      | some (count, buf) =>
          ((applyDeltaEntityScratch registry version).times count (c, scratch)
            buf).1

/-- Every byte written while a record is discarded is inside the scratch
buffer. -/
def DiscardsInBounds (registry : ComponentRegistry) (c : Client)
    (scratch : Nat) (data : List UInt8) : Prop :=
  ∀ discard ∈ (c.applyDeltaScratch registry scratch data).effects,
    ∀ byte, discard.Writes byte → byte < discard.scratch

end Client

/-! ## The size of the scratch buffer -/

namespace Discard

/-- The records are read into a buffer that starts with `room` bytes and ends
with `last`, and grows to what each of them has on the wire. -/
def Grows : Nat → List Discard → Nat → Prop
  | room, [], last => last = room
  | room, discard :: discards, last =>
      discard.scratch = max room discard.wireSize ∧
        Grows discard.scratch discards last

/-- A buffer that grows and grows again. -/
theorem Grows.append
    {room between last : Nat} {first later : List Discard}
    (grows : Grows room first between) (growsLater : Grows between later last) :
    Grows room (first ++ later) last := by
  induction first generalizing room with
  | nil => exact grows ▸ growsLater
  | cons discard first inductionHypothesis =>
      exact ⟨grows.1, inductionHypothesis grows.2⟩

/-- A record ends within a room exactly if it writes nothing behind it. -/
theorem endsWithin_iff (discard : Discard) (room : Nat) :
    discard.EndsWithin room ↔ ∀ byte, discard.Writes byte → byte < room := by
  constructor
  · rintro ends byte ⟨fd, member, atLeast, below⟩
    obtain none | within := ends fd member <;> omega
  · intro inside fd member
    by_cases empty : fieldSize fd = 0
    · exact .inl empty
    · -- the last byte of the field
      have last := inside (fd.offset + fieldSize fd - 1)
        ⟨fd, member, by omega, by omega⟩
      exact .inr (by omega)

/-- A buffer that grows as it should is never too small exactly if all records end
within it. -/
theorem Grows.inBounds_iff
    {room last : Nat} {discards : List Discard}
    (grows : Grows room discards last) :
    (∀ discard ∈ discards, ∀ byte, discard.Writes byte →
        byte < discard.scratch) ↔ AllEndWithin room discards := by
  induction discards generalizing room with
  | nil => exact iff_of_true (fun _ none => absurd none List.not_mem_nil) trivial
  | cons discard discards inductionHypothesis =>
      rw [List.forall_mem_cons, inductionHypothesis grows.2, ← endsWithin_iff,
        AllEndWithin, ← grows.1]

end Discard

namespace Client

variable {registry : ComponentRegistry}

/-- The act reads the records it discards into a scratch buffer that grows. -/
def GrowsScratch (act : Act Discard σ) (scratch : σ → Nat) : Prop :=
  ∀ st buf, Discard.Grows (scratch st) (act st buf).1.effects
    (scratch (act st buf).1.state)

/-- Acts that grow the buffer, one after the other. -/
theorem GrowsScratch.times
    {act : Act Discard σ} {scratch : σ → Nat}
    (grows : GrowsScratch act scratch) (count : Nat) :
    GrowsScratch (act.times count) scratch := by
  induction count with
  | zero => exact fun _ _ => rfl
  | succ count inductionHypothesis =>
      intro st buf
      have first := grows st buf
      unfold Act.times
      cases acted : act st buf with
      | mk step cursor =>
          rw [acted] at first
          cases cursor with
          | none => exact first
          | some buf => exact first.append (inductionHypothesis step.state buf)

/-- A bucket grows the buffer. -/
theorem discardIntoScratch_grows (schema : ComponentSchema) :
    GrowsScratch (discardIntoScratch schema) id := by
  intro scratch buf
  unfold discardIntoScratch
  split
  · rfl
  · split
    · rfl
    · dsimp only
      split
      · rfl
      · exact ⟨rfl, rfl⟩

theorem discardBuckets_grows :
    GrowsScratch (discardBuckets registry) id := by
  intro scratch buf
  unfold discardBuckets
  split
  · rfl
  · split
    · rfl
    · split
      · rfl
      · exact (discardIntoScratch_grows _).times _ _ _

theorem applyDeltaComponentScratch_grows (version : Nat) (e : Entity) :
    GrowsScratch (applyDeltaComponentScratch registry version e) Prod.snd := by
  intro st buf
  unfold applyDeltaComponentScratch
  split
  · rfl
  · exact discardBuckets_grows st.2 buf

theorem applyDeltaEntityScratch_grows (version : Nat) :
    GrowsScratch (applyDeltaEntityScratch registry version) Prod.snd := by
  intro st buf
  unfold applyDeltaEntityScratch
  split
  · rfl
  · dsimp only
    split
    · rfl
    · split <;> exact (applyDeltaComponentScratch_grows version _).times _
        (st.1.world, st.2) _

/-- While a delta is applied, what is written for dead entities stays inside the
scratch buffer exactly if no discarded record has a field that ends behind the
largest size on the wire so far. -/
theorem inBounds_iff_allEndWithin
    (c : Client) (scratch : Nat) (data : List UInt8) :
    c.DiscardsInBounds registry scratch data ↔
      Discard.AllEndWithin scratch
        (c.applyDeltaScratch registry scratch data).effects := by
  have grows : ∃ last, Discard.Grows scratch
      (c.applyDeltaScratch registry scratch data).effects last := by
    unfold applyDeltaScratch
    split
    · exact ⟨scratch, rfl⟩
    · split
      · exact ⟨scratch, rfl⟩
      · exact ⟨_, (applyDeltaEntityScratch_grows _).times _ (c, scratch) _⟩
  obtain ⟨last, grows⟩ := grows
  exact grows.inBounds_iff

/-! ## The branch discards what the applier discards -/

/-- An act that carries the scratch buffer along does what the act does. -/
def Carries (act : Act Discard (σ × Nat)) (plain : Act ε σ) : Prop :=
  ∀ st buf, (act st buf).2 = (plain st.1 buf).2 ∧
    (act st buf).1.state.1 = (plain st.1 buf).1.state

/-- Acts that carry the buffer along, one after the other. -/
theorem Carries.times
    {act : Act Discard (σ × Nat)} {plain : Act ε σ}
    (carries : Carries act plain) (count : Nat) :
    Carries (act.times count) (plain.times count) := by
  induction count with
  | zero => exact fun _ _ => ⟨rfl, rfl⟩
  | succ count inductionHypothesis =>
      intro st buf
      obtain ⟨sameCursor, sameState⟩ := carries st buf
      unfold Act.times
      cases acted : act st buf with
      | mk step cursor =>
          cases plainly : plain st.1 buf with
          | mk plainStep plainCursor =>
              rw [acted, plainly] at sameCursor sameState
              dsimp only at sameCursor sameState
              subst sameCursor
              cases cursor with
              | none => exact ⟨rfl, sameState⟩
              | some buf =>
                  obtain ⟨later, last⟩ := inductionHypothesis step.state buf
                  rw [sameState] at later last
                  exact ⟨later, last⟩

/-- The buffer does not matter for the cursor. -/
theorem discardIntoScratch_times_cursor
    (schema : ComponentSchema) (count scratch : Nat) (buf : BinaryBuffer) :
    ((discardIntoScratch schema).times count scratch buf).2 =
      (discardBucket schema).times count buf := by
  induction count generalizing scratch buf with
  | zero => rfl
  | succ count inductionHypothesis =>
      have first : (discardIntoScratch schema scratch buf).2 =
          discardBucket schema buf := by
        unfold discardIntoScratch discardBucket
        cases buf.readU8 with
        | none => rfl
        | some read =>
            dsimp only
            cases readFieldMask read.2 schema.fields.length with
            | none => rfl
            | some masked =>
                dsimp only
                split <;> rfl
      unfold Act.times Check.times
      rw [← first]
      cases discardIntoScratch schema scratch buf with
      | mk step cursor =>
          cases cursor with
          | none => rfl
          | some buf => exact inductionHypothesis step.state buf

variable (registry) in
/-- A component carries the buffer along. -/
theorem applyDeltaComponentScratch_carries (version : Nat) (e : Entity) :
    Carries (applyDeltaComponentScratch registry version e)
      (applyDeltaComponent registry version e) := by
  intro st buf
  unfold applyDeltaComponentScratch
  split
  · exact ⟨rfl, rfl⟩
  · rename_i dead
    rw [not_or] at dead
    unfold applyDeltaComponent applyBuckets discardBuckets
    rw [if_neg dead.1]
    cases buf.readU32 with
    | none => exact ⟨rfl, rfl⟩
    | some read =>
        dsimp only
        cases registry.schemaOf (UInt32.ofNat read.1) with
        | none => exact ⟨rfl, rfl⟩
        | some schema =>
            dsimp only
            cases read.2.readU8 with
            | none => exact ⟨rfl, rfl⟩
            | some counted =>
                dsimp only
                rw [if_neg dead.2]
                exact ⟨discardIntoScratch_times_cursor _ _ _ _, rfl⟩

/-- So does an entity. -/
theorem applyDeltaEntityScratch_carries (version : Nat) :
    Carries (applyDeltaEntityScratch registry version)
      (applyDeltaEntity registry version) := by
  intro st buf
  unfold applyDeltaEntityScratch applyDeltaEntity
  cases buf.readU64 with
  | none => exact ⟨rfl, rfl⟩
  | some read =>
      dsimp only
      cases read.2.readU8 with
      | none => exact ⟨rfl, rfl⟩
      | some counted =>
          dsimp only
          obtain ⟨sameCursor, sameState⟩ :=
            (applyDeltaComponentScratch_carries registry version
              ⟨UInt64.ofNat read.1⟩).times counted.1 (st.1.world, st.2)
              counted.2
          rw [sameCursor, sameState]
          split <;> exact ⟨rfl, rfl⟩

/-- The records are discarded while the delta is applied. -/
theorem applyDeltaScratch_client
    (c : Client) (scratch : Nat) (data : List UInt8) :
    (c.applyDeltaScratch registry scratch data).state.1 =
      (c.applyDelta registry data).state := by
  unfold applyDeltaScratch applyDelta walkDelta
  cases readSyncVersion ⟨data, 0⟩ with
  | none => rfl
  | some read =>
      dsimp only
      cases read.2.readU32 with
      | none => rfl
      | some counted => exact ((applyDeltaEntityScratch_carries read.1).times
          counted.1 (c, scratch) counted.2).2

/-! ## The records of a delta in the grammar -/

/-- Fields that fit are all read. -/
theorem fieldsRead_of_remaining
    {buf : BinaryBuffer} {input : List UInt8} (remaining : buf.Remaining input)
    {fields : List FieldDescriptor} (fits : wireSize fields ≤ input.length) :
    fieldsRead fields buf = fields := by
  induction fields generalizing buf input with
  | nil => rfl
  | cons fd fields inductionHypothesis =>
      have split : wireSize (fd :: fields) =
          fieldSize fd + wireSize fields := rfl
      rw [split] at fits
      have headFits : fieldSize fd ≤ input.length := by omega
      obtain ⟨after, _⟩ := remaining.advance headFits
      rw [fieldsRead, readField_of_remaining remaining headFits]
      dsimp only
      rw [inductionHypothesis after (by rw [List.length_drop]; omega)]

/-- A bucket of a dead entity. -/
def discardRecord (schema : ComponentSchema) (scratch : Nat)
    (record : BucketRecord) : Traced Discard Nat :=
  let room := max scratch (payloadSize schema record.mask)
  ⟨room, [⟨room, payloadSize schema record.mask,
    maskedFields schema.fields record.mask⟩]⟩

/-- A component of a delta, with the scratch buffer. -/
def discardComponent (registry : ComponentRegistry) (e : Entity)
    (st : World × Nat) (component : DeltaComponent) :
    Traced Discard (World × Nat) :=
  match component with
  | .buckets t records =>
      match st.1.isAlive e, registry.schemaOf t with
      | false, some schema =>
          let step := Traced.forEach (discardRecord schema) st.2 records
          ⟨(st.1, step.state), step.effects⟩
      | _, _ => .pure ((st.1.installDelta registry e component).state, st.2)
  | .whole _ => .pure ((st.1.installDelta registry e component).state, st.2)

/-- An entity of a delta, with the scratch buffer. -/
def discardEntity (registry : ComponentRegistry) (st : Client × Nat)
    (entity : DeltaEntity) : Traced Discard (Client × Nat) :=
  let step := Traced.forEach (discardComponent registry ⟨entity.id⟩)
    (st.1.world, st.2) entity.components
  ⟨((st.1.installDeltaEntity registry entity).state, step.state.2),
    step.effects⟩

/-- A bucket is discarded as it is parsed. -/
theorem discardIntoScratch_performs (schema : ComponentSchema) :
    (discardIntoScratch schema).Performs (fun _ _ => True)
      (bucketParser schema) (discardRecord schema) := by
  intro scratch buf input record rest _ remaining parsed
  obtain ⟨between, later, parsedBucket, parsedMask, parsedBytes⟩ :=
    bucketParser_eq_some.mp parsed
  obtain ⟨readBucket, afterBucket⟩ := BinaryBuffer.readNumber_follows 1 buf
    input record.bucket between remaining parsedBucket
  have readBucket' : buf.readU8 = some (_, buf.upTo between) := readBucket
  obtain ⟨readMask, afterMask⟩ := readFieldMask_follows schema.fields.length
    (buf.upTo between) between record.mask later afterBucket parsedMask
  dsimp only at readMask
  obtain ⟨fits, _, rfl⟩ := Parser.bytes_eq_some.mp parsedBytes
  have lengthEq := afterMask.length_eq
  have inMemory := afterMask.inMemory
  refine ⟨?_, (afterMask.advance fits).1⟩
  unfold discardIntoScratch
  rw [readBucket']
  dsimp only
  rw [readMask]
  dsimp only
  rw [serializedComponentFieldsSize_eq afterMask fits,
    sizeT_of_lt (by omega), if_neg (by unfold BinaryBuffer.size; omega)]
  unfold payloadSize at fits
  rw [fieldsRead_of_remaining afterMask fits, deserializeComponentFields,
    readFields_of_remaining afterMask fits]
  rfl

/-- Nothing is discarded for an entity that is alive. -/
theorem discardComponent_alive
    {e : Entity} {st : World × Nat} (alive : st.1.isAlive e = true)
    (component : DeltaComponent) :
    discardComponent registry e st component =
      .pure ((st.1.installDelta registry e component).state, st.2) := by
  unfold discardComponent
  cases component with
  | whole block => rfl
  | buckets t records =>
      dsimp only
      rw [alive]

variable (registry) in
/-- A component is discarded as it is parsed. -/
theorem applyDeltaComponentScratch_performs (version : Nat) (e : Entity) :
    (applyDeltaComponentScratch registry version e).Performs
      (fun st _ => st.1.AtRest registry)
      (deltaComponentParser registry version) (discardComponent registry e) := by
  intro st buf input component rest atRest remaining parsed
  obtain ⟨applied, last⟩ := applyDeltaComponent_performs version e st.1 buf
    input component rest atRest remaining parsed
  refine ⟨?_, last⟩
  unfold applyDeltaComponentScratch
  split <;> rename_i reads
  · rw [applied]
    suffices discardComponent registry e st component =
        .pure ((st.1.installDelta registry e component).state, st.2) by
      rw [this]
    obtain isFirst | alive := reads
    · unfold deltaComponentParser at parsed
      rw [if_pos isFirst] at parsed
      obtain ⟨block, _, rfl⟩ := Parser.map_eq_some.mp parsed
      rfl
    · exact discardComponent_alive alive component
  · rw [not_or, Bool.not_eq_true] at reads
    unfold deltaComponentParser at parsed
    rw [if_neg reads.1] at parsed
    obtain ⟨t, between, schema, count, later, records, parsedType, registered,
      parsedCount, parsedRecords, rfl⟩ := bucketsParser_eq_some.mp parsed
    obtain ⟨readType, afterType⟩ := BinaryBuffer.readNumber_follows 4 buf input
      t between remaining parsedType
    have readType' : buf.readU32 = some (t, buf.upTo between) := readType
    obtain ⟨readCount, afterCount⟩ := BinaryBuffer.readNumber_follows 1
      (buf.upTo between) between count later afterType parsedCount
    have readCount' : (buf.upTo between).readU8 =
        some (count, (buf.upTo between).upTo later) := readCount
    obtain ⟨performed, _⟩ := (discardIntoScratch_performs schema).times_keeping
      (fun _ _ _ => trivial) count st.2 _ later records rest trivial
      afterCount parsedRecords
    unfold discardBuckets discardComponent
    rw [readType']
    dsimp only
    rw [registered]
    dsimp only
    rw [readCount']
    dsimp only
    rw [performed, reads.2]
    rfl

variable (registry) in
/-- The buffer does not matter for the world. -/
theorem discardComponents_world
    (e : Entity) (st : World × Nat) (components : List DeltaComponent) :
    (Traced.forEach (discardComponent registry e) st components).state.1 =
      (Traced.forEach (World.installDelta registry e) st.1 components).state := by
  induction components generalizing st with
  | nil => rfl
  | cons component components inductionHypothesis =>
      have first : (discardComponent registry e st component).state.1 =
          (st.1.installDelta registry e component).state := by
        unfold discardComponent
        split
        · split
          · rename_i dead _
            unfold World.installDelta
            rw [dead]
            rfl
          · rfl
        · rfl
      rw [Traced.forEach_cons, Traced.forEach_cons, Traced.andThen_state,
        Traced.andThen_state, inductionHypothesis, first]

variable (registry) in
/-- An entity is applied or discarded as it is parsed. -/
theorem applyDeltaEntityScratch_performs (version : Nat) :
    (applyDeltaEntityScratch registry version).Performs
      (fun st _ => st.1.world.AtRest registry)
      (deltaEntityParser registry version) (discardEntity registry) := by
  intro st buf input entity rest atRest remaining parsed
  obtain ⟨id, between, parsedId, parsedContent⟩ :=
    Parser.andThen_eq_some.mp parsed
  obtain ⟨count, later, parsedCount, parsedComponents⟩ :=
    Parser.andThen_eq_some.mp parsedContent
  obtain ⟨components, parsedMany, rfl⟩ := Parser.map_eq_some.mp parsedComponents
  obtain ⟨readId, afterId⟩ := BinaryBuffer.readNumber_follows 8 buf input id
    between remaining parsedId
  have readId' : buf.readU64 = some (id, buf.upTo between) := readId
  obtain ⟨readCount, afterCount⟩ := BinaryBuffer.readNumber_follows 1
    (buf.upTo between) between count later afterId parsedCount
  have readCount' : (buf.upTo between).readU8 =
      some (count, (buf.upTo between).upTo later) := readCount
  obtain ⟨performed, last⟩ := (applyDeltaComponentScratch_performs registry
    version ⟨UInt64.ofNat id⟩).times_keeping
      (fun st component atRest => by
        have first := discardComponents_world registry ⟨UInt64.ofNat id⟩ st
          [component]
        rw [Traced.forEach_cons, Traced.forEach_cons] at first
        exact first ▸ (World.installDelta_spec atRest component).1)
      count (st.1.world, st.2) _ later components rest atRest afterCount
      parsedMany
  refine ⟨?_, last⟩
  have worlds := discardComponents_world registry ⟨UInt64.ofNat id⟩
    (st.1.world, st.2) components
  unfold applyDeltaEntityScratch discardEntity installDeltaEntity
  rw [readId']
  dsimp only
  rw [readCount']
  dsimp only
  rw [performed]
  dsimp only [BinaryBuffer.upTo_upTo]
  rw [worlds]
  simp only [Option.isSome_some, true_and]
  split <;> rfl

/-! ## Deltas in the grammar -/

/-- The records of a delta for entities that are dead, with the sizes the
scratch buffer has for them. -/
theorem applyDeltaScratch_of_parsed
    {c : Client} (rest : c.world.AtRest registry) (scratch : Nat)
    {data : List UInt8} (inMemory : data.length < sizeLimit)
    {entities : List DeltaEntity}
    (parsed : parsePacket registry .delta data = some (.delta entities)) :
    c.applyDeltaScratch registry scratch data =
      Traced.forEach (discardEntity registry) (c, scratch) entities := by
  obtain ⟨version, headed, count, buf, input, readVersion, readCount, remaining,
    parsedEntities⟩ := delta_reads inMemory parsed
  obtain ⟨performed, _⟩ := (applyDeltaEntityScratch_performs registry
    version).times_keeping
      (fun _ entity atRest => (installDeltaEntity_spec atRest entity).1)
      count (c, scratch) buf input entities [] rest remaining parsedEntities
  unfold applyDeltaScratch
  rw [readVersion]
  dsimp only
  rw [readCount]
  dsimp only
  rw [performed]

/-! ## The condition on the packet -/

/-- The records of a component of a delta, with the schema that lays their fields
out.  A component of the first version has none. -/
def schemaRecords (registry : ComponentRegistry) :
    DeltaComponent → List (ComponentSchema × BucketRecord)
  | .whole _ => []
  | .buckets t records =>
      match registry.schemaOf t with
      | none => []
      | some schema => records.map (schema, ·)

/-- The records that a delta carries for entities that are dead in the world, in
their order. -/
def deadRecords (registry : ComponentRegistry) (w : World)
    (entities : List DeltaEntity) : List (ComponentSchema × BucketRecord) :=
  entities.flatMap fun entity =>
    if w.isAlive ⟨entity.id⟩ then []
    else entity.components.flatMap (schemaRecords registry)

/-- Every field of every record ends within the largest number of bytes that a
record so far has on the wire, starting from `room`. -/
def RecordsFit : Nat → List (ComponentSchema × BucketRecord) → Prop
  | _, [] => True
  | room, (schema, record) :: records =>
      (∀ fd ∈ maskedFields schema.fields record.mask, fieldSize fd = 0 ∨
        fd.offset + fieldSize fd ≤ max room (payloadSize schema record.mask)) ∧
      RecordsFit (max room (payloadSize schema record.mask)) records

/-- What is discarded is the record. -/
def Describes (discard : Discard) (record : ComponentSchema × BucketRecord) :
    Prop :=
  discard.wireSize = payloadSize record.1 record.2.mask ∧
    discard.fields = maskedFields record.1.fields record.2.mask

/-- Whether discarded records end in time depends on the records. -/
theorem allEndWithin_iff_recordsFit
    {discards : List Discard} {records : List (ComponentSchema × BucketRecord)}
    (describes : discards.Forall₂ Describes records) (room : Nat) :
    Discard.AllEndWithin room discards ↔ RecordsFit room records := by
  induction describes generalizing room with
  | nil => exact Iff.rfl
  | cons first _ inductionHypothesis =>
      rw [Discard.AllEndWithin, RecordsFit, Discard.EndsWithin, first.1, first.2,
        inductionHypothesis]

/-- The records of a component are discarded in order. -/
theorem discardRecords_describe
    (schema : ComponentSchema) (scratch : Nat) (records : List BucketRecord) :
    (Traced.forEach (discardRecord schema) scratch records).effects.Forall₂
      Describes (records.map (schema, ·)) := by
  induction records generalizing scratch with
  | nil => exact .nil
  | cons record records inductionHypothesis =>
      exact .cons ⟨rfl, rfl⟩ (inductionHypothesis _)

/-- So are those of all components of a dead entity. -/
theorem discardComponents_describe
    {e : Entity} {st : World × Nat} (dead : st.1.isAlive e = false)
    (components : List DeltaComponent) :
    (Traced.forEach (discardComponent registry e) st components).effects.Forall₂
      Describes (components.flatMap (schemaRecords registry)) := by
  induction components generalizing st with
  | nil => exact .nil
  | cons component components inductionHypothesis =>
      have stays : (st.1.installDelta registry e component).state = st.1 := by
        unfold World.installDelta
        rw [dead]
        rfl
      have first : (discardComponent registry e st component).state.1 = st.1 ∧
          (discardComponent registry e st component).effects.Forall₂ Describes
            (schemaRecords registry component) := by
        unfold discardComponent schemaRecords
        cases component with
        | whole block => exact ⟨stays, .nil⟩
        | buckets t records =>
            dsimp only
            rw [dead]
            cases registry.schemaOf t with
            | none => exact ⟨stays, .nil⟩
            | some schema => exact ⟨rfl, discardRecords_describe schema _ records⟩
      rw [Traced.forEach_cons, Traced.andThen_effects, List.flatMap_cons]
      exact List.rel_append first.2
        (inductionHypothesis ((congrArg (World.isAlive · e) first.1).trans dead))

/-- Nothing of an entity that is alive is discarded. -/
theorem discardComponents_alive
    {e : Entity} {st : World × Nat} (rest : st.1.AtRest registry)
    (alive : st.1.isAlive e = true) (components : List DeltaComponent) :
    (Traced.forEach (discardComponent registry e) st components).effects =
      [] := by
  induction components generalizing st with
  | nil => rfl
  | cons component components inductionHypothesis =>
      obtain ⟨last, contents⟩ := World.installDelta_spec (e := e) rest component
      rw [Traced.forEach_cons, Traced.andThen_effects,
        discardComponent_alive alive component]
      exact inductionHypothesis last
        ((World.isAlive_of_contents _ contents e).trans alive)

/-- A delta in the grammar discards the records it carries for dead entities. -/
theorem discardEntities_describe
    {c : Client} (rest : c.world.AtRest registry) (scratch : Nat)
    (entities : List DeltaEntity) :
    (Traced.forEach (discardEntity registry) (c, scratch)
      entities).effects.Forall₂ Describes
        (deadRecords registry c.world entities) := by
  induction entities generalizing c scratch with
  | nil => exact .nil
  | cons entity entities inductionHypothesis =>
      obtain ⟨last, contents, _⟩ := installDeltaEntity_spec rest entity
      -- the entity leaves the entities that are alive as they are
      have alive := World.isAlive_of_contents _ contents
      have later := inductionHypothesis last
        (discardEntity registry (c, scratch) entity).state.2
      unfold deadRecords at later ⊢
      simp only [alive] at later
      rw [Traced.forEach_cons, Traced.andThen_effects, List.flatMap_cons]
      refine List.rel_append ?_ later
      cases isAlive : c.world.isAlive ⟨entity.id⟩ with
      | true =>
          have none : (discardEntity registry (c, scratch) entity).effects = [] :=
            discardComponents_alive rest isAlive entity.components
          rw [if_pos rfl, none]
          exact .nil
      | false =>
          rw [if_neg Bool.false_ne_true]
          exact discardComponents_describe isAlive _

/-- While a delta is applied, what is written for dead entities stays inside the
scratch buffer exactly if no discarded record has a field that ends behind the
largest size on the wire so far.  For a delta in the grammar these are the records
it carries for the entities that are dead. -/
theorem discardsInBounds_iff
    (c : Client) (scratch : Nat) (data : List UInt8) :
    (c.DiscardsInBounds registry scratch data ↔
      Discard.AllEndWithin scratch
        (c.applyDeltaScratch registry scratch data).effects) ∧
    ∀ entities, c.world.AtRest registry → data.length < sizeLimit →
      parsePacket registry .delta data = some (.delta entities) →
      (c.DiscardsInBounds registry scratch data ↔
        RecordsFit scratch (deadRecords registry c.world entities)) := by
  refine ⟨c.inBounds_iff_allEndWithin scratch data,
    fun entities rest inMemory parsed => ?_⟩
  rw [inBounds_iff_allEndWithin,
    applyDeltaScratch_of_parsed rest scratch inMemory parsed]
  exact allEndWithin_iff_recordsFit (discardEntities_describe rest scratch _) _

/-- A component with padding before its second field. -/
def paddedRegistry : ComponentRegistry :=
  (({} : ComponentRegistry).registerSchemaComponent .singlePrecision "Armour"
    [{ name := "worn", type := .u8 }, { name := "points", type := .u32 }]).2

/-- One record of the second field alone: the field has four bytes on the wire,
and ends at the eighth byte of the component. -/
theorem not_discardsInBounds_padded :
    let data : List UInt8 := [2, 0, 1, 0, 0, 0, 5, 0, 0, 0, 0, 0, 0, 0, 1,
      1, 0, 0, 0, 1, 0, 2, 9, 0, 0, 0]
    validatePacket paddedRegistry .delta data = true ∧
      ¬DiscardsInBounds paddedRegistry ⟨.empty paddedRegistry, []⟩ 0 data := by
  intro data
  refine ⟨by decide +kernel, fun inBounds => ?_⟩
  have ends : ∀ discard ∈ (Client.applyDeltaScratch paddedRegistry
      ⟨.empty paddedRegistry, []⟩ 0 data).effects,
      discard.EndsWithin discard.scratch := fun discard member =>
    (discard.endsWithin_iff _).mpr (inBounds discard member)
  exact absurd ends (by decide +kernel)

/-- The first field alone fits. -/
theorem discardsInBounds_iff_worn :
    let data : List UInt8 := [2, 0, 1, 0, 0, 0, 5, 0, 0, 0, 0, 0, 0, 0, 1,
      1, 0, 0, 0, 1, 0, 1, 9]
    let c : Client := ⟨.empty paddedRegistry, []⟩
    c.DiscardsInBounds paddedRegistry 0 data ↔
      RecordsFit 0 (deadRecords paddedRegistry c.world
        [⟨5, [.buckets 1 [⟨0, [true, false], [9]⟩]]⟩]) :=
  (discardsInBounds_iff ..).2 _
    ⟨World.empty_stable paddedRegistry, rfl⟩
    (by decide) (by decide +kernel)

end Client
end VortarisECS
