import VortarisECS.Core.FiniteMap
import VortarisECS.Network.Reconcile

/-!
# Applying a delta

A delta writes the fields it carries into live entities, adds the components
they are missing and skips dead ones.
-/

namespace VortarisECS

/-- Put the payloads of buckets into an instance, one after the other. -/
def storeBuckets (schema : ComponentSchema) (inst : List UInt8)
    (records : List BucketRecord) : List UInt8 :=
  records.foldl (fun inst record =>
    storePayload schema record.mask inst record.payload) inst

/-- Buckets keep the size of a component. -/
@[simp] theorem length_storeBuckets
    (schema : ComponentSchema) (inst : List UInt8)
    (records : List BucketRecord) :
    (storeBuckets schema inst records).length = inst.length := by
  induction records generalizing inst with
  | nil => rfl
  | cons record records inductionHypothesis =>
      exact (inductionHypothesis _).trans (World.storePayload_length _ _ _ _)

/-- The components after a component of a delta was received. -/
def Components.receiveDelta (registry : ComponentRegistry)
    (components : Components) : DeltaComponent → Components
  | .whole block => components.receive registry block
  | .buckets t records =>
      match registry.schemaOf t with
      | none => components
      | some schema =>
          components.put t (some (storeBuckets schema
            ((components t).getD (List.replicate schema.size 0)) records))

namespace World

variable {registry : ComponentRegistry} {w : World} {e : Entity}
variable {t : ComponentTypeId}

/-- What buckets do to a component that may have to be added first. -/
def installBuckets (registry : ComponentRegistry) (e : Entity) (w : World)
    (schema : ComponentSchema) (t : ComponentTypeId)
    (records : List BucketRecord) : Traced Effect World :=
  let added := if w.has e t then .pure w else w.addRaw registry e t none
  added.mapState fun v =>
    v.writeRaw e t (storeBuckets schema ((v.getRaw e t).getD []) records)

/-- What a component of a delta does to a world. -/
def installDelta (registry : ComponentRegistry) (e : Entity) (w : World)
    (component : DeltaComponent) : Traced Effect World :=
  if w.isAlive e then
    match component with
    | .whole block => installBlock registry e w block
    | .buckets t records =>
        match registry.schemaOf t with
        | none => .pure w
        | some schema => installBuckets registry e w schema t records
  else .pure w

/-- The component is there, with what it held before or zeros. -/
theorem added_spec
    (hosts : w.Hosts registry e) {schema : ComponentSchema}
    (registered : registry.schemaOf t = some schema) :
    let added := if w.has e t then Traced.pure w
      else w.addRaw registry e t none
    added.state.Hosts registry e ∧
    added.state.getRaw e t =
      some ((w.bytesAt e t).getD (List.replicate schema.size 0)) ∧
    added.state.contents = w.contents.put e t
      (some ((w.bytesAt e t).getD (List.replicate schema.size 0))) := by
  have represents := represents_contents hosts.stable.consistent
  have hasEq : w.has e t = (w.bytesAt e t).isSome := by
    rw [represents.has_eq, contents_of_alive hosts.alive]
    rfl
  dsimp only
  cases found : w.bytesAt e t with
  | some old =>
      rw [found] at hasEq
      rw [hasEq, if_pos Option.isSome_some]
      refine ⟨hosts, ?_, ?_⟩
      · rw [Traced.pure_state, ← bytesAt_eq_getRaw hosts.stable.consistent]
        exact found
      · symm
        have unchanged : w.contents.put e t (some old) =
            w.contents.adjust e id := by
          apply Contents.adjust_congr
          intro components atSelf
          rw [contents_of_alive hosts.alive, Option.some.injEq] at atSelf
          subst atSelf
          funext u
          unfold Components.put
          split <;> rename_i here
          · rw [here, id, found]
          · rfl
        exact unchanged.trans (Contents.adjust_id w.contents e)
  | none =>
      rw [found] at hasEq
      rw [hasEq, if_neg (by simp)]
      obtain ⟨addedHosts, put, raw⟩ := addRaw_zeros hosts registered
      exact ⟨addedHosts, raw, put⟩

/-- What a component of a delta does to the contents. -/
theorem installDelta_spec
    (rest : w.AtRest registry) (component : DeltaComponent) :
    (installDelta registry e w component).state.AtRest registry ∧
    (installDelta registry e w component).state.contents =
      w.contents.adjust e (·.receiveDelta registry component) := by
  unfold installDelta
  cases alive : w.isAlive e with
  | false =>
      rw [if_neg Bool.false_ne_true]
      exact ⟨rest, (Contents.adjust_of_dead (contents_of_dead alive) _).symm⟩
  | true =>
      rw [if_pos rfl]
      have hosts : w.Hosts registry e := ⟨rest.stable, rest.idle, alive⟩
      cases component with
      | whole block =>
          obtain ⟨installed, contentsEq⟩ := installBlock_spec hosts block
          exact ⟨⟨installed.stable, installed.idle⟩, contentsEq⟩
      | buckets t records =>
          dsimp only [Components.receiveDelta]
          cases registered : registry.schemaOf t with
          | none => exact ⟨rest, (Contents.adjust_id w.contents e).symm⟩
          | some schema =>
              obtain ⟨addedHosts, raw, put⟩ := added_spec hosts registered
              dsimp only
              unfold installBuckets
              dsimp only
              generalize (if w.has e t then Traced.pure w
                else w.addRaw registry e t none) = added at addedHosts raw put ⊢
              have bytesLength : ((w.bytesAt e t).getD
                  (List.replicate schema.size 0)).length = schema.size := by
                cases found : w.bytesAt e t with
                | none => exact List.length_replicate
                | some old =>
                    exact (bytesAt_length rest.stable.consistent found).trans
                      (ComponentRegistry.sizeOf_of_schemaOf registered)
              have sized : (storeBuckets schema ((w.bytesAt e t).getD
                  (List.replicate schema.size 0)) records).length =
                  registry.sizeOf t := by
                rw [length_storeBuckets, bytesLength,
                  ComponentRegistry.sizeOf_of_schemaOf registered]
              have written := writeRaw_contents addedHosts.stable.consistent raw
                addedHosts.alive (storeBuckets schema ((w.bytesAt e t).getD
                  (List.replicate schema.size 0)) records)
              rw [Traced.mapState_state, raw, Option.getD_some]
              refine ⟨⟨?_, ?_⟩, ?_⟩
              · exact addedHosts.stable.keeps (writeRaw_realizes e t sized)
                  (Traced.accepted_pure _ _)
              · exact (writeRaw_control _ _ _ _).trans addedHosts.idle
              · rw [written, put, Contents.put, Contents.put,
                  Contents.adjust_adjust]
                apply Contents.adjust_congr
                intro components atSelf
                rw [contents_of_alive alive, Option.some.injEq] at atSelf
                subst atSelf
                funext u
                dsimp only [Function.comp, Components.put]
                split <;> rfl

end World

/-! ## Deltas -/

namespace Client

variable {registry : ComponentRegistry} {w : World} {e : Entity} {c : Client}

/-- A bucket of a dead entity is skipped. -/
theorem discardBucket_passes (schema : ComponentSchema) :
    (discardBucket schema).Passes (bucketParser schema) := by
  intro buf input record rest remaining parsed
  obtain ⟨between, later, parsedBucket, parsedMask, parsedBytes⟩ :=
    bucketParser_eq_some.mp parsed
  obtain ⟨readBucket, afterBucket⟩ := BinaryBuffer.readNumber_follows 1 buf
    input record.bucket between remaining parsedBucket
  have readBucket' : buf.readU8 = some (_, buf.upTo between) := readBucket
  obtain ⟨readMask, afterMask⟩ := readFieldMask_follows schema.fields.length
    (buf.upTo between) between record.mask later afterBucket parsedMask
  dsimp only at readMask
  obtain ⟨fits, _, rfl⟩ := Parser.bytes_eq_some.mp parsedBytes
  have lengthEq := afterMask.length_eq
  have inMemory := afterMask.inMemory
  refine ⟨?_, (afterMask.advance fits).1⟩
  unfold discardBucket
  rw [readBucket']
  dsimp only
  rw [readMask]
  dsimp only
  rw [serializedComponentFieldsSize_eq afterMask fits,
    sizeT_of_lt (by omega), if_neg (by unfold BinaryBuffer.size; omega)]
  unfold payloadSize at fits ⊢
  rw [deserializeComponentFields, readFields_of_remaining afterMask fits]
  rfl

/-- So is a whole component. -/
theorem discardBlock_passes :
    (discardBlock registry).Passes (blockParser registry .whole) := by
  intro buf input block rest remaining parsed
  obtain ⟨t, between, schema, later, parsedType, registered, parsedMask,
    parsedBytes, _⟩ := blockParser_eq_some.mp parsed
  obtain ⟨readType, afterType⟩ := BinaryBuffer.readNumber_follows 4 buf input t
    between remaining parsedType
  have readType' : buf.readU32 = some (t, buf.upTo between) := readType
  obtain ⟨fits, _, rfl⟩ := Parser.bytes_eq_some.mp parsedBytes
  have afterMask := PayloadFormat.whole.mask_remaining schema
    (buf.upTo between) between block.mask later afterType parsedMask
  have read := PayloadFormat.whole.read_eq schema
    (List.replicate schema.size 0) (buf.upTo between) between block.mask later
    afterType parsedMask fits
  refine ⟨?_, (afterMask.advance fits).1⟩
  unfold discardBlock
  rw [readType']
  dsimp only
  rw [registered]
  exact congrArg Prod.snd read

/-- The buckets of a component are read one after the other. -/
theorem readBuckets_eq
    {schema : ComponentSchema} (count : Nat) (inst : List UInt8)
    {buf : BinaryBuffer} {input rest : List UInt8}
    {records : List BucketRecord} (remaining : buf.Remaining input)
    (parsed : Parser.many count (bucketParser schema) input =
      some (records, rest)) :
    readBuckets schema count inst buf =
        (storeBuckets schema inst records, some (buf.upTo rest)) ∧
      (buf.upTo rest).Remaining rest := by
  induction count generalizing inst buf input records with
  | zero =>
      rw [Parser.many, Parser.pure, Option.some.injEq, Prod.mk.injEq] at parsed
      rw [← parsed.1, ← parsed.2, remaining.upTo_self]
      exact ⟨rfl, remaining⟩
  | succ count inductionHypothesis =>
      obtain ⟨record, middle, more, parsedRecord, parsedMore, rfl⟩ :=
        Parser.many_succ_eq_some.mp parsed
      obtain ⟨between, later, parsedBucket, parsedMask, parsedBytes⟩ :=
        bucketParser_eq_some.mp parsedRecord
      obtain ⟨readIndex, afterIndex⟩ := BinaryBuffer.readNumber_follows 1 buf
        input record.bucket between remaining parsedBucket
      have readIndex' : buf.readU8 = some (_, buf.upTo between) := readIndex
      obtain ⟨readMask, afterMask⟩ := readFieldMask_follows
        schema.fields.length (buf.upTo between) between record.mask later
        afterIndex parsedMask
      dsimp only at readMask
      obtain ⟨fits, payloadEq, rfl⟩ := Parser.bytes_eq_some.mp parsedBytes
      obtain ⟨readMore, last⟩ := inductionHypothesis
        (storePayload schema record.mask inst record.payload)
        (afterMask.advance fits).1 parsedMore
      have readFirst : readBucket schema inst buf =
          (storePayload schema record.mask inst record.payload,
            some (buf.upTo (later.drop (payloadSize schema record.mask)))) := by
        unfold readBucket
        rw [readIndex']
        dsimp only
        rw [readMask]
        dsimp only
        unfold storePayload
        rw [payloadEq]
        unfold payloadSize at fits ⊢
        rw [deserializeComponentFields,
          readFields_of_remaining afterMask fits]
        rfl
      unfold readBuckets
      rw [readFirst]
      dsimp only
      simp only [BinaryBuffer.upTo_upTo] at readMore last
      rw [readMore]
      exact ⟨rfl, last⟩

/-- Applying a component of a delta does to the world what the component says. -/
theorem applyDeltaComponent_performs (version : Nat) (e : Entity) :
    (applyDeltaComponent registry version e).Performs
      (fun w _ => w.AtRest registry) (deltaComponentParser registry version)
      (World.installDelta registry e) := by
  intro w buf input component rest atRest remaining parsed
  unfold applyDeltaComponent
  unfold deltaComponentParser at parsed
  split at parsed <;> rename_i isFirst
  · obtain ⟨block, parsedBlock, rfl⟩ := Parser.map_eq_some.mp parsed
    rw [if_pos isFirst]
    unfold applyWhole World.installDelta
    split <;> rename_i alive
    · exact World.receiveBlock_performs w buf input block rest
        ⟨atRest.stable, atRest.idle, alive⟩ remaining parsedBlock
    · obtain ⟨passed, last⟩ := discardBlock_passes buf input block rest
        remaining parsedBlock
      rw [passed]
      exact ⟨rfl, last⟩
  · rw [if_neg isFirst]
    obtain ⟨t, between, schema, count, later, records, parsedType, registered,
      parsedCount, parsedRecords, rfl⟩ := bucketsParser_eq_some.mp parsed
    obtain ⟨readType, afterType⟩ := BinaryBuffer.readNumber_follows 4 buf input
      t between remaining parsedType
    have readType' : buf.readU32 = some (t, buf.upTo between) := readType
    obtain ⟨readCount, afterCount⟩ := BinaryBuffer.readNumber_follows 1
      (buf.upTo between) between count later afterType parsedCount
    have readCount' : (buf.upTo between).readU8 =
        some (count, (buf.upTo between).upTo later) := readCount
    unfold applyBuckets World.installDelta
    rw [readType']
    dsimp only
    rw [registered]
    dsimp only
    rw [readCount']
    dsimp only
    split <;> rename_i alive
    · obtain ⟨_, raw, _⟩ := World.added_spec
        ⟨atRest.stable, atRest.idle, alive⟩ registered
      unfold World.installBuckets
      dsimp only
      generalize (if w.has e (UInt32.ofNat t) then Traced.pure w
        else w.addRaw registry e (UInt32.ofNat t) none) = added at raw ⊢
      obtain ⟨read, last⟩ := readBuckets_eq count ((w.bytesAt e
        (UInt32.ofNat t)).getD (List.replicate schema.size 0)) afterCount
        parsedRecords
      simp only [BinaryBuffer.upTo_upTo] at read last
      unfold Traced.mapState
      rw [raw]
      dsimp only
      rw [BinaryBuffer.upTo_upTo, read, raw]
      exact ⟨rfl, last⟩
    · obtain ⟨passed, last⟩ := (discardBucket_passes schema).times count _ later
        records rest afterCount parsedRecords
      rw [passed]
      exact ⟨rfl, last⟩

/-- What an entity of a delta does to a client. -/
def installDeltaEntity (registry : ComponentRegistry) (c : Client)
    (entity : DeltaEntity) : Traced Effect Client :=
  let step := Traced.forEach (World.installDelta registry ⟨entity.id⟩) c.world
    entity.components
  if step.state.isAlive ⟨entity.id⟩ then
    (c.onWorld step).mapState (·.track ⟨entity.id⟩)
  else c.onWorld step

/-- What the components of a delta do to the contents. -/
theorem installDeltas_spec
    (rest : w.AtRest registry) (components : List DeltaComponent) :
    let step := Traced.forEach (World.installDelta registry e) w components
    step.state.AtRest registry ∧
    step.state.contents = w.contents.adjust e fun held =>
      components.foldl (Components.receiveDelta registry) held := by
  induction components generalizing w with
  | nil => exact ⟨rest, (Contents.adjust_id w.contents e).symm⟩
  | cons component components inductionHypothesis =>
      obtain ⟨first, firstContents⟩ := World.installDelta_spec (e := e) rest
        component
      obtain ⟨last, lastContents⟩ := inductionHypothesis first
      dsimp only
      rw [Traced.forEach_cons, Traced.andThen_state, lastContents,
        firstContents, Contents.adjust_adjust]
      exact ⟨last, rfl⟩

/-- An entity of a delta is applied as it is parsed. -/
theorem applyDeltaEntity_performs (version : Nat) :
    (applyDeltaEntity registry version).Performs
      (fun c _ => c.world.AtRest registry)
      (deltaEntityParser registry version) (installDeltaEntity registry) := by
  intro c buf input entity rest atRest remaining parsed
  obtain ⟨id, between, parsedId, parsedContent⟩ :=
    Parser.andThen_eq_some.mp parsed
  obtain ⟨count, later, parsedCount, parsedComponents⟩ :=
    Parser.andThen_eq_some.mp parsedContent
  obtain ⟨components, parsedMany, rfl⟩ := Parser.map_eq_some.mp parsedComponents
  obtain ⟨readId, afterId⟩ := BinaryBuffer.readNumber_follows 8 buf input id
    between remaining parsedId
  have readId' : buf.readU64 = some (id, buf.upTo between) := readId
  obtain ⟨readCount, afterCount⟩ := BinaryBuffer.readNumber_follows 1
    (buf.upTo between) between count later afterId parsedCount
  have readCount' : (buf.upTo between).readU8 =
      some (count, (buf.upTo between).upTo later) := readCount
  have repeated : ((applyDeltaComponent registry version
      ⟨UInt64.ofNat id⟩).times count).Performs
      (fun w _ => w.AtRest registry)
      (Parser.many count (deltaComponentParser registry version))
      (fun w components => Traced.forEach
        (World.installDelta registry ⟨UInt64.ofNat id⟩) w components) :=
    (applyDeltaComponent_performs version _).times (fun _ _ _ pends => pends)
      (fun _ component _ pends => (World.installDelta_spec pends component).1)
      count
  obtain ⟨performed, last⟩ := repeated c.world _ later components rest atRest
    afterCount parsedMany
  refine ⟨?_, last⟩
  unfold applyDeltaEntity installDeltaEntity
  rw [readId']
  dsimp only
  rw [readCount']
  dsimp only
  rw [performed]
  dsimp only [BinaryBuffer.upTo_upTo]
  simp only [Option.isSome_some, true_and]
  split <;> rfl

/-- What the entities of a delta say about one entity. -/
def saidOf (entities : List DeltaEntity) (e : Entity) : List DeltaComponent :=
  (entities.filter fun entity => entity.id = e.id).flatMap
    DeltaEntity.components

/-- What an entity of a delta does to a client. -/
theorem installDeltaEntity_spec
    (rest : c.world.AtRest registry) (entity : DeltaEntity) :
    let applied := (installDeltaEntity registry c entity).state
    applied.world.AtRest registry ∧
    applied.world.contents = c.world.contents.adjust ⟨entity.id⟩ (fun held =>
      entity.components.foldl (Components.receiveDelta registry) held) ∧
    ∀ e, e ∈ applied.replicated ↔
      e ∈ c.replicated ∨ e.id = entity.id ∧ c.world.isAlive e = true := by
  obtain ⟨last, contentsEq⟩ := installDeltas_spec (e := ⟨entity.id⟩) rest
    entity.components
  have alive := World.isAlive_of_contents _ contentsEq ⟨entity.id⟩
  unfold installDeltaEntity
  dsimp only
  rw [alive]
  split <;> rename_i isAlive
  · refine ⟨last, contentsEq, fun e => ?_⟩
    change e ∈ c.replicated.insert ⟨entity.id⟩ ↔ _
    rw [List.mem_insert_iff, or_comm]
    refine or_congr_right ⟨?_, fun both => congrArg Entity.mk both.1⟩
    rintro rfl
    exact ⟨rfl, isAlive⟩
  · refine ⟨last, contentsEq, fun e => (or_iff_left ?_).symm⟩
    rintro ⟨same, aliveHere⟩
    rw [show e = ⟨entity.id⟩ from congrArg Entity.mk same] at aliveHere
    exact isAlive aliveHere

/-- A delta adjusts the components of the live entities it names, and leaves all
others alone. -/
theorem installDeltaEntities_spec
    (rest : c.world.AtRest registry) (entities : List DeltaEntity) :
    let applied :=
      (Traced.forEach (installDeltaEntity registry) c entities).state
    applied.world.AtRest registry ∧
    (∀ e, applied.world.contents e = (c.world.contents e).map fun held =>
      (saidOf entities e).foldl (Components.receiveDelta registry) held) ∧
    ∀ e, e ∈ applied.replicated ↔ e ∈ c.replicated ∨
      e.id ∈ entities.map DeltaEntity.id ∧ c.world.isAlive e = true := by
  induction entities generalizing c with
  | nil =>
      refine ⟨rest, fun e => ?_, fun e => by simp⟩
      cases found : c.world.contents e with
      | none => exact found
      | some held => exact found
  | cons entity entities inductionHypothesis =>
      obtain ⟨first, firstContents, firstTracked⟩ :=
        installDeltaEntity_spec rest entity
      obtain ⟨last, lastContents, lastTracked⟩ := inductionHypothesis first
      have alive : ∀ e, (installDeltaEntity registry c
          entity).state.world.isAlive e = c.world.isAlive e :=
        World.isAlive_of_contents _ firstContents
      dsimp only
      rw [Traced.forEach_cons, Traced.andThen_state]
      refine ⟨last, fun e => ?_, fun e => ?_⟩
      · rw [lastContents, firstContents]
        unfold saidOf
        rw [List.filter_cons]
        by_cases isSelf : e = ⟨entity.id⟩
        · subst isSelf
          rw [if_pos (decide_eq_true rfl), Contents.adjust_self,
            Option.map_map, List.flatMap_cons]
          congr 1
          funext held
          exact (List.foldl_append ..).symm
        · have other : ¬entity.id = e.id := fun same =>
            isSelf (congrArg Entity.mk same.symm)
          rw [if_neg (by simpa using other), Contents.adjust_of_ne _ _ isSelf]
      · rw [lastTracked, firstTracked, alive, List.map_cons, List.mem_cons,
          or_and_right, or_assoc]

/-! ## Packets that are read back -/

/-- All entities of a delta are applied as they are parsed. -/
theorem applyDeltaEntities_performs (version count : Nat) :
    ((applyDeltaEntity registry version).times count).Performs
      (fun c _ => c.world.AtRest registry)
      (Parser.many count (deltaEntityParser registry version))
      (fun c entities =>
        Traced.forEach (installDeltaEntity registry) c entities) :=
  (applyDeltaEntity_performs version).times (fun _ _ _ pends => pends)
    (fun _ entity _ pends => (installDeltaEntity_spec pends entity).1) count

/-- What a delta in the grammar does. -/
theorem applyDelta_of_parsed
    (rest : c.world.AtRest registry) {data : List UInt8}
    (inMemory : data.length < sizeLimit) {entities : List DeltaEntity}
    (parsed : parsePacket registry .delta data = some (.delta entities)) :
    c.applyDelta registry data =
      Traced.forEach (installDeltaEntity registry) c entities := by
  obtain ⟨version, headed, count, buf, input, readVersion, readCount, remaining,
    parsedEntities⟩ := delta_reads inMemory parsed
  unfold applyDelta walkDelta
  rw [readVersion]
  dsimp only
  rw [readCount]
  dsimp only
  rw [(applyDeltaEntities_performs version count c buf input entities [] rest
    remaining parsedEntities).1]

end Client
end VortarisECS
