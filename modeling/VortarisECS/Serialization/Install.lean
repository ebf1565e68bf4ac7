import VortarisECS.Core.Contents
import VortarisECS.Core.Control
import VortarisECS.Core.DeferredExecution
import VortarisECS.Serialization.EntityRecord

/-!
# Building entities from records

Receiving a block gives the entity a new instance of the component, zero but for
the fields the block carries.
-/

namespace VortarisECS

namespace Components

/-- The components after a block was received. -/
def receive (registry : ComponentRegistry) (components : Components)
    (block : ComponentBlock) : Components :=
  match registry.schemaOf block.type with
  | none => components
  | some schema =>
      components.put block.type (some (storePayload schema block.mask
        (List.replicate schema.size 0) block.payload))

/-- What an entity holds after a list of components was written. -/
def receiveAll (registry : ComponentRegistry) (components : Components)
    (blocks : List ComponentBlock) : Components :=
  blocks.foldl (receive registry) components

end Components

/-- The components a record describes. -/
def EntityRecord.components (registry : ComponentRegistry)
    (record : EntityRecord) : Components :=
  Components.receiveAll registry (fun _ => none) record.blocks

namespace Components

variable {registry : ComponentRegistry} {blocks : List ComponentBlock}

theorem receive_of_ne
    (components : Components) {block : ComponentBlock} {t : ComponentTypeId}
    (other : t ≠ block.type) : components.receive registry block t =
      components t := by
  unfold receive
  cases registry.schemaOf block.type with
  | none => rfl
  | some schema => exact if_neg other

/-- A block changes its own type only. -/
theorem receiveAll_of_absent
    (components : Components) {t : ComponentTypeId}
    (absent : t ∉ blocks.map ComponentBlock.type) :
    components.receiveAll registry blocks t = components t := by
  induction blocks generalizing components with
  | nil => rfl
  | cons block blocks inductionHypothesis =>
      rw [List.map_cons, List.mem_cons, not_or] at absent
      exact (inductionHypothesis _ absent.2).trans
        (receive_of_ne components absent.1)

/-- Blocks of different types each leave their instance behind. -/
theorem receiveAll_of_mem
    (components : Components) (once : (blocks.map ComponentBlock.type).Nodup)
    {block : ComponentBlock} (member : block ∈ blocks)
    {schema : ComponentSchema}
    (registered : registry.schemaOf block.type = some schema) :
    components.receiveAll registry blocks block.type =
      some (writePatches (List.replicate schema.size 0)
        (block.patches schema)) := by
  induction blocks generalizing components with
  | nil => exact absurd member List.not_mem_nil
  | cons first blocks inductionHypothesis =>
      rw [List.map_cons, List.nodup_cons] at once
      obtain rfl | member := List.mem_cons.mp member
      · refine (receiveAll_of_absent _ once.1).trans ?_
        unfold receive
        rw [registered]
        refine (if_pos rfl).trans ?_
        rw [storePayload, storeFields_eq_writePatches]
        rfl
      · exact inductionHypothesis _ once.2 member

end Components

/-- A record leaves the components it has blocks for. -/
theorem EntityRecord.components_isSome_iff
    {registry : ComponentRegistry} {record : EntityRecord}
    (once : (record.blocks.map ComponentBlock.type).Nodup)
    (registered : ∀ block ∈ record.blocks,
      (registry.schemaOf block.type).isSome) (t : ComponentTypeId) :
    (record.components registry t).isSome ↔
      t ∈ record.blocks.map ComponentBlock.type := by
  constructor
  · intro present
    by_contra absent
    rw [EntityRecord.components, Components.receiveAll_of_absent _ absent]
      at present
    exact absurd present (by simp)
  · intro member
    obtain ⟨block, inBlocks, rfl⟩ := List.mem_map.mp member
    obtain ⟨schema, found⟩ :=
      Option.isSome_iff_exists.mp (registered block inBlocks)
    rw [EntityRecord.components,
      Components.receiveAll_of_mem _ once inBlocks found]
    rfl

namespace World

variable {registry : ComponentRegistry} {format : PayloadFormat}
variable {w : World} {e : Entity} {t : ComponentTypeId}

/-- The entity is there to receive components at once. -/
structure Hosts (registry : ComponentRegistry) (e : Entity) (w : World) :
    Prop where
  stable : w.Stable registry
  idle : w.Idle
  alive : w.isAlive e = true

theorem isAlive_of_contents
    {w w' : World} {e : Entity} (change : Components → Components)
    (same : w'.contents = w.contents.adjust e change) (x : Entity) :
    w'.isAlive x = w.isAlive x := by
  rw [← contents_isSome, ← contents_isSome, same]
  by_cases isSelf : x = e
  · rw [isSelf, Contents.adjust_self, Option.isSome_map]
  · rw [Contents.adjust_of_ne _ _ isSelf]

/-- Adding a component without data makes it zero. -/
theorem addRaw_zeros
    (hosts : w.Hosts registry e) {schema : ComponentSchema}
    (registered : registry.schemaOf t = some schema) :
    let added := (w.addRaw registry e t none).state
    added.Hosts registry e ∧
    added.contents = w.contents.put e t
      (some (List.replicate schema.size 0)) ∧
    added.getRaw e t = some (List.replicate schema.size 0) := by
  have contentsEq := addRaw_contents (e := e) (t := t) hosts.stable.consistent
    hosts.idle.immediate hosts.idle.outside none
  rw [registered, ComponentRegistry.sizeOf_of_schemaOf registered] at contentsEq
  have put : (w.addRaw registry e t none).state.contents =
      w.contents.put e t (some (List.replicate schema.size 0)) := contentsEq
  have stable : (w.addRaw registry e t none).state.Stable registry :=
    hosts.stable.keeps (addRaw_realizes (stable_inductiveOn registry) e t none)
      (addRaw_createsNothing w e t none)
  have alive := (isAlive_of_contents _ put e).trans hosts.alive
  refine ⟨⟨stable, ?_, alive⟩, put, ?_⟩
  · exact (addRaw_control hosts.idle.immediate e t none).trans hosts.idle
  · rw [← bytesAt_eq_getRaw stable.consistent]
    have atSelf := congrFun put e
    rw [contents_of_alive alive, Contents.put, Contents.adjust_self,
      contents_of_alive hosts.alive, Option.map_some, Option.some.injEq]
      at atSelf
    rw [atSelf]
    exact if_pos rfl

/-- A payload leaves the size of the instance. -/
theorem storePayload_length
    (schema : ComponentSchema) (mask : List Bool) (inst payload : List UInt8) :
    (storePayload schema mask inst payload).length = inst.length :=
  length_storeFields _ _ _

/-- What a received block does to the contents. -/
theorem installBlock_spec
    (hosts : w.Hosts registry e) (block : ComponentBlock) :
    (installBlock registry e w block).state.Hosts registry e ∧
    (installBlock registry e w block).state.contents =
      w.contents.adjust e (·.receive registry block) := by
  unfold installBlock Components.receive
  cases registered : registry.schemaOf block.type with
  | none => exact ⟨hosts, (Contents.adjust_id w.contents e).symm⟩
  | some schema =>
      dsimp only
      obtain ⟨addedHosts, added, found⟩ := addRaw_zeros hosts registered
      rw [Traced.mapState_state, found, Option.getD_some]
      have sized : (storePayload schema block.mask
          (List.replicate schema.size 0) block.payload).length =
          registry.sizeOf block.type := by
        rw [storePayload_length, List.length_replicate,
          ComponentRegistry.sizeOf_of_schemaOf registered]
      have written := writeRaw_contents addedHosts.stable.consistent found
        addedHosts.alive (storePayload schema block.mask
          (List.replicate schema.size 0) block.payload)
      refine ⟨⟨?_, ?_, ?_⟩, ?_⟩
      · exact addedHosts.stable.keeps (writeRaw_realizes e block.type sized)
          (Traced.accepted_pure _ _)
      · exact (writeRaw_control _ _ _ _).trans addedHosts.idle
      · exact (isAlive_of_contents _ written e).trans addedHosts.alive
      · rw [written, added, Contents.put, Contents.put, Contents.adjust_adjust]
        apply Contents.adjust_congr
        intro components _
        funext u
        dsimp only [Function.comp, Components.put]
        split <;> rfl

/-- Installing blocks changes the components of their entity only. -/
theorem installBlocks_spec
    (hosts : w.Hosts registry e) (blocks : List ComponentBlock) :
    (installBlocks registry e w blocks).state.Hosts registry e ∧
    (installBlocks registry e w blocks).state.contents =
      w.contents.adjust e (·.receiveAll registry blocks) := by
  unfold installBlocks
  induction blocks generalizing w with
  | nil => exact ⟨hosts, (Contents.adjust_id w.contents e).symm⟩
  | cons block blocks inductionHypothesis =>
      obtain ⟨nextHosts, next⟩ := installBlock_spec hosts block
      obtain ⟨lastHosts, last⟩ := inductionHypothesis nextHosts
      refine ⟨lastHosts, ?_⟩
      rw [Traced.forEach_cons, Traced.andThen_state, last, next,
        Contents.adjust_adjust]
      rfl

/-- Receiving a parsable block installs it. -/
theorem receiveBlock_performs :
    (receiveBlock registry format e).Performs (fun w _ => w.Hosts registry e)
      (blockParser registry format) (installBlock registry e) := by
  intro w buf input block rest hosts remaining parsed
  obtain ⟨t, between, schema, later, parsedType, registered, parsedMask,
    parsedBytes, typeEq⟩ := blockParser_eq_some.mp parsed
  obtain ⟨readType, afterType⟩ := BinaryBuffer.readNumber_follows 4 buf input t
    between remaining parsedType
  have readType' : buf.readU32 = some (t, buf.upTo between) := readType
  obtain ⟨fits, payloadEq, rfl⟩ := Parser.bytes_eq_some.mp parsedBytes
  have afterMask := format.mask_remaining schema (buf.upTo between) between
    block.mask later afterType parsedMask
  obtain ⟨_, _, found⟩ := addRaw_zeros hosts registered
  have read := format.read_eq schema (List.replicate schema.size 0)
    (buf.upTo between) between block.mask later afterType parsedMask fits
  refine ⟨?_, (afterMask.advance fits).1⟩
  unfold receiveBlock installBlock
  simp only [readType', typeEq, registered, found, read, payloadEq,
    Traced.mapState, Option.getD_some, BinaryBuffer.upTo_upTo]

/-- Receiving blocks parses them and installs them. -/
theorem receiveBlocks_performs :
    (receiveBlocks registry format e).Performs
      (fun w _ => w.Hosts registry e) (blocksParser registry format)
      (installBlocks registry e) := by
  intro w buf input blocks rest hosts remaining parsed
  obtain ⟨count, between, parsedCount, parsedBlocks⟩ :=
    Parser.andThen_eq_some.mp parsed
  obtain ⟨readCount, after⟩ := BinaryBuffer.readNumber_follows 2 buf input count
    between remaining parsedCount
  have readCount' : buf.readU16 = some (count, buf.upTo between) := readCount
  have repeated : ((receiveBlock registry format e).times count).Performs
      (fun w _ => w.Hosts registry e)
      (Parser.many count (blockParser registry format))
      (installBlocks registry e) :=
    receiveBlock_performs.times (fun _ _ _ pends => pends)
      (fun _ block _ pends => (installBlock_spec pends block).1) count
  unfold receiveBlocks
  rw [readCount']
  exact repeated w (buf.upTo between) between blocks rest hosts after
    parsedBlocks

/-! ## Records -/

/-- What receiving a record does to a world. -/
def installRecord (registry : ComponentRegistry) (w : World)
    (record : EntityRecord) : Traced Effect World :=
  (w.createEntityPreassigned record.id).andThen fun v =>
    installBlocks registry ⟨record.id⟩ v record.blocks

/-- The world can take in the records: their ids are admissible and dead. -/
structure Awaits (registry : ComponentRegistry) (w : World)
    (records : List EntityRecord) : Prop where
  stable : w.Stable registry
  idle : w.Idle
  dead : ∀ record ∈ records, w.isAlive ⟨record.id⟩ = false
  accepted : ∀ record ∈ records, idRefused record.id = false
  once : (records.map EntityRecord.id).Nodup

theorem Awaits.head
    {record : EntityRecord} {records : List EntityRecord}
    (awaits : w.Awaits registry (record :: records)) :
    w.Awaits registry [record] where
  stable := awaits.stable
  idle := awaits.idle
  dead other member := awaits.dead other
    (List.mem_cons.mpr (Or.inl (List.mem_singleton.mp member)))
  accepted other member := awaits.accepted other
    (List.mem_cons.mpr (Or.inl (List.mem_singleton.mp member)))
  once := List.nodup_singleton _

theorem idRefused_eq_false
    {id : UInt64} (accepted : idRefused id = false) :
    ¬(⟨id⟩ : Entity).slot = 2 ^ 32 - 1 ∧
      ¬(⟨id⟩ : Entity).slot ≥ maxPreassignedSlot := by
  unfold idRefused at accepted
  rw [Bool.or_eq_false_iff, decide_eq_false_iff_not, decide_eq_false_iff_not]
    at accepted
  exact accepted

theorem real_of_accepted
    {id : UInt64} (accepted : idRefused id = false) :
    (⟨id⟩ : Entity) ≠ Entity.null := by
  intro isNull
  apply (idRefused_eq_false accepted).1
  rw [isNull]
  rfl

/-- The handle of a creation that is not refused is its id, which was dead. -/
theorem preassignedHandle_given
    {id : UInt64} (given : w.preassignedHandle id ≠ Entity.null) :
    idRefused id = false ∧ w.isAlive ⟨id⟩ = false := by
  unfold preassignedHandle at given
  dsimp only at given
  unfold idRefused isAlive
  by_cases last : (⟨id⟩ : Entity).slot = 2 ^ 32 - 1
  · rw [if_pos last] at given
    exact absurd rfl given
  · rw [if_neg last] at given
    by_cases far : (⟨id⟩ : Entity).slot ≥ maxPreassignedSlot
    · rw [if_pos far] at given
      exact absurd rfl given
    · rw [if_neg far] at given
      rw [decide_eq_false last, decide_eq_false far]
      cases alive : w.store.isAlive ⟨id⟩ with
      | true =>
          rw [if_pos alive] at given
          exact absurd rfl given
      | false => exact ⟨rfl, Bool.and_false _⟩

/-- An accepted dead id comes to life without components. -/
theorem createEntityPreassigned_spawns
    (stable : w.Stable registry) {id : UInt64}
    (accepted : idRefused id = false) (dead : w.isAlive ⟨id⟩ = false) :
    let created := (w.createEntityPreassigned id).state
    w.preassignedHandle id = ⟨id⟩ ∧
    created.Stable registry ∧
    created.contents = w.contents.spawn ⟨id⟩ := by
  have real := real_of_accepted accepted
  obtain ⟨formed, bounded⟩ := idRefused_eq_false accepted
  have unlocated := lookup_eq_none_of_dead real dead
  have storeDead : w.store.isAlive ⟨id⟩ = false := by
    rw [ArchetypeStore.isAlive, unlocated]
    rfl
  have grownDead : ¬(w.setSlots (w.slots.growTo
      ((⟨id⟩ : Entity).slot + 1))).store.isAlive ⟨id⟩ = true :=
    Bool.eq_false_iff.mp storeDead
  have entered := enterEmpty_contents (w := w.setSlots (w.slots.adopt ⟨id⟩))
    stable.consistent real unlocated
  refine ⟨?_, ?_, ?_⟩
  · unfold preassignedHandle
    dsimp only
    rw [if_neg formed, if_neg bounded, storeDead, if_neg Bool.false_ne_true]
  · apply (createEntityPreassigned_realizes id).keeps
      (stable_inductiveOn registry) w stable
    unfold createEntityPreassigned
    dsimp only
    rw [if_neg formed, if_neg bounded, if_neg grownDead]
    exact fun effect member => by
      rw [List.mem_singleton] at member
      rw [member]
      trivial
  · unfold createEntityPreassigned
    dsimp only
    rw [if_neg formed, if_neg bounded, if_neg grownDead]
    exact (contents_congr (agrees_invalidateCache _ :
      Agrees registry _ _).store_eq).trans entered

/-- The entity of an accepted dead id is ready for its blocks. -/
theorem createEntityPreassigned_spec
    (stable : w.Stable registry) (idle : w.Idle) {id : UInt64}
    (accepted : idRefused id = false) (dead : w.isAlive ⟨id⟩ = false) :
    let created := (w.createEntityPreassigned id).state
    w.preassignedHandle id = ⟨id⟩ ∧
    created.Hosts registry ⟨id⟩ ∧
    created.contents = w.contents.spawn ⟨id⟩ := by
  obtain ⟨handle, createdStable, spawned⟩ :=
    createEntityPreassigned_spawns stable accepted dead
  refine ⟨handle, ⟨createdStable,
    (createEntityPreassigned_control w id).trans idle, ?_⟩, spawned⟩
  rw [← contents_isSome, spawned]
  unfold Contents.spawn
  rw [if_pos rfl]
  rfl

/-- A refused creation changes nothing that is read of a world. -/
theorem createEntityPreassigned_refused
    {id : UInt64} (refused : w.preassignedHandle id = Entity.null) :
    (w.createEntityPreassigned id).state.contents = w.contents := by
  unfold preassignedHandle at refused
  unfold createEntityPreassigned
  dsimp only at refused ⊢
  by_cases last : (⟨id⟩ : Entity).slot = 2 ^ 32 - 1
  · rw [if_pos last]
    rfl
  · rw [if_neg last] at refused ⊢
    by_cases far : (⟨id⟩ : Entity).slot ≥ maxPreassignedSlot
    · rw [if_pos far]
      rfl
    · rw [if_neg far] at refused ⊢
      by_cases alive : w.store.isAlive ⟨id⟩ = true
      · exact congrArg (fun step : Traced Effect World => step.state.contents)
          (if_pos alive)
      · rw [if_neg alive] at refused
        rw [refused] at last
        exact absurd rfl last

/-- Installing a record adds its entity with its components. -/
theorem installRecord_spec
    {record : EntityRecord} {records : List EntityRecord}
    (awaits : w.Awaits registry (record :: records)) :
    (installRecord registry w record).state.Awaits registry records ∧
    ∀ e, (installRecord registry w record).state.contents e =
      if e = ⟨record.id⟩ then some (record.components registry)
      else w.contents e := by
  obtain ⟨_, hosts, spawned⟩ := createEntityPreassigned_spec awaits.stable
    awaits.idle (awaits.accepted record List.mem_cons_self)
    (awaits.dead record List.mem_cons_self)
  obtain ⟨lastHosts, installed⟩ := installBlocks_spec hosts record.blocks
  have once := List.nodup_cons.mp awaits.once
  have contentsEq : ∀ e, (installRecord registry w record).state.contents e =
      if e = ⟨record.id⟩ then some (record.components registry)
      else w.contents e := by
    intro e
    unfold installRecord
    rw [Traced.andThen_state, installed, spawned]
    by_cases isSelf : e = ⟨record.id⟩
    · rw [if_pos isSelf, isSelf, Contents.adjust_self, Contents.spawn,
        if_pos rfl]
      rfl
    · rw [if_neg isSelf, Contents.adjust_of_ne _ _ isSelf, Contents.spawn,
        if_neg isSelf]
  refine ⟨⟨lastHosts.stable, lastHosts.idle, ?_, ?_, once.2⟩, contentsEq⟩
  · intro later member
    have apart : (⟨later.id⟩ : Entity) ≠ ⟨record.id⟩ := by
      intro same
      have sameId : later.id = record.id := congrArg Entity.id same
      apply once.1
      rw [← sameId]
      exact List.mem_map_of_mem member
    rw [← contents_isSome, contentsEq, if_neg apart, contents_isSome]
    exact awaits.dead later (List.mem_cons_of_mem record member)
  · exact fun later member =>
      awaits.accepted later (List.mem_cons_of_mem record member)

/-- Installing records adds each entity with its components. -/
theorem installRecords_spec
    {records : List EntityRecord} (awaits : w.Awaits registry records) :
    let installed := (Traced.forEach (installRecord registry) w records).state
    installed.Awaits registry [] ∧
    ∀ e, installed.contents e =
      match records.find? fun record => record.id = e.id with
      | some record => some (record.components registry)
      | none => w.contents e := by
  induction records generalizing w with
  | nil => exact ⟨awaits, fun _ => rfl⟩
  | cons record records inductionHypothesis =>
      obtain ⟨next, installed⟩ := installRecord_spec awaits
      obtain ⟨last, rest⟩ := inductionHypothesis next
      refine ⟨last, fun e => ?_⟩
      have once := List.nodup_cons.mp awaits.once
      rw [Traced.forEach_cons, Traced.andThen_state, rest, installed,
        List.find?_cons]
      by_cases isSelf : record.id = e.id
      · rw [← isSelf, find?_record_eq_none once.1, decide_eq_true rfl]
        dsimp only
        rw [if_pos (by rw [isSelf])]
      · rw [decide_eq_false isSelf]
        dsimp only
        rw [if_neg fun same => isSelf (congrArg Entity.id same).symm]

/-- Receiving a parsable record of a dead entity installs it. -/
theorem receiveRecord_performs :
    (receiveRecord registry format).Performs
      (fun w record => w.Awaits registry [record])
      (recordParser registry format) (installRecord registry) := by
  intro w buf input record rest awaits remaining parsed
  obtain ⟨id, between, parsedId, parsedContent⟩ :=
    Parser.andThen_eq_some.mp parsed
  obtain ⟨blocks, parsedBlocks, rfl⟩ := Parser.map_eq_some.mp parsedContent
  obtain ⟨readId, after⟩ := BinaryBuffer.readNumber_follows 8 buf input id
    between remaining parsedId
  have readId' : buf.readU64 = some (id, buf.upTo between) := readId
  have accepted : idRefused (UInt64.ofNat id) = false :=
    awaits.accepted _ (List.mem_singleton_self _)
  obtain ⟨handle, hosts, _⟩ := createEntityPreassigned_spec awaits.stable
    awaits.idle accepted (awaits.dead _ (List.mem_singleton_self _))
  obtain ⟨received, last⟩ := receiveBlocks_performs _ (buf.upTo between) between
    blocks rest hosts after parsedBlocks
  refine ⟨?_, last⟩
  unfold receiveRecord installRecord
  rw [readId']
  dsimp only
  rw [handle, if_neg (real_of_accepted accepted), received,
    BinaryBuffer.upTo_upTo]
  rfl

end World
end VortarisECS
