import VortarisECS.Core.FiniteMap
import VortarisECS.Network.FullStateTransfer
import VortarisECS.Serialization.Reencode

/-!
# What a full state leaves behind

After a full state was applied the client has exactly the listed components of
the listed entities, nothing of the ghosts, and everything else as before.  A
field of a listed component holds the bytes that were sent for it unless a later
field of the component, laid out over it, was sent with other bytes.
-/

namespace VortarisECS

/-- The entity has exactly the components of the record, each with the bytes sent
for its fields and zeros elsewhere. -/
def HoldsRecord (registry : ComponentRegistry) (contents : Contents)
    (record : EntityRecord) : Prop :=
  ∃ components, contents ⟨record.id⟩ = some components ∧
    (∀ t, (components t).isSome ↔
      t ∈ record.blocks.map ComponentBlock.type) ∧
    ∀ block ∈ record.blocks, ∀ schema,
      registry.schemaOf block.type = some schema →
      ∃ inst, components block.type = some inst ∧
        inst.length = schema.size ∧
        (∀ patch ∈ block.patches schema, patch.WrittenIn inst) ∧
        ∀ i < schema.size, (∀ patch ∈ block.patches schema, ¬patch.Covers i) →
          inst[i]? = some 0

namespace Client

/-- What a client is like after a full state with the given records. -/
structure Installs (registry : ComponentRegistry) (c : Client)
    (records : List EntityRecord) (applied : Client) : Prop where
  represents : applied.world.Represents applied.world.contents
  holds : ∀ record ∈ records,
    HoldsRecord registry applied.world.contents record
  ghosts : ∀ e ∈ c.replicated, e.id ∉ records.map EntityRecord.id →
    applied.world.isAlive e = false
  others : ∀ e, e ∉ c.replicated → e.id ∉ records.map EntityRecord.id →
    applied.world.contents e = c.world.contents e
  tracked : ∀ e, e ∈ applied.replicated ↔
    e.id ∈ records.map EntityRecord.id

/-- Applying a full state installs its records, and applying it again changes
nothing. -/
def FullStateInstalls (registry : ComponentRegistry) (c : Client)
    (data : List UInt8) (records : List EntityRecord) : Prop :=
  let once := (c.applyFullState registry data).state
  let twice := (once.applyFullState registry data).state
  c.Installs registry records once ∧
    twice.world.Represents once.world.contents ∧
    ∀ e, e ∈ twice.replicated ↔ e ∈ once.replicated

variable {registry : ComponentRegistry} {c : Client}

/-- A record whose types are registered and different is held exactly when its
fields agree. -/
theorem holdsRecord_iff
    {contents : Contents} {record : EntityRecord}
    (found : contents ⟨record.id⟩ = some (record.components registry))
    (once : (record.blocks.map ComponentBlock.type).Nodup)
    (registered : ∀ block ∈ record.blocks,
      (registry.schemaOf block.type).isSome) :
    HoldsRecord registry contents record ↔
      ∀ block ∈ record.blocks, block.FieldsAgree registry := by
  have instances : ∀ block ∈ record.blocks, ∀ schema,
      registry.schemaOf block.type = some schema →
      record.components registry block.type =
        some (writePatches (List.replicate schema.size 0)
          (block.patches schema)) :=
    fun block member schema => Components.receiveAll_of_mem _ once member
  constructor
  · rintro ⟨components, found', _, holds⟩ block member schema known
    rw [found, Option.some.injEq] at found'
    obtain ⟨inst, instEq, _, written, _⟩ := holds block member schema known
    rw [← found', instances block member schema known, Option.some.injEq]
      at instEq
    rw [← instEq, writePatches_writes_iff, List.length_replicate] at written
    exact written
  · intro agree
    refine ⟨_, found, fun t => ?_, fun block member schema known => ?_⟩
    · constructor
      · intro present
        by_contra absent
        unfold EntityRecord.components at present
        rw [Components.receiveAll_of_absent _ absent] at present
        exact absurd present (by simp)
      · intro member
        obtain ⟨block, blockMember, rfl⟩ := List.mem_map.mp member
        obtain ⟨schema, known⟩ :=
          Option.isSome_iff_exists.mp (registered block blockMember)
        rw [instances block blockMember schema known]
        rfl
    · refine ⟨_, instances block member schema known, ?_, ?_, ?_⟩
      · rw [length_writePatches, List.length_replicate]
      · rw [writePatches_writes_iff, List.length_replicate]
        exact agree block member schema known
      · intro i inside outside
        rw [getElem?_writePatches_outside outside, List.getElem?_replicate,
          if_pos inside]

/-- Installing a full state in the grammar, for records of different registered
types. -/
theorem fullStateInstalls_of_parsed
    (rest : c.world.AtRest registry) {data : List UInt8}
    (inMemory : data.length < sizeLimit) {records : List EntityRecord}
    (parsed : parsePacket registry .fullState data = some (.fullState records))
    (admissible : Admissible records [])
    (once : ∀ record ∈ records,
      (record.blocks.map ComponentBlock.type).Nodup)
    (registered : ∀ record ∈ records, ∀ block ∈ record.blocks,
      (registry.schemaOf block.type).isSome) :
    c.FullStateInstalls registry data records ↔
      ∀ record ∈ records, ∀ block ∈ record.blocks,
        block.FieldsAgree registry := by
  obtain ⟨restOnce, contentsOnce, trackedOnce⟩ :=
    applyFullState_installs rest inMemory parsed admissible
  obtain ⟨restTwice, contentsTwice, trackedTwice⟩ :=
    applyFullState_installs restOnce inMemory parsed admissible
  have holdsIff : ∀ record ∈ records,
      HoldsRecord registry
          (c.applyFullState registry data).state.world.contents record ↔
        ∀ block ∈ record.blocks, block.FieldsAgree registry := by
    intro record member
    refine holdsRecord_iff ?_ (once record member) (registered record member)
    rw [contentsOnce, find?_record_of_mem admissible.2 member]
  have sameContents :
      ((c.applyFullState registry data).state.applyFullState registry
        data).state.world.contents =
      (c.applyFullState registry data).state.world.contents := by
    funext e
    rw [contentsTwice]
    by_cases member : e.id ∈ records.map EntityRecord.id
    · obtain ⟨record, recordMember, sameId⟩ := List.mem_map.mp member
      have here := contentsOnce e
      have found := find?_record_of_mem admissible.2 recordMember
      rw [sameId] at found
      rw [found] at here ⊢
      exact here.symm
    · rw [find?_record_eq_none member]
      exact if_neg (mt (trackedOnce e).mp member)
  constructor
  · rintro ⟨installs, _⟩ record member
    exact (holdsIff record member).mp (installs.holds record member)
  · intro agree
    refine ⟨⟨World.represents_contents restOnce.stable.consistent,
      fun record member => (holdsIff record member).mpr (agree record member),
      fun e former absent => ?_, fun e new absent => ?_, trackedOnce⟩, ?_,
      fun e => (trackedTwice e).trans (trackedOnce e).symm⟩
    · rw [← World.contents_isSome, contentsOnce, find?_record_eq_none absent]
      dsimp only
      rw [if_pos former]
      rfl
    · rw [contentsOnce, find?_record_eq_none absent]
      exact if_neg new
    · rw [← sameContents]
      exact World.represents_contents restTwice.stable.consistent

/-- A full state a server sends is installed by any client exactly when the
fields of every component it sends agree. -/
theorem fullStateInstalls_iff
    {server : World} {order : List Ptr}
    (consistent : server.store.Consistent registry)
    (sorted : SortedBySignature server.store order)
    (counted : ∀ e, (server.networkedOf registry e).length < 2 ^ 16)
    (small : (server.fullStateRecords registry order).length < 2 ^ 32)
    (inMemory : (server.serializeFullState registry order).size < sizeLimit)
    (sends : ∃ e, server.Replicates registry e)
    (inRange : ∀ e, server.Replicates registry e →
      e.slot < maxPreassignedSlot)
    (rest : c.world.AtRest registry) :
    parsePacket registry .fullState
        (server.serializeFullState registry order).data =
      some (.fullState (server.fullStateRecords registry order)) ∧
    (c.FullStateInstalls registry
        (server.serializeFullState registry order).data
        (server.fullStateRecords registry order) ↔
      ∀ e, ∀ t ∈ server.networkedOf registry e,
        (server.blockOf registry e (spawnMaskOf registry) t).FieldsAgree
          registry) := by
  obtain ⟨_, parsed, admissible, _⟩ | ⟨stays, _⟩ :=
    sendFullState_cases consistent sorted.perm counted small inMemory rest
  swap
  · exact absurd ⟨sends, inRange⟩ stays
  have described : ∀ record ∈ server.fullStateRecords registry order,
      record = server.spawnRecord registry ⟨record.id⟩ := by
    intro record member
    obtain ⟨e, _, rfl⟩ := List.mem_map.mp member
    rfl
  refine ⟨parsed, (fullStateInstalls_of_parsed rest inMemory parsed admissible
    ?_ ?_).trans ⟨?_, ?_⟩⟩
  · intro record member
    rw [described record member]
    unfold World.spawnRecord
    rw [World.recordOf_types]
    exact ((World.getEntityComponentTypes_ascending consistent _).imp
      ne_of_lt).filter _
  · intro record member block blockMember
    rw [described record member] at blockMember
    obtain ⟨t, inTypes, rfl⟩ := List.mem_map.mp blockMember
    obtain ⟨schema, _, registered, _⟩ := World.getRaw_of_mem_types consistent
      (World.mem_networkedOf.mp inTypes).1
    exact Option.isSome_iff_exists.mpr ⟨schema, registered⟩
  · intro agree e t inTypes
    have replicates : server.Replicates registry e :=
      List.ne_nil_of_mem inTypes
    obtain ⟨record, member, sameId⟩ := List.mem_map.mp
      ((World.mem_fullStateRecords_iff consistent sorted.perm).mpr replicates)
    apply agree record member
    rw [described record member, sameId]
    exact List.mem_map_of_mem inTypes
  · intro agree record member block blockMember
    rw [described record member] at blockMember
    obtain ⟨t, inTypes, rfl⟩ := List.mem_map.mp blockMember
    exact agree _ t inTypes

/-- A server with one entity of one byte, and a client with a ghost. -/
theorem fullStateInstalls_iff_health :
    let registry := ComponentRegistry.healthRegistry
    let server := (WorldOp.run registry
      [.createEntity, .createEntity, .addRaw ⟨2⟩ 1 (some [7])]).state
    let c : Client := ⟨(WorldOp.run registry [.createEntity]).state, [⟨1⟩]⟩
    parsePacket registry .fullState
        (server.serializeFullState registry [1, 0]).data =
      some (.fullState (server.fullStateRecords registry [1, 0])) ∧
    (c.FullStateInstalls registry
        (server.serializeFullState registry [1, 0]).data
        (server.fullStateRecords registry [1, 0]) ↔
      ∀ e, ∀ t ∈ server.networkedOf registry e,
        (server.blockOf registry e (spawnMaskOf registry) t).FieldsAgree
          registry) := by
  have serverSound : World.Sound ComponentRegistry.healthRegistry
      (WorldOp.run ComponentRegistry.healthRegistry
        [.createEntity, .createEntity, .addRaw ⟨2⟩ 1 (some [7])]).state :=
    WorldOp.run_sound (by simp [WorldOp.PreassignsNothing])
  have clientSound : World.Sound ComponentRegistry.healthRegistry
      (WorldOp.run ComponentRegistry.healthRegistry [.createEntity]).state :=
    WorldOp.run_sound (by simp [WorldOp.PreassignsNothing])
  have consistent := serverSound.stable.consistent
  have sorted : SortedBySignature (WorldOp.run
      ComponentRegistry.healthRegistry
      [.createEntity, .createEntity, .addRaw ⟨2⟩ 1 (some [7])]).state.store
      [1, 0] := ⟨by decide, by decide⟩
  have inRange :=
    (World.fullStateRecords_admissible_iff consistent sorted.perm).mp
      (by decide)
  exact fullStateInstalls_iff consistent sorted
    (fun e => (World.networkedOf_length_le consistent e).trans_lt (by decide))
    (by decide) (by decide) ⟨⟨2⟩, by decide⟩
    (fun e replicates =>
      (idRefused_eq_false_iff e).mp (inRange e replicates))
    ⟨clientSound.stable, WorldOp.run_idle _ _⟩

end Client

/-- A script component with an array whose 2 ^ 64 bytes of storage `size_t`
computes as none: the field behind it is laid out over it. -/
def ComponentRegistry.tagRegistry : ComponentRegistry :=
  (registerSchemaComponent .singlePrecision {} "Tag"
    [{ name := "mark", type := .u64, count := 2 ^ 61 },
      { name := "label", type := .stringFixed, count := 8 }]).2

/-- The label is sent without the bytes behind its NUL, which the mark needs: on
the client the mark does not hold what was sent for it. -/
theorem Client.not_fullStateInstalls_tag :
    let registry := ComponentRegistry.tagRegistry
    let server := (WorldOp.run registry
      [.createEntity, .addRaw ⟨1⟩ 1 (some [65, 0, 66, 66, 66, 66, 66, 66])]).state
    let records : List EntityRecord :=
      [⟨1, [⟨1, [true, true],
        [65, 0, 66, 66, 66, 66, 66, 66, 65, 0, 0, 0, 0, 0, 0, 0]⟩]⟩]
    SortedBySignature server.store [1, 0] ∧
    parsePacket registry .fullState
        (server.serializeFullState registry [1, 0]).data =
      some (.fullState records) ∧
    ¬Client.FullStateInstalls registry ⟨World.empty registry, []⟩
      (server.serializeFullState registry [1, 0]).data records := by
  refine ⟨⟨by decide, by decide⟩, by decide, fun installs => ?_⟩
  obtain ⟨components, _, _, holds⟩ :=
    installs.1.holds _ (List.mem_singleton_self _)
  obtain ⟨inst, _, _, written, _⟩ :=
    holds _ (List.mem_singleton_self _) _ rfl
  have mark := Patch.writtenIn_iff.mp
    (written _ List.mem_cons_self) 2 (by decide)
  have label := Patch.writtenIn_iff.mp
    (written _ (List.mem_cons_of_mem _ List.mem_cons_self)) 2 (by decide)
  rw [mark] at label
  revert label
  decide

end VortarisECS
