import VortarisECS.Network.Receive
import VortarisECS.Network.Tracking

/-!
# Sending a tick

The packets of a tick go straight to the client, which takes them in one after
the other: spawns, the delta, despawns, and now and then a full state.
-/

namespace VortarisECS
namespace World

variable {registry : ComponentRegistry} {w : World} {e : Entity}
variable {r : Replication}

/-- What the delta says about an entity. -/
def saidAbout (registry : ComponentRegistry) (w : World) (r : Replication)
    (e : Entity) : List DeltaComponent :=
  if w.isAlive e then w.deltaComponents registry r e (r.dirtyOf e) else []

/-- A full state that is sent is taken in: it lists somebody, and all ids in it
are in range. -/
def FullStateArrives (registry : ComponentRegistry) (w : World)
    (order : List Ptr) : Prop :=
  w.fullStateRecords registry order ≠ [] ∧
    ∀ record ∈ w.fullStateRecords registry order, idRefused record.id = false

instance (order : List Ptr) : Decidable (w.FullStateArrives registry order) :=
  inferInstanceAs (Decidable (_ ∧ _))

/-- The full state can be counted and fits into memory. -/
structure FullStateFits (registry : ComponentRegistry) (w : World)
    (order : List Ptr) : Prop where
  sorted : SortedBySignature w.store order
  counted : ∀ e, (w.networkedOf registry e).length < 2 ^ 16
  small : (w.fullStateRecords registry order).length < 2 ^ 32
  inMemory : (w.serializeFullState registry order).size < sizeLimit

/-- With few component types, the components of an entity can be counted. -/
theorem fullStateFits_of_few
    (consistent : w.store.Consistent registry)
    (few : registry.schemas.length < 2 ^ 16) {order : List Ptr}
    (sorted : SortedBySignature w.store order)
    (small : (w.fullStateRecords registry order).length < 2 ^ 32)
    (inMemory : (w.serializeFullState registry order).size < sizeLimit) :
    w.FullStateFits registry order :=
  ⟨sorted, fun e => (networkedOf_length_le consistent e).trans_lt few, small,
    inMemory⟩

/-- A full state arrives exactly if there is one and its slots are in range. -/
theorem fullStateArrives_iff
    (consistent : w.store.Consistent registry) {order : List Ptr}
    (perm : order.Perm w.store.archetypeList) :
    w.FullStateArrives registry order ↔
      (∃ e, w.Replicates registry e) ∧
        ∀ e, w.Replicates registry e → e.slot < maxPreassignedSlot := by
  have listed : ∀ e : Entity, e.id ∈ (w.fullStateRecords registry order).map
      EntityRecord.id ↔ w.Replicates registry e := fun e =>
    mem_fullStateRecords_iff consistent perm
  refine and_congr ⟨fun some => ?_, ?_⟩ ⟨fun accepted e replicates => ?_,
    fun inRange record member => ?_⟩
  · obtain ⟨record, member⟩ := List.exists_mem_of_ne_nil _ some
    exact ⟨⟨record.id⟩, (listed ⟨record.id⟩).mp (List.mem_map_of_mem member)⟩
  · rintro ⟨e, replicates⟩ none
    have member := (listed e).mpr replicates
    rw [none] at member
    exact absurd member List.not_mem_nil
  · obtain ⟨record, member, sameId⟩ := List.mem_map.mp ((listed e).mpr replicates)
    rw [← idRefused_eq_false_iff, ← sameId]
    exact accepted record member
  · have replicates := (listed ⟨record.id⟩).mp (List.mem_map_of_mem member)
    exact (idRefused_eq_false_iff ⟨record.id⟩).mpr (inRange _ replicates)

end World

/-! ## Packets that are read back -/

/-- A spawn packet is parsed. -/
theorem spawnPacket_parsed
    {registry : ComponentRegistry} {w : World} {e : Entity}
    (consistent : w.store.Consistent registry)
    (counted : (w.networkedOf registry e).length < 2 ^ 16) :
    parsePacket registry .spawn (Replication.spawnPacket registry w e).data =
      some (.spawn (w.spawnRecord registry e)) := by
  have blockCount : (w.spawnRecord registry e).blocks.length =
      (w.networkedOf registry e).length := List.length_map _
  have bytes : (Replication.spawnPacket registry w e).data =
      littleEndian 2 syncVersion ++
        encodeRecord .masked (w.spawnRecord registry e) := by
    have countEq : (networkedTypes registry
        (w.getEntityComponentTypes e)).length % 2 ^ 16 =
        (w.spawnRecord registry e).blocks.length :=
      (Nat.mod_eq_of_lt counted).trans blockCount.symm
    unfold Replication.spawnPacket
    dsimp only
    rw [countEq, World.serializeNetworked_data consistent]
    unfold encodeRecord encodeBlocks
    simp only [BinaryBuffer.writeU16, BinaryBuffer.writeU64,
      BinaryBuffer.writeNumber, BinaryBuffer.writeBytes, List.nil_append,
      List.append_assoc]
    rfl
  have version : versionParser.Reads (littleEndian 2 syncVersion)
      syncVersion := by
    intro rest
    rw [versionParser_eq_some]
    exact ⟨Parser.reads_number (by decide) rest, by decide, by decide⟩
  have record : (recordParser registry .masked).Reads _ _ :=
    recordParser_reads (World.spawnRecord_encodable consistent counted)
  rw [bytes]
  exact (version.andThen (record.map SyncPacket.spawn)).complete

/-- So is a despawn packet. -/
theorem despawnPacket_parsed (registry : ComponentRegistry) (e : Entity) :
    parsePacket registry .despawn (Replication.despawnPacket e).data =
      some (.despawn e.id) := by
  have bounded : e.id.toNat < 256 ^ 8 := e.id.toNat_lt
  have reads := (Parser.reads_number bounded).map fun id =>
    SyncPacket.despawn (UInt64.ofNat id)
  rw [UInt64.ofNat_toNat] at reads
  exact reads.complete

/-- A delta that says something is sent. -/
theorem Replication.sendNonempty_delta
    {registry : ComponentRegistry} {w : World} {r : Replication}
    (consistent : w.store.Consistent registry) (sets : r.DirtySets)
    (counted : ∀ entity ∈ w.deltaEntities registry r,
      entity.components.length < 2 ^ 8)
    (small : (w.deltaEntities registry r).length < 2 ^ 32)
    (some : w.deltaEntities registry r ≠ []) :
    sendNonempty .delta (r.buildDelta registry w).2 =
      [(.delta, (r.buildDelta registry w).2.data)] := by
  unfold sendNonempty BinaryBuffer.size
  apply if_pos
  rw [(buildDelta_spec consistent sets counted small).1, if_neg some,
    List.length_append, length_littleEndian]
  exact Nat.lt_add_right _ (by decide)

/-- What a delta says of an entity, entity by entity. -/
theorem saidOf_cons (entity : DeltaEntity) (entities : List DeltaEntity)
    (e : Entity) :
    Client.saidOf (entity :: entities) e =
      (if entity.id = e.id then entity.components else []) ++
        Client.saidOf entities e := by
  unfold Client.saidOf
  rw [List.filter_cons]
  split <;> rename_i same
  · rw [List.flatMap_cons, if_pos (of_decide_eq_true same)]
  · rw [if_neg (by simpa using same), List.nil_append]

/-- A delta says of an entity what is due. -/
theorem saidOf_deltaEntities
    {registry : ComponentRegistry} {w : World} {r : Replication} (e : Entity) :
    Client.saidOf (w.deltaEntities registry r) e =
      w.saidAbout registry r e := by
  have general : ∀ entries : List (Σ _ : Entity, List ComponentTypeId),
      (entries.map Sigma.fst).Nodup →
      Client.saidOf (entries.filterMap (w.deltaEntity registry r)) e =
        if w.isAlive e then
          w.deltaComponents registry r e ((entries.dlookup e).getD [])
        else [] := by
    intro entries
    induction entries with
    | nil =>
        intro _
        rw [List.dlookup_nil]
        exact (ite_self _).symm
    | cons entry entries inductionHypothesis =>
        obtain ⟨x, types⟩ := entry
        intro once
        rw [List.map_cons, List.nodup_cons] at once
        have later := inductionHypothesis once.2
        by_cases isSelf : x = e
        · subst isSelf
          have absent : entries.dlookup x = none :=
            List.dlookup_eq_none.mpr once.1
          have unnamed : Client.saidOf
              (entries.filterMap (w.deltaEntity registry r)) x = [] := by
            rw [later, absent]
            exact ite_self _
          rw [List.dlookup_cons_eq, Option.getD_some, List.filterMap_cons]
          cases said : w.deltaEntity registry r ⟨x, types⟩ with
          | none =>
              refine unnamed.trans ?_
              unfold World.deltaEntity at said
              split at said
              · rename_i alive
                rw [if_pos alive]
                dsimp only at said
                split at said
                · rename_i empty
                  exact (List.isEmpty_iff.mp empty).symm
                · exact absurd said (Option.some_ne_none _)
              · rename_i dead
                rw [if_neg dead]
          | some entity =>
              obtain ⟨alive, _, rfl⟩ := World.deltaEntity_eq_some.mp said
              rw [if_pos alive, saidOf_cons, if_pos rfl, unnamed,
                List.append_nil]
        · rw [List.dlookup_cons_ne _ _ (Ne.symm isSelf), ← later,
            List.filterMap_cons]
          cases said : w.deltaEntity registry r ⟨x, types⟩ with
          | none => rfl
          | some entity =>
              obtain ⟨_, _, rfl⟩ := World.deltaEntity_eq_some.mp said
              rw [saidOf_cons, if_neg fun sameId => isSelf
                (congrArg Entity.mk sameId), List.nil_append]
  rw [World.deltaEntities, general _ r.dirty.nodupKeys]
  rfl

namespace Client

variable {registry : ComponentRegistry} {w : World} {c c' : Client}

/-! ## The packets of a tick -/

/-- Take in packets one after the other. -/
def receiveAll (registry : ComponentRegistry) (c : Client)
    (packets : List Replication.SentPacket) : Client :=
  packets.foldl (fun c packet =>
    (c.applyPacket registry packet.1 packet.2).state) c

/-- Packets are received one after the other. -/
theorem receiveAll_cons (c : Client) (packet : Replication.SentPacket)
    (packets : List Replication.SentPacket) :
    c.receiveAll registry (packet :: packets) =
      (c.applyPacket registry packet.1 packet.2).state.receiveAll registry
        packets := rfl

theorem receiveAll_append
    (c : Client) (first second : List Replication.SentPacket) :
    c.receiveAll registry (first ++ second) =
      (c.receiveAll registry first).receiveAll registry second :=
  List.foldl_append

/-- The spawns of `entities` came in. -/
structure Spawned (registry : ComponentRegistry) (w : World)
    (entities : List Entity) (c c' : Client) : Prop where
  rest : c'.world.AtRest registry
  contents : ∀ e, c'.world.contents e =
    if e ∈ entities ∧ c.CanSpawn e.id then
      some ((w.spawnRecord registry e).components registry)
    else c.world.contents e
  replicated : ∀ e, e ∈ c'.replicated ↔
    e ∈ c.replicated ∨ e ∈ entities ∧ c.CanSpawn e.id

/-- A delta came in. -/
structure Updated (registry : ComponentRegistry) (w : World) (r : Replication)
    (c c' : Client) : Prop where
  rest : c'.world.AtRest registry
  contents : ∀ e, c'.world.contents e = (c.world.contents e).map fun held =>
    (w.saidAbout registry r e).foldl (Components.receiveDelta registry) held
  replicated : ∀ e, e ∈ c'.replicated ↔ e ∈ c.replicated ∨
    w.saidAbout registry r e ≠ [] ∧ c.world.isAlive e = true

/-- The despawns of `entities` came in. -/
structure Despawned (registry : ComponentRegistry) (entities : List Entity)
    (c c' : Client) : Prop where
  rest : c'.world.AtRest registry
  contents : ∀ e, c'.world.contents e =
    if e ∈ entities then none else c.world.contents e
  replicated : ∀ e, e ∈ c'.replicated ↔ e ∈ c.replicated ∧ e ∉ entities

/-- A full state came in. -/
structure Reconciled (registry : ComponentRegistry) (w : World)
    (c c' : Client) : Prop where
  rest : c'.world.AtRest registry
  contents : ∀ e, c'.world.contents e =
    if w.Replicates registry e then
      some ((w.spawnRecord registry e).components registry)
    else if e ∈ c.replicated then none
    else c.world.contents e
  replicated : ∀ e, e ∈ c'.replicated ↔ w.Replicates registry e

/-- A client that receives a spawn has the entity. -/
theorem receiveSpawn_spawned
    (consistent : w.store.Consistent registry)
    (rest : c.world.AtRest registry) {x : Entity}
    (counted : (w.networkedOf registry x).length < 2 ^ 16)
    (inMemory : (Replication.spawnPacket registry w x).data.length <
      sizeLimit) :
    Spawned registry w [x] c (c.applyPacket registry .spawn
      (Replication.spawnPacket registry w x).data).state := by
  obtain ⟨last, contentsEq, replicatedIff⟩ := receiveSpawn_spec rest inMemory
    (spawnPacket_parsed consistent counted)
  refine ⟨last, fun e => ?_, fun e => ?_⟩
  · rw [contentsEq]
    by_cases isSelf : e = x
    · subst isSelf
      exact if_congr (and_congr_left fun _ =>
        iff_of_true rfl (List.mem_singleton_self e)) rfl rfl
    · rw [if_neg fun both => isSelf both.1,
        if_neg fun both => isSelf (List.mem_singleton.mp both.1)]
  · rw [replicatedIff, List.mem_singleton]
    refine or_congr_right ⟨?_, ?_⟩ <;> rintro ⟨rfl, canSpawn⟩ <;>
      exact ⟨rfl, canSpawn⟩

/-- After a spawn its id is taken. -/
theorem Spawned.canSpawn_iff
    {entities : List Entity} (spawned : Spawned registry w entities c c')
    (e : Entity) : c'.CanSpawn e.id ↔ c.CanSpawn e.id ∧ e ∉ entities := by
  have alive : c'.world.isAlive e = (c'.world.contents e).isSome :=
    (World.contents_isSome _ e).symm
  have aliveBefore : c.world.isAlive e = (c.world.contents e).isSome :=
    (World.contents_isSome _ e).symm
  by_cases taken : e ∈ entities ∧ c.CanSpawn e.id
  · rw [spawned.contents, if_pos taken] at alive
    refine iff_of_false (fun both => ?_) fun both => both.2 taken.1
    exact Bool.noConfusion (both.2.symm.trans alive)
  · rw [spawned.contents, if_neg taken, ← aliveBefore] at alive
    have same : c'.CanSpawn e.id ↔ c.CanSpawn e.id :=
      and_congr_right fun _ => by rw [alive]
    rw [same]
    exact (and_iff_left_of_imp fun canSpawn member =>
      taken ⟨member, canSpawn⟩).symm

/-- Spawns that are received one after the other. -/
theorem Spawned.cons
    {x : Entity} {entities : List Entity} {c'' : Client}
    (first : Spawned registry w [x] c c')
    (later : Spawned registry w entities c' c'') :
    Spawned registry w (x :: entities) c c'' := by
  refine ⟨later.rest, fun e => ?_, fun e => ?_⟩
  · rw [later.contents]
    by_cases inLater : e ∈ entities ∧ c'.CanSpawn e.id
    · rw [if_pos inLater, if_pos ⟨List.mem_cons_of_mem x inLater.1,
        ((first.canSpawn_iff e).mp inLater.2).1⟩]
    · rw [if_neg inLater, first.contents]
      refine if_congr ⟨fun both => ⟨?_, both.2⟩, fun both => ⟨?_, both.2⟩⟩
        rfl rfl
      · exact List.mem_cons.mpr (Or.inl (List.mem_singleton.mp both.1))
      · by_contra other
        rw [List.mem_singleton] at other
        refine inLater ⟨(List.mem_cons.mp both.1).resolve_left other, ?_⟩
        exact (first.canSpawn_iff e).mpr
          ⟨both.2, mt List.mem_singleton.mp other⟩
  · rw [later.replicated, first.replicated, first.canSpawn_iff,
      List.mem_singleton, List.mem_cons]
    tauto

/-- Spawns bring their entities. -/
theorem receiveSpawns_spec
    (consistent : w.store.Consistent registry)
    (rest : c.world.AtRest registry) {entities : List Entity}
    (counted : ∀ e ∈ entities, (w.networkedOf registry e).length < 2 ^ 16)
    (inMemory : ∀ e ∈ entities,
      (Replication.spawnPacket registry w e).data.length < sizeLimit) :
    Spawned registry w entities c (c.receiveAll registry
      (entities.map fun e =>
        (.spawn, (Replication.spawnPacket registry w e).data))) := by
  induction entities generalizing c with
  | nil =>
      refine ⟨rest, fun e => ?_, fun e => ?_⟩
      · exact (if_neg fun both => absurd both.1 List.not_mem_nil).symm
      · exact (or_iff_left fun both => absurd both.1 List.not_mem_nil).symm
  | cons x entities inductionHypothesis =>
      have first := receiveSpawn_spawned consistent rest
        (counted x List.mem_cons_self) (inMemory x List.mem_cons_self)
      rw [List.map_cons, receiveAll_cons]
      exact first.cons (inductionHypothesis first.rest
        (fun e member => counted e (List.mem_cons_of_mem x member))
        fun e member => inMemory e (List.mem_cons_of_mem x member))

/-- Despawns take their entities away. -/
theorem receiveDespawns_spec
    (rest : c.world.AtRest registry) (entities : List Entity) :
    Despawned registry entities c (c.receiveAll registry
      (entities.map fun e => (.despawn, (Replication.despawnPacket e).data))) := by
  induction entities generalizing c with
  | nil =>
      refine ⟨rest, fun e => (if_neg List.not_mem_nil).symm, fun e => ?_⟩
      exact (and_iff_left List.not_mem_nil).symm
  | cons x entities inductionHypothesis =>
      have inMemory : (Replication.despawnPacket x).data.length <
          sizeLimit := by
        have sized : (Replication.despawnPacket x).data.length = 8 := by
          simp only [Replication.despawnPacket, BinaryBuffer.writeU64,
            BinaryBuffer.writeNumber, BinaryBuffer.writeBytes,
            List.nil_append, length_littleEndian]
        rw [sized]
        decide
      obtain ⟨first, firstContents, firstReplicated⟩ :=
        receiveDespawn_spec rest inMemory (despawnPacket_parsed registry x)
      have later := inductionHypothesis first
      rw [List.map_cons, receiveAll_cons]
      refine ⟨later.rest, fun e => (later.contents e).trans ?_,
        fun e => (later.replicated e).trans ?_⟩
      · rw [firstContents, Contents.kill]
        by_cases inLater : e ∈ entities
        · rw [if_pos inLater, if_pos (List.mem_cons_of_mem x inLater)]
        · rw [if_neg inLater]
          refine if_congr ⟨?_, fun member => ?_⟩ rfl rfl
          · rintro rfl
            exact List.mem_cons_self
          · exact (List.mem_cons.mp member).resolve_right inLater
      · rw [firstReplicated, List.mem_cons, not_or, and_assoc]

/-- Receiving what a tick says about dirty components, which is nothing when no
bucket is due. -/
theorem receiveDelta_updated
    (consistent : w.store.Consistent registry) {r : Replication}
    (sets : r.DirtySets)
    (counted : ∀ entity ∈ w.deltaEntities registry r,
      entity.components.length < 2 ^ 8)
    (small : (w.deltaEntities registry r).length < 2 ^ 32)
    (inMemory : (r.buildDelta registry w).2.data.length < sizeLimit)
    (rest : c.world.AtRest registry) :
    Updated registry w r c (c.receiveAll registry
      (Replication.sendNonempty .delta (r.buildDelta registry w).2)) := by
  by_cases none : w.deltaEntities registry r = []
  · have written :=
      (Replication.buildDelta_spec consistent sets counted small).1
    rw [if_pos none] at written
    have unsent : Replication.sendNonempty .delta
        (r.buildDelta registry w).2 = [] := by
      unfold Replication.sendNonempty BinaryBuffer.size
      rw [written]
      rfl
    have silent : ∀ e, w.saidAbout registry r e = [] := by
      intro e
      rw [← saidOf_deltaEntities, none]
      rfl
    rw [unsent]
    refine ⟨rest, fun e => ?_, fun e => (or_iff_left ?_).symm⟩
    · rw [silent]
      exact Option.map_id'.symm
    · exact fun both => both.1 (silent e)
  · have parsed := Replication.buildDelta_parsed consistent sets counted small
      none
    have sent := Replication.sendNonempty_delta consistent sets counted small
      none
    obtain ⟨last, contentsEq, replicatedIff⟩ :=
      receiveDelta_spec rest inMemory parsed
    rw [sent]
    refine ⟨last, fun e => ?_, fun e => (replicatedIff e).trans ?_⟩
    · rw [← saidOf_deltaEntities]
      exact contentsEq e
    · refine or_congr_right (and_congr_left fun _ => ?_)
      rw [← saidOf_deltaEntities, saidOf]
      constructor
      · intro named nothing
        obtain ⟨entity, member, sameId⟩ := List.mem_map.mp named
        obtain ⟨entry, _, said⟩ := List.mem_filterMap.mp member
        obtain ⟨_, some, same⟩ := World.deltaEntity_eq_some.mp said
        have empty := List.flatMap_eq_nil_iff.mp nothing entity
          (List.mem_filter.mpr ⟨member, decide_eq_true sameId⟩)
        rw [same] at empty
        exact some empty
      · intro some
        obtain ⟨component, member⟩ := List.exists_mem_of_ne_nil _ some
        obtain ⟨entity, inEntities, _⟩ := List.mem_flatMap.mp member
        obtain ⟨member, sameId⟩ := List.mem_filter.mp inEntities
        rw [← of_decide_eq_true sameId]
        exact List.mem_map_of_mem member

/-- A full state that is sent is received, if it is not empty. -/
theorem receiveFullState_eq (order : List Ptr) :
    c.receiveAll registry (Replication.sendNonempty .fullState
      (w.serializeFullState registry order)) =
      (c.sendFullState registry w order).state := by
  unfold Replication.sendNonempty sendFullState
  dsimp only
  split <;> rfl

/-- Receiving a full state that arrives. -/
theorem receiveFullState_reconciled
    (consistent : w.store.Consistent registry) {order : List Ptr}
    (fits : w.FullStateFits registry order)
    (rest : c.world.AtRest registry)
    (arrives : w.FullStateArrives registry order) :
    Reconciled registry w c (c.receiveAll registry
      (Replication.sendNonempty .fullState
        (w.serializeFullState registry order))) := by
  have perm := fits.sorted.perm
  obtain ⟨_, parsed, admissible, sent⟩ | ⟨stays, _⟩ :=
    sendFullState_cases consistent perm fits.counted fits.small fits.inMemory
      rest
  · obtain ⟨last, contentsEq, replicatedIff⟩ :=
      applyFullState_installs rest fits.inMemory parsed admissible
    have listed : ∀ e : Entity, e.id ∈ (w.fullStateRecords registry order).map
        EntityRecord.id ↔ w.Replicates registry e := fun e =>
      World.mem_fullStateRecords_iff consistent perm
    rw [receiveFullState_eq, sent]
    refine ⟨last, fun e => (contentsEq e).trans ?_, fun e =>
      (replicatedIff e).trans (listed e)⟩
    by_cases replicates : w.Replicates registry e
    · have member : w.spawnRecord registry e ∈
          w.fullStateRecords registry order := by
        obtain ⟨record, member, sameId⟩ := List.mem_map.mp
          ((listed e).mpr replicates)
        obtain ⟨x, _, rfl⟩ := List.mem_map.mp member
        rw [show e = x from congrArg Entity.mk sameId.symm]
        exact member
      have found : (w.fullStateRecords registry order).find?
          (fun record => record.id = e.id) = some (w.spawnRecord registry e) :=
        find?_record_of_mem admissible.2 member
      rw [if_pos replicates, found]
    · rw [if_neg replicates,
        find?_record_eq_none (mt (listed e).mp replicates)]
  · exact absurd ((World.fullStateArrives_iff consistent perm).mp arrives) stays

/-- Receiving a full state that does not arrive. -/
theorem receiveFullState_unchanged
    (consistent : w.store.Consistent registry) {order : List Ptr}
    (fits : w.FullStateFits registry order)
    (rest : c.world.AtRest registry)
    (lost : ¬w.FullStateArrives registry order) :
    c.receiveAll registry (Replication.sendNonempty .fullState
      (w.serializeFullState registry order)) = c := by
  have perm := fits.sorted.perm
  obtain ⟨sends, _⟩ | ⟨_, unchanged⟩ :=
    sendFullState_cases consistent perm fits.counted fits.small fits.inMemory
      rest
  · exact absurd ((World.fullStateArrives_iff consistent perm).mpr sends) lost
  · rw [receiveFullState_eq, unchanged]
    rfl

end Client

/-! ## Ticks -/

namespace Replication

variable {registry : ComponentRegistry} {w : World} {r : Replication}
variable {order : List Ptr} {delta : ℚ}

/-- The sending side when a tick comes to its delta. -/
def beforeDelta (delta : ℚ) (r : Replication) : Replication :=
  { r with elapsedTime := r.elapsedTime + delta, pendingSpawn := [] }

/-- The tick sends a full state. -/
def Reconciles (delta : ℚ) (r : Replication) : Prop :=
  r.reconcileAccum + delta ≥ r.reconciliationInterval

instance (delta : ℚ) : Decidable (r.Reconciles delta) :=
  inferInstanceAs (Decidable (_ ≥ _))

/-- Everything a tick sends can be counted and fits into memory. -/
structure TickFits (registry : ComponentRegistry) (w : World) (order : List Ptr)
    (delta : ℚ) (r : Replication) : Prop where
  fullState : w.FullStateFits registry order
  spawns : ∀ e ∈ r.pendingSpawn,
    (spawnPacket registry w e).data.length < sizeLimit
  components : ∀ entity ∈ w.deltaEntities registry (r.beforeDelta delta),
    entity.components.length < 2 ^ 8
  entities : (w.deltaEntities registry (r.beforeDelta delta)).length < 2 ^ 32
  inMemory : ((r.beforeDelta delta).buildDelta registry w).2.data.length <
    sizeLimit

theorem sendDelta_eq (r : Replication) :
    r.sendDelta registry w = ((r.buildDelta registry w).1,
      sendNonempty .delta (r.buildDelta registry w).2) := by
  unfold sendDelta
  by_cases none : r.dirty.keys.isEmpty = true
  · have noEntries : r.dirty.entries = [] := by
      have noKeys := List.isEmpty_iff.mp none
      unfold AList.keys List.keys at noKeys
      exact List.map_eq_nil_iff.mp noKeys
    rw [if_pos none]
    unfold buildDelta
    rw [noEntries]
    rfl
  · rw [if_neg none]

/-- Reconciliation sends a full state when its time has come. -/
theorem reconcile_eq (r : Replication) :
    r.reconcile registry w order delta =
      if r.Reconciles delta then
        ({ r with reconcileAccum := 0 },
          sendNonempty .fullState (w.serializeFullState registry order))
      else ({ r with reconcileAccum := r.reconcileAccum + delta }, []) := rfl

/-- The packets of a tick. -/
theorem tick_packets (r : Replication) :
    (r.tick registry w order delta).2 =
      (r.pendingSpawn.filter (w.isAlive ·)).map
        (fun e => (.spawn, (spawnPacket registry w e).data)) ++
      (sendNonempty .delta ((r.beforeDelta delta).buildDelta registry w).2 ++
        ((r.pendingDespawn.map fun e => (.despawn, (despawnPacket e).data)) ++
          if r.Reconciles delta then
            sendNonempty .fullState (w.serializeFullState registry order)
          else [])) := by
  unfold tick
  dsimp only
  rw [sendDelta_eq, reconcile_eq]
  by_cases due : r.Reconciles delta
  · rw [if_pos due]
    exact congrArg _ (congrArg _ (congrArg _ (congrArg Prod.snd (if_pos due))))
  · rw [if_neg due]
    exact congrArg _ (congrArg _ (congrArg _ (congrArg Prod.snd (if_neg due))))

/-- What is dirty after a tick. -/
theorem tick_dirtyOf
    (consistent : w.store.Consistent registry) (sets : r.DirtySets)
    (counted : ∀ entity ∈ w.deltaEntities registry (r.beforeDelta delta),
      entity.components.length < 2 ^ 8)
    (small : (w.deltaEntities registry (r.beforeDelta delta)).length < 2 ^ 32)
    (e : Entity) :
    (r.tick registry w order delta).1.dirtyOf e = if w.isAlive e then
      (r.dirtyOf e).filter fun t => w.staysDirty registry
        (r.elapsedTime + delta) e (r.ticksOf e t) t
      else [] := by
  have setsBefore : (r.beforeDelta delta).DirtySets := sets
  obtain ⟨_, _, dirty⟩ := buildDelta_spec consistent setsBefore counted small
  unfold tick
  dsimp only
  rw [sendDelta_eq]
  unfold reconcile
  dsimp only
  split <;> exact dirty e

/-- The sending side after a tick. -/
theorem tick_spec
    (consistent : w.store.Consistent registry) (sets : r.DirtySets)
    (fits : r.TickFits registry w order delta) :
    let r' := (r.tick registry w order delta).1
    r'.tracked = r.tracked ∧ r'.pendingSpawn = [] ∧ r'.pendingDespawn = [] ∧
    ∀ e, r'.dirtyOf e = if w.isAlive e then
      (r.dirtyOf e).filter fun t => w.staysDirty registry
        (r.elapsedTime + delta) e (r.ticksOf e t) t
      else [] := by
  have others : (r.tick registry w order delta).1.tracked = r.tracked ∧
      (r.tick registry w order delta).1.pendingSpawn = [] ∧
      (r.tick registry w order delta).1.pendingDespawn = [] := by
    unfold tick
    dsimp only
    rw [sendDelta_eq]
    unfold reconcile
    dsimp only
    split <;> exact ⟨rfl, rfl, rfl⟩
  exact ⟨others.1, others.2.1, others.2.2, fun e =>
    tick_dirtyOf consistent sets fits.components fits.entities e⟩

end Replication

namespace Client

variable {registry : ComponentRegistry} {w : World} {r : Replication}
variable {order : List Ptr} {delta : ℚ} {c : Client}

/-- What the client goes through during a tick. -/
theorem receiveTick_spec
    (consistent : w.store.Consistent registry) (sets : r.DirtySets)
    (fits : r.TickFits registry w order delta)
    (rest : c.world.AtRest registry) :
    let c' := c.receiveAll registry (r.tick registry w order delta).2
    ∃ spawned updated despawned,
      Spawned registry w (r.pendingSpawn.filter (w.isAlive ·)) c spawned ∧
      Updated registry w (r.beforeDelta delta) spawned updated ∧
      Despawned registry r.pendingDespawn updated despawned ∧
      (r.Reconciles delta ∧ w.FullStateArrives registry order →
        Reconciled registry w despawned c') ∧
      (¬(r.Reconciles delta ∧ w.FullStateArrives registry order) →
        c' = despawned) := by
  have setsBefore : (r.beforeDelta delta).DirtySets := sets
  have spawnsFit : ∀ e ∈ r.pendingSpawn.filter (w.isAlive ·),
      (Replication.spawnPacket registry w e).data.length < sizeLimit :=
    fun e member => fits.spawns e (List.mem_of_mem_filter member)
  have spawned := receiveSpawns_spec consistent rest
    (fun e _ => fits.fullState.counted e) spawnsFit
  have updated := receiveDelta_updated consistent setsBefore fits.components
    fits.entities fits.inMemory spawned.rest
  have despawned := receiveDespawns_spec updated.rest r.pendingDespawn
  refine ⟨_, _, _, spawned, updated, despawned, ?_, ?_⟩
  · rintro ⟨reconciles, arrives⟩
    rw [Replication.tick_packets, receiveAll_append, receiveAll_append,
      receiveAll_append, if_pos reconciles]
    exact receiveFullState_reconciled consistent fits.fullState despawned.rest
      arrives
  · intro lost
    rw [Replication.tick_packets, receiveAll_append, receiveAll_append,
      receiveAll_append]
    by_cases reconciles : r.Reconciles delta
    · rw [if_pos reconciles]
      exact receiveFullState_unchanged consistent fits.fullState despawned.rest
        fun arrives => lost ⟨reconciles, arrives⟩
    · rw [if_neg reconciles]
      rfl

end Client
end VortarisECS
