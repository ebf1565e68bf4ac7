import VortarisECS.Network.Server
import VortarisECS.Network.TickTransfer

/-!
# What the server sends is understood

A step of the server has messages for its peers: spawns, what the dirty
components have to say, despawns and full states.  The packets it sends are read
back as these messages exactly if their counts fit into their bytes.
-/

namespace VortarisECS

variable {registry : ComponentRegistry}

/-! ## What the grammar can count -/

/-- A number that was parsed fits its width. -/
theorem Parser.number_lt
    {width value : Nat} {input rest : List UInt8}
    (parsed : Parser.number width input = some (value, rest)) :
    value < 256 ^ width := by
  obtain ⟨fits, rfl, _⟩ := Parser.number_eq_some.mp parsed
  have bounded := ofLittleEndian_lt (input.take width)
  rwa [List.length_take, Nat.min_eq_left fits] at bounded

/-- The components of a record that was parsed can be counted. -/
theorem recordParser_counted
    {format : PayloadFormat} {input rest : List UInt8} {record : EntityRecord}
    (parsed : recordParser registry format input = some (record, rest)) :
    record.blocks.length < 2 ^ 16 := by
  obtain ⟨id, between, _, parsedContent⟩ := Parser.andThen_eq_some.mp parsed
  obtain ⟨blocks, parsedBlocks, rfl⟩ := Parser.map_eq_some.mp parsedContent
  obtain ⟨count, later, parsedCount, parsedMany⟩ :=
    Parser.andThen_eq_some.mp parsedBlocks
  exact lt_of_eq_of_lt (Parser.many_length parsedMany)
    (Parser.number_lt parsedCount)

/-- So can those of an entity of a delta. -/
theorem deltaEntityParser_counted
    {version : Nat} {input rest : List UInt8} {entity : DeltaEntity}
    (parsed : deltaEntityParser registry version input = some (entity, rest)) :
    entity.components.length < 2 ^ 8 := by
  obtain ⟨id, between, _, parsedContent⟩ := Parser.andThen_eq_some.mp parsed
  obtain ⟨count, later, parsedCount, parsedComponents⟩ :=
    Parser.andThen_eq_some.mp parsedContent
  obtain ⟨components, parsedMany, rfl⟩ :=
    Parser.map_eq_some.mp parsedComponents
  exact lt_of_eq_of_lt (Parser.many_length parsedMany)
    (Parser.number_lt parsedCount)

/-- What holds of every item that is parsed holds of all items of a list. -/
theorem Parser.many_all
    {item : Parser α} {holds : α → Prop}
    (each : ∀ input value rest, item input = some (value, rest) → holds value)
    {count : Nat} {input rest : List UInt8} {values : List α}
    (parsed : Parser.many count item input = some (values, rest)) :
    ∀ value ∈ values, holds value := by
  induction count generalizing input values with
  | zero =>
      rw [Parser.many, Parser.pure, Option.some.injEq, Prod.mk.injEq] at parsed
      rw [← parsed.1]
      exact fun _ member => absurd member List.not_mem_nil
  | succ count inductionHypothesis =>
      obtain ⟨first, between, later, parsedFirst, parsedLater, rfl⟩ :=
        Parser.many_succ_eq_some.mp parsed
      intro value member
      obtain rfl | inLater := List.mem_cons.mp member
      · exact each _ _ _ parsedFirst
      · exact inductionHypothesis parsedLater value inLater

namespace SyncPacket

/-- The kind a packet is sent as. -/
def kind : SyncPacket → SyncPacketKind
  | spawn _ => .spawn
  | delta _ => .delta
  | fullState _ => .fullState
  | despawn _ => .despawn

/-- The counts of a packet fit into their bytes: components of a spawn and of an
entity of a full state into two, of an entity of a delta into one, and entities
into four. -/
def Counted : SyncPacket → Prop
  | spawn record => record.blocks.length < 2 ^ 16
  | delta entities => entities.length < 2 ^ 32 ∧
      ∀ entity ∈ entities, entity.components.length < 2 ^ 8
  | fullState records => records.length < 2 ^ 32 ∧
      ∀ record ∈ records, record.blocks.length < 2 ^ 16
  | despawn _ => True

instance : (packet : SyncPacket) → Decidable packet.Counted
  | spawn _ => inferInstanceAs (Decidable (_ < _))
  | delta _ => inferInstanceAs (Decidable (_ ∧ _))
  | fullState _ => inferInstanceAs (Decidable (_ ∧ _))
  | despawn _ => inferInstanceAs (Decidable True)

end SyncPacket

/-- What is read has counts that fit. -/
theorem counted_of_parsed
    {kind : SyncPacketKind} {data : List UInt8} {packet : SyncPacket}
    (parsed : parsePacket registry kind data = some packet) :
    packet.Counted := by
  cases kind with
  | despawn =>
      obtain ⟨id, _, rfl⟩ :=
        Parser.map_eq_some.mp (Parser.complete_eq_some.mp parsed)
      trivial
  | spawn =>
      obtain ⟨_, _, record, _, parsedRecord, rfl⟩ :=
        parsePacket_spawn_eq_some.mp parsed
      exact recordParser_counted parsedRecord
  | fullState =>
      obtain ⟨_, _, count, _, records, _, parsedCount, parsedRecords, rfl⟩ :=
        parsePacket_fullState_eq_some.mp parsed
      exact ⟨lt_of_eq_of_lt (Parser.many_length parsedRecords)
          (Parser.number_lt parsedCount),
        Parser.many_all (fun _ _ _ => recordParser_counted) parsedRecords⟩
  | delta =>
      obtain ⟨_, _, count, _, entities, _, parsedCount, parsedEntities, rfl⟩ :=
        parsePacket_delta_eq_some.mp parsed
      exact ⟨lt_of_eq_of_lt (Parser.many_length parsedEntities)
          (Parser.number_lt parsedCount),
        Parser.many_all (fun _ _ _ => deltaEntityParser_counted)
          parsedEntities⟩

/-! ## Messages -/

/-- A packet on its way as a peer reads it. -/
def readSent (registry : ComponentRegistry)
    (packet : Replication.SentPacket) : SyncPacketKind × Option SyncPacket :=
  (packet.1, parsePacket registry packet.1 packet.2)

/-- A message as it has to be read. -/
def SyncPacket.asRead (message : SyncPacket) :
    SyncPacketKind × Option SyncPacket :=
  (message.kind, some message)

namespace World

/-- What there is to say about dirty components. -/
def deltaMessages (registry : ComponentRegistry) (w : World)
    (r : Replication) : List SyncPacket :=
  if w.deltaEntities registry r = [] then []
  else [.delta (w.deltaEntities registry r)]

/-- What there is to say about all entities. -/
def fullStateMessages (registry : ComponentRegistry) (w : World)
    (order : List Ptr) : List SyncPacket :=
  if w.fullStateRecords registry order = [] then []
  else [.fullState (w.fullStateRecords registry order)]

variable {w : World} {r : Replication} {order : List Ptr}

/-- The delta that is sent is read back. -/
theorem readSent_delta
    (consistent : w.store.Consistent registry) (sets : r.DirtySets)
    (counted : ∀ message ∈ w.deltaMessages registry r, message.Counted) :
    (Replication.sendNonempty .delta (r.buildDelta registry w).2).map
        (readSent registry) =
      (w.deltaMessages registry r).map SyncPacket.asRead := by
  unfold deltaMessages at counted ⊢
  by_cases none : w.deltaEntities registry r = []
  · have written := (Replication.buildDelta_written registry w sets).1
    have unsaid : w.writtenEntities registry r = [] := by
      refine List.filterMap_eq_nil_iff.mpr fun entry member => ?_
      unfold writtenEntity
      rw [List.filterMap_eq_nil_iff.mp none entry member]
      rfl
    rw [unsaid] at written
    unfold Replication.sendNonempty BinaryBuffer.size
    rw [written, if_pos none]
    rfl
  · rw [if_neg none] at counted ⊢
    obtain ⟨small, few⟩ := counted _ (List.mem_singleton_self _)
    rw [Replication.sendNonempty_delta consistent sets few small none,
      List.map_singleton, readSent,
      Replication.buildDelta_parsed consistent sets few small none]
    rfl

/-- A full state with records is sent. -/
theorem readSent_fullState
    (consistent : w.store.Consistent registry)
    (perm : order.Perm w.store.archetypeList)
    (counted : ∀ message ∈ w.fullStateMessages registry order,
      message.Counted) :
    (Replication.sendNonempty .fullState
        (w.serializeFullState registry order)).map (readSent registry) =
      (w.fullStateMessages registry order).map SyncPacket.asRead := by
  have counts : ∀ record ∈ w.fullStateRecords registry order,
      (w.fullStateRecords registry order).length < 2 ^ 32 ∧
        record.blocks.length < 2 ^ 16 := by
    intro record member
    unfold fullStateMessages at counted
    rw [if_neg (List.ne_nil_of_mem member)] at counted
    obtain ⟨small, each⟩ := counted _ (List.mem_singleton_self _)
    exact ⟨small, each record member⟩
  have few : ∀ e, (w.networkedOf registry e).length < 2 ^ 16 := by
    intro e
    by_cases replicates : w.Replicates registry e
    · obtain ⟨record, member, sameId⟩ := List.mem_map.mp
        ((mem_fullStateRecords_iff consistent perm).mpr replicates)
      obtain ⟨x, _, rfl⟩ := List.mem_map.mp member
      have blockCount : (w.spawnRecord registry x).blocks.length =
          (w.networkedOf registry x).length := List.length_map _
      rw [show e = x from congrArg Entity.mk sameId.symm, ← blockCount]
      exact (counts _ member).2
    · rw [Replicates, not_not] at replicates
      rw [replicates]
      exact Nat.two_pow_pos 16
  have small : (w.fullStateRecords registry order).length < 2 ^ 32 := by
    cases records : w.fullStateRecords registry order with
    | nil => exact Nat.two_pow_pos 32
    | cons record later =>
        rw [← records]
        exact (counts record (records ▸ List.mem_cons_self)).1
  have written := serializeFullState_data consistent perm few small
  unfold fullStateMessages Replication.sendNonempty BinaryBuffer.size
  by_cases none : w.fullStateRecords registry order = []
  · rw [written, if_pos none, if_pos none]
    rfl
  · have nonempty : 0 < (w.serializeFullState registry order).data.length := by
      rw [written, if_neg none, List.length_append, length_littleEndian]
      exact Nat.lt_add_right _ (by decide)
    rw [if_pos nonempty, if_neg none, List.map_singleton, readSent,
      serializeFullState_parsed consistent perm few small none]
    rfl

/-- Nothing of the component goes out in a delta: the entity is dead, or the
component is not networked, not there, or has no fields for deltas. -/
def Silent (registry : ComponentRegistry) (w : World) (e : Entity)
    (t : ComponentTypeId) : Prop :=
  w.isAlive e = false ∨ isNetworked registry t = false ∨ w.has e t = false ∨
    (syncPlanFor registry t).anyDelta = false

/-- The delta carries every bucket of the component, with the bytes the
component has. -/
def InDelta (registry : ComponentRegistry) (w : World) (e : Entity)
    (t : ComponentTypeId) (entities : List DeltaEntity) : Prop :=
  ∃ entity ∈ entities, entity.id = e.id ∧
    ∃ schema data, registry.schemaOf t = some schema ∧
      w.getRaw e t = some data ∧
      .buckets t ((syncPlanFor registry t).buckets.map
        (bucketRecordOf schema data)) ∈ entity.components

/-- A live entity whose dirty components have something to say is in the
delta. -/
theorem mem_deltaEntities
    {e : Entity} (alive : w.isAlive e = true)
    (speaks : w.deltaComponents registry r e (r.dirtyOf e) ≠ []) :
    ⟨e.id, w.deltaComponents registry r e (r.dirtyOf e)⟩ ∈
      w.deltaEntities registry r := by
  refine List.mem_filterMap.mpr ⟨⟨e, r.dirtyOf e⟩, ?_,
    deltaEntity_eq_some.mpr ⟨alive, speaks, rfl⟩⟩
  unfold Replication.dirtyOf at speaks ⊢
  cases listed : r.dirty.lookup e with
  | none =>
      rw [listed] at speaks
      exact absurd rfl speaks
  | some types => exact AList.mem_lookup_iff.mp listed

/-- A dirty component that does not stay dirty is in the delta with all its
buckets. -/
theorem inDelta_of_not_staysDirty
    (consistent : w.store.Consistent registry) {e : Entity}
    {t : ComponentTypeId} (dirty : t ∈ r.dirtyOf e)
    (loud : ¬w.Silent registry e t)
    (done : w.staysDirty registry r.elapsedTime e (r.ticksOf e t) t = false) :
    w.InDelta registry e t (w.deltaEntities registry r) := by
  unfold Silent at loud
  simp only [not_or, Bool.not_eq_false] at loud
  obtain ⟨alive, networked, present, any⟩ := loud
  unfold staysDirty at done
  rw [networked, present, Bool.and_true, Bool.true_and,
    Bool.not_eq_false'] at done
  have allDue : (syncPlanFor registry t).due (r.ticksOf e t) r.elapsedTime =
      (syncPlanFor registry t).buckets :=
    List.filter_eq_self.mpr (List.all_eq_true.mp done)
  rw [FieldSyncPlan.anyDelta_eq, Bool.not_eq_true',
    List.isEmpty_eq_false_iff] at any
  obtain ⟨schema, data, registered, found⟩ := getRaw_of_mem_types consistent
    ((has_iff_mem_types consistent).mp present)
  have said : w.deltaComponent registry r.elapsedTime e (r.ticksOf e t) t =
      some (.buckets t ((syncPlanFor registry t).buckets.map
        (bucketRecordOf schema data))) :=
    deltaComponent_eq_some.mpr ⟨networked, present, schema, data, registered,
      found, by rw [allDue]; exact any, by rw [allDue]⟩
  have inComponents : _ ∈ w.deltaComponents registry r e (r.dirtyOf e) :=
    List.mem_filterMap.mpr ⟨t, dirty, said⟩
  exact ⟨_, mem_deltaEntities alive (List.ne_nil_of_mem inComponents), rfl,
    schema, data, registered, found, inComponents⟩

end World

/-! ## Steps of the server -/

namespace ServerOp

/-- What a step has to tell the peers. -/
def messages (registry : ComponentRegistry) (s : Server) :
    ServerOp → List SyncPacket
  | tick order delta =>
      (s.replication.pendingSpawn.filter (s.world.isAlive ·)).map
        (fun e => .spawn (s.world.spawnRecord registry e)) ++
      (s.world.deltaMessages registry (s.replication.beforeDelta delta) ++
        (s.replication.pendingDespawn.map (fun e => .despawn e.id) ++
          if s.replication.Reconciles delta then
            s.world.fullStateMessages registry order
          else []))
  | requestFullState order => s.world.fullStateMessages registry order
  | _ => []

/-- The archetypes of a full state are sorted. -/
def Sorts (s : Server) : ServerOp → Prop
  | tick order _ => SortedBySignature s.world.store order
  | requestFullState order => SortedBySignature s.world.store order
  | _ => True

end ServerOp

namespace Server

variable {s : Server} {op : ServerOp}

/-- The peers understand a step: every packet is accepted and read back as the
message it was made from, and a component that is dirty no more has nothing to
say or is in the delta that was sent. -/
structure Understood (registry : ComponentRegistry) (s : Server)
    (op : ServerOp) : Prop where
  readBack : (op.apply registry s).2.map (readSent registry) =
    (op.messages registry s).map SyncPacket.asRead
  accepted : ∀ packet ∈ (op.apply registry s).2,
    validatePacket registry packet.1 packet.2 = true
  nothingLost : ∀ order delta, op = .tick order delta → ∀ e t,
    t ∈ s.replication.dirtyOf e →
    t ∉ (op.apply registry s).1.replication.dirtyOf e →
    s.world.Silent registry e t ∨
      ∃ packet ∈ (op.apply registry s).2, ∃ entities,
        readSent registry packet = (.delta, some (.delta entities)) ∧
        s.world.InDelta registry e t entities

/-- The counts of everything the step has to tell fit into their bytes. -/
def CountsFit (registry : ComponentRegistry) (s : Server) (op : ServerOp) :
    Prop :=
  ∀ message ∈ op.messages registry s, message.Counted

instance (s : Server) (op : ServerOp) : Decidable (s.CountsFit registry op) :=
  inferInstanceAs (Decidable (∀ message ∈ _, SyncPacket.Counted message))

/-- What is read back has counts that fit. -/
theorem countsFit_of_readBack
    (readBack : (op.apply registry s).2.map (readSent registry) =
      (op.messages registry s).map SyncPacket.asRead) :
    s.CountsFit registry op := by
  intro message member
  have read := List.mem_map_of_mem (f := SyncPacket.asRead) member
  rw [← readBack] at read
  obtain ⟨packet, _, same⟩ := List.mem_map.mp read
  exact counted_of_parsed (Prod.mk.inj same).2

/-- The spawns that are sent are read back. -/
theorem readSent_spawns
    (kept : s.Kept registry) {entities : List Entity}
    (counted : ∀ e ∈ entities,
      (SyncPacket.spawn (s.world.spawnRecord registry e)).Counted) :
    (entities.map fun e => (SyncPacketKind.spawn,
        (Replication.spawnPacket registry s.world e).data)).map
        (readSent registry) =
      (entities.map fun e => SyncPacket.spawn
        (s.world.spawnRecord registry e)).map SyncPacket.asRead := by
  rw [List.map_map, List.map_map]
  refine List.map_congr_left fun e member => ?_
  have few : (s.world.networkedOf registry e).length < 2 ^ 16 :=
    lt_of_eq_of_lt (List.length_map _).symm (counted e member)
  exact congrArg (Prod.mk SyncPacketKind.spawn)
    (spawnPacket_parsed kept.stable.consistent few)

/-- So are the despawns. -/
theorem readSent_despawns (entities : List Entity) :
    (entities.map fun e => (SyncPacketKind.despawn,
        (Replication.despawnPacket e).data)).map (readSent registry) =
      (entities.map fun e => SyncPacket.despawn e.id).map
        SyncPacket.asRead := by
  rw [List.map_map, List.map_map]
  exact List.map_congr_left fun e _ =>
    congrArg (Prod.mk SyncPacketKind.despawn) (despawnPacket_parsed registry e)

/-- A step whose counts fit is read back. -/
theorem readBack_of_countsFit
    (kept : s.Kept registry) (sorts : op.Sorts s)
    (counts : s.CountsFit registry op) :
    (op.apply registry s).2.map (readSent registry) =
      (op.messages registry s).map SyncPacket.asRead := by
  have consistent := kept.stable.consistent
  cases op with
  | tick order delta =>
      unfold CountsFit ServerOp.messages at counts
      simp only [List.forall_mem_append] at counts
      obtain ⟨spawnsFit, deltaFits, _, fullStateFits⟩ := counts
      have spawns := readSent_spawns kept fun e member =>
        spawnsFit _ (List.mem_map_of_mem member)
      have deltas := World.readSent_delta
        (r := s.replication.beforeDelta delta) consistent kept.tracks.sets
        deltaFits
      have despawns := @readSent_despawns registry
        s.replication.pendingDespawn
      have fullStates : List.map (readSent registry)
          (if s.replication.Reconciles delta then
            Replication.sendNonempty .fullState
              (s.world.serializeFullState registry order)
          else []) =
          List.map SyncPacket.asRead
            (if s.replication.Reconciles delta then
              s.world.fullStateMessages registry order else []) := by
        by_cases due : s.replication.Reconciles delta
        · rw [if_pos due] at fullStateFits ⊢
          rw [if_pos due]
          exact World.readSent_fullState consistent sorts.perm fullStateFits
        · rw [if_neg due, if_neg due]
          rfl
      rw [apply_tick, Replication.tick_packets]
      unfold ServerOp.messages
      simp only [List.map_append]
      rw [spawns, deltas, despawns, fullStates]
  | requestFullState order =>
      exact World.readSent_fullState consistent sorts.perm counts
  | _ => rfl

/-- A delta whose messages can be counted can be counted. -/
theorem delta_counted
    {r : Replication} {w : World}
    (counted : ∀ message ∈ w.deltaMessages registry r, message.Counted) :
    (SyncPacket.delta (w.deltaEntities registry r)).Counted := by
  unfold World.deltaMessages at counted
  by_cases none : w.deltaEntities registry r = []
  · rw [none]
    exact ⟨Nat.two_pow_pos 32, fun _ member => absurd member List.not_mem_nil⟩
  · rw [if_neg none] at counted
    exact counted _ (List.mem_singleton_self _)

/-- A component that a tick takes out of the dirty ones has nothing to say, or
it is in the delta with all its buckets. -/
theorem tick_inDelta
    (kept : s.Kept registry) {order : List Ptr} {delta : ℚ}
    (counts : s.CountsFit registry (.tick order delta)) {e : Entity}
    {t : ComponentTypeId} (dirty : t ∈ s.replication.dirtyOf e)
    (clean : t ∉ ((ServerOp.tick order delta).apply registry
      s).1.replication.dirtyOf e)
    (loud : ¬s.world.Silent registry e t) :
    s.world.InDelta registry e t (s.world.deltaEntities registry
      (s.replication.beforeDelta delta)) := by
  have consistent := kept.stable.consistent
  have alive : s.world.isAlive e = true := by
    by_contra dead
    exact loud (Or.inl (Bool.eq_false_iff.mpr dead))
  obtain ⟨small, few⟩ := delta_counted (w := s.world)
    (r := s.replication.beforeDelta delta) fun message member =>
      counts message (List.mem_append_right _ (List.mem_append_left _ member))
  rw [apply_tick, Replication.tick_dirtyOf consistent kept.tracks.sets few
    small e, if_pos alive, List.mem_filter, not_and] at clean
  exact World.inDelta_of_not_staysDirty consistent
    (r := s.replication.beforeDelta delta) dirty loud
    (Bool.eq_false_iff.mpr (clean dirty))

/-- The peers understand a step exactly if its counts fit. -/
theorem understood_iff
    (kept : s.Kept registry) (sorts : op.Sorts s)
    (inMemory : ∀ packet ∈ (op.apply registry s).2,
      packet.2.length < sizeLimit) :
    s.Understood registry op ↔ s.CountsFit registry op := by
  refine ⟨fun understood => countsFit_of_readBack understood.readBack,
    fun counts => ?_⟩
  have readBack := readBack_of_countsFit kept sorts counts
  refine ⟨readBack, fun packet sent => ?_, ?_⟩
  · have read := List.mem_map_of_mem (f := readSent registry) sent
    rw [readBack] at read
    obtain ⟨message, _, same⟩ := List.mem_map.mp read
    exact validatePacket_of_parsed (inMemory packet sent)
      (Prod.mk.inj same).2.symm
  · rintro order delta rfl e t dirty clean
    by_cases silent : s.world.Silent registry e t
    · exact Or.inl silent
    · have inDelta := tick_inDelta kept counts dirty clean silent
      obtain ⟨entity, member, _⟩ := id inDelta
      have said : SyncPacket.delta (s.world.deltaEntities registry
          (s.replication.beforeDelta delta)) ∈
          (ServerOp.tick order delta).messages registry s := by
        refine List.mem_append_right _ (List.mem_append_left _ ?_)
        unfold World.deltaMessages
        rw [if_neg (List.ne_nil_of_mem member)]
        exact List.mem_singleton_self _
      have read := List.mem_map_of_mem (f := SyncPacket.asRead) said
      rw [← readBack] at read
      obtain ⟨packet, sent, same⟩ := List.mem_map.mp read
      exact Or.inr ⟨packet, sent, _, same, inDelta⟩

/-- **Every packet of a run is understood** exactly if its counts fit, in every
run in which no creation hands out a live id. -/
theorem run_understood_iff
    (prelude : List SessionOp) (earlier : List ServerOp)
    (preludeDead : Traced.Accepted Effect.IssuesDead
      (SessionOp.run registry prelude))
    (issuesDead :
      (bindWorld registry (SessionOp.run registry prelude).state).Allows
        registry (IssuesDead registry) earlier)
    (op : ServerOp) :
    let s := ((bindWorld registry (SessionOp.run registry prelude).state).run
      registry earlier).1
    op.Sorts s →
    (∀ packet ∈ (op.apply registry s).2, packet.2.length < sizeLimit) →
    (s.Understood registry op ↔ s.CountsFit registry op) := by
  intro s sorts inMemory
  have kept : s.Kept registry := run_keeps (Kept registry) apply_kept
    (bindWorld_kept (SessionOp.run_stable preludeDead)
      (SessionOp.run_idle registry prelude)) issuesDead
  exact understood_iff kept sorts inMemory

/-- An entity that was spawned and is marked dirty. -/
theorem run_understood_iff_health :
    let registry := ComponentRegistry.healthRegistry
    let s := ((bindWorld registry (SessionOp.run registry
      [.world .createEntity, .world (.addRaw ⟨1⟩ 1 (some [7]))]).state).run
        registry [.tick [1, 0] 1, .world (.markChanged ⟨1⟩ 1 "hp")]).1
    s.Understood registry (.tick [1, 0] 1) := by
  intro registry s
  have sorted : SortedBySignature s.world.store [1, 0] :=
    ⟨by decide +kernel, by decide +kernel⟩
  exact (run_understood_iff _ _ (by decide +kernel) (by decide +kernel)
    (.tick [1, 0] 1) sorted (by decide +kernel)).mpr (by decide +kernel)

end Server

/-! ## More dirty components than a byte counts -/

/-- Nothing has been sent yet. -/
structure Replication.Unsent (r : Replication) : Prop where
  nextSendTick : r.nextSendTick = ∅
  elapsedTime : r.elapsedTime = 0

/-- What happens in the world is not sent. -/
theorem Replication.Unsent.onWorldEvents
    {r : Replication} (unsent : r.Unsent) (effects : List Effect) :
    (r.onWorldEvents registry effects).Unsent := by
  have clears : ∀ {r : Replication}, r.Unsent → ∀ e t,
      (r.clearDirty e t).Unsent := by
    intro r unsent e t
    unfold Replication.clearDirty
    split
    · exact unsent
    · exact ⟨unsent.nextSendTick, unsent.elapsedTime⟩
  induction effects generalizing r with
  | nil => exact unsent
  | cons effect effects inductionHypothesis =>
      refine inductionHypothesis ?_
      have kept : ∀ r' : Replication, r'.nextSendTick = r.nextSendTick →
          r'.elapsedTime = r.elapsedTime → r'.Unsent := fun _ ticks time =>
        ⟨ticks.trans unsent.nextSendTick, time.trans unsent.elapsedTime⟩
      cases effect with
      | dispatched type e t name seen =>
          cases type with
          | added =>
              dsimp only [onWorldEvent, onEntityComponentAdded]
              split
              · exact unsent
              · split <;> exact kept _ rfl rfl
          | changed =>
              dsimp only [onWorldEvent, onEntityComponentChanged]
              split
              · exact unsent
              · split <;> exact kept _ rfl rfl
          | removed =>
              dsimp only [onWorldEvent, onEntityComponentRemoved]
              have cleared := clears unsent e t
              split
              · exact unsent
              · split
                · split
                  · exact cleared
                  · refine ⟨?_, cleared.elapsedTime⟩
                    change AList.erase e _ = ∅
                    rw [cleared.nextSendTick]
                    rfl
                · exact cleared
          | custom =>
              dsimp only [onWorldEvent]
              split
              · exact ⟨rfl, rfl⟩
              · exact unsent
      | _ => exact unsent

namespace Server

variable {s : Server} {e : Entity} {first t : ComponentTypeId}

/-- All networked components of a live entity but one are dirty, and nothing has
been sent yet. -/
structure AllDirty (registry : ComponentRegistry) (e : Entity)
    (first : ComponentTypeId) (s : Server) : Prop where
  kept : s.Kept registry
  unsent : s.replication.Unsent
  alive : s.world.isAlive e = true
  dirty : ∀ t ∈ s.world.networkedOf registry e,
    t = first ∨ t ∈ s.replication.dirtyOf e

/-- The types after an addition. -/
theorem mem_types_add
    (kept : s.Kept registry) (alive : s.world.isAlive e = true)
    {schema : ComponentSchema} (registered : registry.schemaOf t = some schema)
    (u : ComponentTypeId) :
    u ∈ ((ServerOp.world (.addRaw e t none)).apply registry
        s).1.world.getEntityComponentTypes e ↔
      u = t ∨ u ∈ s.world.getEntityComponentTypes e := by
  have contentsEq := World.addRaw_contents (e := e) (t := t)
    kept.stable.consistent kept.idle.immediate kept.idle.outside none
  rw [registered, if_pos Option.isSome_some] at contentsEq
  have stable' : (s.world.addRaw registry e t none).state.Stable registry :=
    kept.stable.keeps
      (World.addRaw_realizes (World.stable_inductiveOn registry) e t none)
      (World.addRaw_createsNothing s.world e t none)
  refine (World.mem_types_put_iff kept.stable.consistent stable'.consistent
    alive contentsEq u).trans ?_
  by_cases same : u = t
  · rw [if_pos same]
    exact iff_of_true rfl (Or.inl same)
  · rw [if_neg same, or_iff_right same]

/-- An addition makes its component dirty, unless it is the first one. -/
theorem AllDirty.add
    (all : s.AllDirty registry e first) {schema : ComponentSchema}
    (registered : registry.schemaOf t = some schema)
    (follows : s.world.Replicates registry e ∨ t = first) :
    ((ServerOp.world (.addRaw e t none)).apply registry
      s).1.AllDirty registry e first := by
  have kept := all.kept
  have reported := World.addRaw_reported kept.stable kept.idle.immediate
    kept.idle.outside registered all.alive none
  obtain ⟨_, notes⟩ := kept.tracks.reported reported
  have types := mem_types_add kept all.alive registered
  have creates : s.IssuesDead registry (.world (.addRaw e t none)) :=
    fun effect member => Effect.NotCreation.issuesDead
      (World.addRaw_createsNothing s.world e t none effect member)
  refine ⟨apply_kept kept creates, all.unsent.onWorldEvents _, ?_, fun u member => ?_⟩
  · by_contra dead
    have member := (types t).mpr (Or.inl rfl)
    unfold World.getEntityComponentTypes at member
    rw [if_neg dead] at member
    exact List.not_mem_nil member
  · by_cases isFirst : u = first
    · exact Or.inl isFirst
    · refine Or.inr ?_
      obtain ⟨here, networked⟩ := World.mem_networkedOf.mp member
      by_cases old : u ∈ s.world.networkedOf registry e
      · exact notes.dirty e (List.ne_nil_of_mem old) u member
          (Or.inl ((all.dirty u old).resolve_left isFirst))
      · obtain replicates | isFirst' := follows
        · exact notes.dirty e replicates u member (Or.inr old)
        · have before := (types u).mp here
          rw [isFirst', or_iff_right isFirst] at before
          exact absurd (World.mem_networkedOf.mpr ⟨before, networked⟩) old

/-- Additions one after the other. -/
theorem AllDirty.addAll
    (all : s.AllDirty registry e first)
    (replicates : s.world.Replicates registry e)
    {types : List ComponentTypeId}
    (registered : ∀ t ∈ types, (registry.schemaOf t).isSome = true) :
    let s' := (s.run registry (types.map fun t =>
      .world (.addRaw e t none))).1
    s'.AllDirty registry e first ∧ ∀ u,
      u ∈ s'.world.getEntityComponentTypes e ↔
        u ∈ types ∨ u ∈ s.world.getEntityComponentTypes e := by
  induction types generalizing s with
  | nil => exact ⟨all, fun u => (or_iff_right List.not_mem_nil).symm⟩
  | cons t types inductionHypothesis =>
      obtain ⟨schema, found⟩ :=
        Option.isSome_iff_exists.mp (registered t List.mem_cons_self)
      have added := mem_types_add all.kept all.alive found
      have still : ((ServerOp.world (.addRaw e t none)).apply registry
          s).1.world.Replicates registry e := by
        obtain ⟨u, member⟩ := List.exists_mem_of_ne_nil _ replicates
        obtain ⟨here, networked⟩ := World.mem_networkedOf.mp member
        exact List.ne_nil_of_mem
          (World.mem_networkedOf.mpr ⟨(added u).mpr (Or.inr here), networked⟩)
      obtain ⟨last, types'⟩ := inductionHypothesis
        (all.add found (Or.inl replicates)) still
        fun u member => registered u (List.mem_cons_of_mem t member)
      refine ⟨last, fun u => (types' u).trans ?_⟩
      rw [added u, List.mem_cons, ← or_assoc, @or_comm (u ∈ types)]

/-- Before anything was sent, a delta has a component for each dirty one. -/
theorem AllDirty.le_components
    (all : s.AllDirty registry e first) {delta : ℚ} (forward : 0 ≤ delta)
    {types : List ComponentTypeId} (distinct : types.Nodup)
    (others : first ∉ types)
    (present : ∀ t ∈ types, t ∈ s.world.networkedOf registry e)
    (any : ∀ t ∈ types, (syncPlanFor registry t).anyDelta = true) :
    types.length ≤ (s.world.deltaComponents registry
      (s.replication.beforeDelta delta) e (s.replication.dirtyOf e)).length := by
  have consistent := all.kept.stable.consistent
  unfold World.deltaComponents
  rw [List.length_filterMap_eq_countP, List.countP_eq_length_filter]
  refine (List.subperm_of_subset distinct fun t member => ?_).length_le
  obtain ⟨here, networked⟩ := World.mem_networkedOf.mp (present t member)
  obtain ⟨schema, data, registered, found⟩ :=
    World.getRaw_of_mem_types consistent here
  have never : (s.replication.beforeDelta delta).ticksOf e t = [] := by
    change (((s.replication.nextSendTick.lookup e).getD ∅).lookup t).getD
      [] = []
    rw [all.unsent.nextSendTick]
    rfl
  have allDue : (syncPlanFor registry t).due []
      (s.replication.beforeDelta delta).elapsedTime =
      (syncPlanFor registry t).buckets := by
    refine List.filter_eq_self.mpr fun bucket _ => decide_eq_true ?_
    change ¬s.replication.elapsedTime + delta < 0
    rw [all.unsent.elapsedTime, zero_add]
    exact not_lt.mpr forward
  have hasBuckets := any t member
  rw [FieldSyncPlan.anyDelta_eq, Bool.not_eq_true',
    List.isEmpty_eq_false_iff, ← allDue] at hasBuckets
  refine List.mem_filter.mpr ⟨?_, ?_⟩
  · refine (all.dirty t (present t member)).resolve_left fun isFirst => ?_
    exact others (isFirst ▸ member)
  · rw [never, World.deltaComponent_eq_some.mpr ⟨networked,
      (World.has_iff_mem_types consistent).mpr here, schema, data, registered,
      found, hasBuckets, rfl⟩]
    rfl

/-- A byte does not count 256 dirty components of one entity. -/
theorem AllDirty.not_countsFit
    (all : s.AllDirty registry e first) {delta : ℚ} (forward : 0 ≤ delta)
    {types : List ComponentTypeId} (distinct : types.Nodup)
    (others : first ∉ types)
    (present : ∀ t ∈ types, t ∈ s.world.networkedOf registry e)
    (any : ∀ t ∈ types, (syncPlanFor registry t).anyDelta = true)
    (many : 2 ^ 8 ≤ types.length) {order : List Ptr} :
    ¬s.CountsFit registry (.tick order delta) := by
  intro counts
  have long := many.trans
    (all.le_components forward distinct others present any)
  obtain ⟨_, few⟩ := delta_counted (w := s.world)
    (r := s.replication.beforeDelta delta) fun message member =>
      counts message (List.mem_append_right _ (List.mem_append_left _ member))
  have short := few _ (World.mem_deltaEntities all.alive
    (List.ne_nil_of_length_pos ((Nat.two_pow_pos 8).trans_le long)))
  exact absurd short (Nat.not_lt.mpr long)

/-- The first step of a run. -/
theorem run_cons (s : Server) (op : ServerOp) (ops : List ServerOp) :
    (s.run registry (op :: ops)).1 =
      ((op.apply registry s).1.run registry ops).1 := rfl

/-- Nothing is sent at the start. -/
theorem bindWorld_unsent
    {w : World} (consistent : w.store.Consistent registry) :
    (bindWorld registry w).replication.Unsent := by
  obtain ⟨_, _, others⟩ := Replication.seedFromWorld_spec consistent {}
  unfold bindWorld
  rw [others]
  exact ⟨rfl, rfl⟩

/-- Components of one byte with different names. -/
def byteSchemas (count : Nat) : List ComponentSchema :=
  (List.range count).map fun i => {
    typeName := String.ofList (List.replicate (i + 1) 'x')
    size := 1
    fields := [{ name := "hp", type := .u8, byteSize := 1 }]
    isNetworked := true }

/-- One schema of many. -/
theorem schemaOf_byteSchemas
    {count i : Nat} (listed : i < count) (few : count < 2 ^ 32) :
    ∃ schema, (ComponentRegistry.ofSchemas (byteSchemas count)).schemaOf
        (UInt32.ofNat (i + 1)) = some schema ∧
      schema.fields = [{ name := "hp", type := .u8, byteSize := 1 }] ∧
      schema.isNetworked = true := by
  have named : ∀ schema ∈ byteSchemas count, schema.typeName ≠ "" := by
    intro schema member
    obtain ⟨j, _, rfl⟩ := List.mem_map.mp member
    intro empty
    have lengths := congrArg String.length empty
    rw [String.length_ofList, List.length_replicate] at lengths
    exact absurd lengths (Nat.succ_ne_zero j)
  have distinct : ((byteSchemas count).map
      ComponentSchema.typeName).Nodup := by
    unfold byteSchemas
    rw [List.map_map]
    refine List.nodup_range.map fun j k same => ?_
    have lengths := congrArg String.length same
    dsimp only [Function.comp] at lengths
    rw [String.length_ofList, String.length_ofList, List.length_replicate,
      List.length_replicate] at lengths
    exact Nat.succ_inj.mp lengths
  obtain ⟨schemas, _⟩ := ComponentRegistry.ofSchemas_spec named distinct
  have sized : (byteSchemas count).length = count := by
    unfold byteSchemas
    rw [List.length_map, List.length_range]
  have index : (UInt32.ofNat (i + 1)).toNat = i + 1 := by
    rw [UInt32.toNat_ofNat', Nat.mod_eq_of_lt (by omega)]
  unfold ComponentRegistry.schemaOf
  rw [schemas, List.length_mapIdx, sized, index, if_neg, Nat.add_sub_cancel,
    List.getElem?_mapIdx, byteSchemas, List.getElem?_map,
    List.getElem?_range listed]
  · exact ⟨_, rfl, rfl, rfl⟩
  · rintro (invalid | beyond)
    · have zero := congrArg UInt32.toNat invalid
      rw [index] at zero
      exact absurd zero (Nat.succ_ne_zero i)
    · omega

/-- Its components are networked. -/
theorem isNetworked_byteSchemas
    {count i : Nat} (listed : i < count) (few : count < 2 ^ 32) :
    isNetworked (ComponentRegistry.ofSchemas (byteSchemas count))
        (UInt32.ofNat (i + 1)) = true ∧
      (syncPlanFor (ComponentRegistry.ofSchemas (byteSchemas count))
        (UInt32.ofNat (i + 1))).anyDelta = true := by
  obtain ⟨schema, registered, fields, networked⟩ :=
    schemaOf_byteSchemas listed few
  unfold isNetworked syncPlanFor
  rw [registered]
  dsimp only
  rw [fields, networked]
  decide +kernel

/-- The entity has 257 components, 256 of which are dirty: their number counts
as none, and the delta leaves the entity out. -/
theorem not_run_understood_wide :
    let registry := ComponentRegistry.ofSchemas (byteSchemas 257)
    let s := ((bindWorld registry (World.empty registry)).run registry
      (.world .createEntity :: (List.range 257).map fun i =>
        .world (.addRaw ⟨1⟩ (UInt32.ofNat (i + 1)) none))).1
    ¬s.Understood registry (.tick s.world.store.archetypeList 1) := by
  intro registry s understood
  have counts := countsFit_of_readBack understood.readBack
  have kept := bindWorld_kept (World.empty_stable registry) rfl
  let created := ((ServerOp.world .createEntity).apply registry
    (bindWorld registry (World.empty registry))).1
  have start : created.AllDirty registry ⟨1⟩ (UInt32.ofNat 1) := by
    refine ⟨apply_kept kept (by decide +kernel),
      (bindWorld_unsent kept.stable.consistent).onWorldEvents _,
      by decide +kernel, fun t member => absurd member ?_⟩
    have bare : created.world.getEntityComponentTypes ⟨1⟩ = [] := by
      decide +kernel
    rw [World.networkedOf, bare]
    exact List.not_mem_nil
  have inRange : ∀ i < 257, (registry.schemaOf
      (UInt32.ofNat (i + 1))).isSome = true := by
    intro i listed
    obtain ⟨schema, registered, _⟩ :=
      schemaOf_byteSchemas listed (by decide : 257 < 2 ^ 32)
    rw [registered]
    rfl
  obtain ⟨schema, registered⟩ :=
    Option.isSome_iff_exists.mp (inRange 0 (by decide))
  have first := start.add registered (Or.inr rfl)
  have firstTypes := mem_types_add start.kept start.alive registered
  have networked := fun i listed =>
    isNetworked_byteSchemas (i := i) listed (by decide : 257 < 2 ^ 32)
  let later := (List.range 256).map fun i => UInt32.ofNat (i + 1 + 1)
  have laterRegistered : ∀ t ∈ later, (registry.schemaOf t).isSome = true := by
    intro t member
    obtain ⟨i, listed, rfl⟩ := List.mem_map.mp member
    exact inRange (i + 1) (Nat.succ_lt_succ (List.mem_range.mp listed))
  obtain ⟨all, types⟩ := first.addAll
    (List.ne_nil_of_mem (World.mem_networkedOf.mpr
      ⟨(firstTypes _).mpr (Or.inl rfl), (networked 0 (by decide)).1⟩))
    laterRegistered
  have ops : (List.range 257).map (fun i =>
      ServerOp.world (.addRaw ⟨1⟩ (UInt32.ofNat (i + 1)) none)) =
      .world (.addRaw ⟨1⟩ (UInt32.ofNat 1) none) ::
        later.map fun t => .world (.addRaw ⟨1⟩ t none) := by
    rw [List.range_succ_eq_map, List.map_cons, List.map_map, List.map_map]
    rfl
  have same : s = (((ServerOp.world (.addRaw ⟨1⟩ (UInt32.ofNat 1) none)).apply
      registry created).1.run registry (later.map fun t =>
        .world (.addRaw ⟨1⟩ t none))).1 := by
    change ((bindWorld registry (World.empty registry)).run registry
      (_ :: (List.range 257).map _)).1 = _
    rw [ops, run_cons, run_cons]
  rw [← same] at all types
  clear_value s
  have index : ∀ i < 256, (UInt32.ofNat (i + 1 + 1)).toNat = i + 1 + 1 := by
    intro i listed
    rw [UInt32.toNat_ofNat', Nat.mod_eq_of_lt (by omega)]
  have distinct : later.Nodup := by
    refine List.nodup_range.map_on fun i inList j inList' same => ?_
    have numbers := congrArg UInt32.toNat same
    rw [index i (List.mem_range.mp inList),
      index j (List.mem_range.mp inList')] at numbers
    omega
  have others : UInt32.ofNat 1 ∉ later := by
    intro member
    obtain ⟨i, inList, same⟩ := List.mem_map.mp member
    have numbers := congrArg UInt32.toNat same
    rw [index i (List.mem_range.mp inList)] at numbers
    exact absurd numbers (by simp)
  have plans : ∀ t ∈ later, isNetworked registry t = true ∧
      (syncPlanFor registry t).anyDelta = true := by
    intro t member
    obtain ⟨i, listed, rfl⟩ := List.mem_map.mp member
    exact networked (i + 1) (Nat.succ_lt_succ (List.mem_range.mp listed))
  refine all.not_countsFit zero_le_one distinct others
    (fun t member => World.mem_networkedOf.mpr
      ⟨(types t).mpr (Or.inl member), (plans t member).1⟩)
    (fun t member => (plans t member).2) ?_ counts
  rw [List.length_map, List.length_range]
  norm_num

end Server
end VortarisECS
