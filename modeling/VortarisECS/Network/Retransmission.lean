import VortarisECS.Library.Rearming
import VortarisECS.Network.Server
import VortarisECS.Network.TickTransfer

/-!
# What deltas send again

One dirty flag stands for all buckets of a component.  A tick that finds only
some of them due sends these and leaves the component dirty, so that they are
sent again when they are due the next time, though nothing happened to the
component.  Where every tick sends components whole or not at all, no record
goes out twice for one event.
-/

namespace VortarisECS

/-- A record of a delta: the entity, the component and the bucket. -/
abbrev SyncRecord := Entity × ComponentTypeId × Nat

/-- The component a record is about. -/
def SyncRecord.key (record : SyncRecord) : Entity × ComponentTypeId :=
  (record.1, record.2.1)

/-- The events of a component and the deltas of a run. -/
abbrev SyncEvent := SendEvent (Entity × ComponentTypeId) SyncRecord

/-- The records of a component of a delta. -/
def DeltaComponent.records (e : Entity) : DeltaComponent → List SyncRecord
  | whole _ => []
  | buckets t records => records.map fun record => (e, t, record.bucket)

/-- The records of an entity of a delta. -/
def DeltaEntity.records (entity : DeltaEntity) : List SyncRecord :=
  entity.components.flatMap (DeltaComponent.records ⟨entity.id⟩)

/-- What an added or changed event is about. -/
def Effect.marked? : Effect → Option (Entity × ComponentTypeId)
  | .dispatched .added e t _ _ => some (e, t)
  | .dispatched .changed e t _ _ => some (e, t)
  | _ => none

/-- The delta a packet carries. -/
def Replication.delta? (registry : ComponentRegistry) :
    Replication.SentPacket → Option SyncEvent
  | (.delta, data) =>
      match parsePacket registry .delta data with
      | some (.delta entities) => some (.sent (entities.flatMap (·.records)))
      | _ => none
  | _ => none

namespace Server

/-- What a step does in the eyes of a receiver that is told of the events. -/
def observe (registry : ComponentRegistry) (s : Server) (op : ServerOp) :
    List SyncEvent :=
  ((op.onWorld registry s.world).effects.filterMap Effect.marked?).map
      .marked ++
    (op.apply registry s).2.filterMap (Replication.delta? registry)

/-- The events and deltas of a run, in order. -/
def history (registry : ComponentRegistry) (s : Server) :
    List ServerOp → List SyncEvent
  | [] => []
  | op :: ops =>
      s.observe registry op ++ history registry (op.apply registry s).1 ops

end Server

namespace Replication

/-- The component of the entity is dirty. -/
def Dirty (r : Replication) (key : Entity × ComponentTypeId) : Prop :=
  key.2 ∈ r.dirtyOf key.1

/-- Some buckets of the component are due and some are not. -/
def partlyDue (registry : ComponentRegistry) (r : Replication) (e : Entity)
    (t : ComponentTypeId) : Bool :=
  let buckets := (syncPlanFor registry t).buckets
  buckets.any (bucketDue (r.ticksOf e t) r.elapsedTime) &&
    !buckets.all (bucketDue (r.ticksOf e t) r.elapsedTime)

end Replication

/-- What the tick's delta says can be counted, and of no dirty component that a
live entity has some buckets are due and some are not. -/
def Server.SendsWhole (registry : ComponentRegistry) (s : Server) :
    ServerOp → Prop
  | .tick _ delta =>
      let r := s.replication.beforeDelta delta
      (∀ entity ∈ s.world.deltaEntities registry r,
        entity.components.length < 2 ^ 8) ∧
      (s.world.deltaEntities registry r).length < 2 ^ 32 ∧
      (r.dirty.entries.all fun entry => entry.2.all fun t =>
        !(s.world.isAlive entry.1 && isNetworked registry t &&
          s.world.has entry.1 t && r.partlyDue registry entry.1 t)) = true
  | _ => True

instance (registry : ComponentRegistry) (s : Server) :
    (op : ServerOp) → Decidable (s.SendsWhole registry op)
  | .tick .. => inferInstanceAs (Decidable (_ ∧ _ ∧ _))
  | .world _ => inferInstanceAs (Decidable True)
  | .poke .. => inferInstanceAs (Decidable True)
  | .deserializeSnapshot _ => inferInstanceAs (Decidable True)
  | .requestFullState _ => inferInstanceAs (Decidable True)
  | .setReconciliationInterval _ => inferInstanceAs (Decidable True)
  | .rehash .. => inferInstanceAs (Decidable True)

variable {registry : ComponentRegistry} {w : World} {r : Replication}

namespace Replication

/-! ## Events mark -/

/-- What is dirty after a mark. -/
theorem Dirty.of_markDirty {e : Entity} {t : ComponentTypeId}
    {key : Entity × ComponentTypeId} (dirty : (r.markDirty e t).Dirty key) :
    key = (e, t) ∨ r.Dirty key := by
  unfold Dirty at dirty ⊢
  rw [dirtyOf_markDirty] at dirty
  split at dirty
  · rename_i same
    obtain same' | old := List.mem_insert_iff.mp dirty
    · exact Or.inl (Prod.ext same same')
    · exact Or.inr (same ▸ old)
  · exact Or.inr dirty

/-- Clearing marks nothing. -/
theorem Dirty.of_clearDirty {e : Entity} {t : ComponentTypeId}
    {key : Entity × ComponentTypeId} (dirty : (r.clearDirty e t).Dirty key) :
    r.Dirty key := by
  unfold Dirty at dirty ⊢
  rw [dirtyOf_clearDirty] at dirty
  split at dirty
  · rename_i same
    rw [same]
    exact List.mem_of_mem_filter dirty
  · exact dirty

/-- Forgetting an entity marks nothing. -/
theorem Dirty.of_untrack {e : Entity} {key : Entity × ComponentTypeId}
    (dirty : (r.untrack e).Dirty key) : r.Dirty key := by
  unfold Dirty at dirty ⊢
  rw [dirtyOf_untrack] at dirty
  split at dirty
  · exact absurd dirty List.not_mem_nil
  · exact dirty

/-- An event that marks no component makes none dirty. -/
theorem onWorldEvent_dirty (r : Replication) (effect : Effect)
    {key : Entity × ComponentTypeId}
    (dirty : (r.onWorldEvent registry effect).Dirty key) :
    effect.marked? = some key ∨ r.Dirty key := by
  cases effect with
  | dispatched type e t name seen =>
      cases type with
      | added =>
          dsimp only [onWorldEvent, onEntityComponentAdded] at dirty
          split at dirty
          · exact Or.inr dirty
          · split at dirty
            · exact dirty.of_markDirty.imp_left fun same => congrArg some same.symm
            · exact Or.inr dirty
      | changed =>
          dsimp only [onWorldEvent, onEntityComponentChanged] at dirty
          split at dirty
          · exact Or.inr dirty
          · split at dirty
            · exact dirty.of_markDirty.imp_left fun same => congrArg some same.symm
            · exact Or.inr dirty
      | removed =>
          dsimp only [onWorldEvent, onEntityComponentRemoved] at dirty
          split at dirty
          · exact Or.inr dirty
          · split at dirty
            · split at dirty
              · exact Or.inr dirty.of_clearDirty
              · exact Or.inr dirty.of_untrack.of_clearDirty
            · exact Or.inr dirty.of_clearDirty
      | custom =>
          dsimp only [onWorldEvent] at dirty
          split at dirty
          · exact absurd dirty List.not_mem_nil
          · exact Or.inr dirty
  | issued e before => exact Or.inr dirty
  | adopted e before => exact Or.inr dirty
  | wrote e comp => exact Or.inr dirty
  | moved e => exact Or.inr dirty
  | ranCustomCommand id data => exact Or.inr dirty

/-- Events mark what they are about. -/
theorem onWorldEvents_arms (r : Replication) (effects : List Effect) :
    SendEvent.Arms SyncRecord.key r.Dirty
      ((effects.filterMap Effect.marked?).map .marked)
      (r.onWorldEvents registry effects).Dirty := by
  induction effects generalizing r with
  | nil => exact .done fun _ => id
  | cons effect effects inductionHypothesis =>
      have later := inductionHypothesis (r.onWorldEvent registry effect)
      cases marks : effect.marked? with
      | none =>
          rw [List.filterMap_cons_none marks]
          refine later.mono fun key dirty => ?_
          exact (onWorldEvent_dirty r effect dirty).resolve_left fun marked =>
            absurd (marks.symm.trans marked) (by simp)
      | some marked =>
          rw [List.filterMap_cons_some marks, List.map_cons]
          refine .mark (later.mono fun key dirty => ?_)
          exact (onWorldEvent_dirty r effect dirty).imp_left fun here =>
            Option.some.inj (here.symm.trans marks)

/-- Another hash order marks nothing. -/
theorem rehash_arms (r : Replication) (order : List Entity)
    (typeOrder : Entity → List ComponentTypeId) :
    SendEvent.Arms SyncRecord.key r.Dirty [] (r.rehash order typeOrder).Dirty :=
  .done fun key dirty =>
    (rehash_dirtyOf_perm r order typeOrder key.1).mem_iff.mp dirty

/-! ## Deltas send -/

/-- A record of a delta is about a dirty component, and the bucket is due. -/
theorem mem_records
    {record : SyncRecord}
    (member : record ∈ (w.deltaEntities registry r).flatMap (·.records)) :
    w.isAlive record.1 = true ∧ r.Dirty record.key ∧
      isNetworked registry record.2.1 = true ∧
      w.has record.1 record.2.1 = true ∧
      (syncPlanFor registry record.2.1).due (r.ticksOf record.1 record.2.1)
        r.elapsedTime ≠ [] := by
  obtain ⟨entity, inDelta, inEntity⟩ := List.mem_flatMap.mp member
  obtain ⟨entry, isDirty, said⟩ := List.mem_filterMap.mp inDelta
  obtain ⟨alive, _, rfl⟩ := World.deltaEntity_eq_some.mp said
  obtain ⟨component, inComponents, inComponent⟩ := List.mem_flatMap.mp inEntity
  obtain ⟨t, inSet, saidOf⟩ := List.mem_filterMap.mp inComponents
  obtain ⟨networked, present, schema, data, _, _, some, rfl⟩ :=
    World.deltaComponent_eq_some.mp saidOf
  obtain ⟨bucket, _, rfl⟩ := List.mem_map.mp inComponent
  refine ⟨alive, ?_, networked, present, some⟩
  unfold Dirty
  change t ∈ r.dirtyOf entry.1
  rw [dirtyOf_of_entry isDirty]
  exact inSet

/-- A component of which a record is sent does not stay dirty. -/
theorem not_staysDirty_of_due
    {e : Entity} {t : ComponentTypeId}
    (whole : r.partlyDue registry e t = false)
    (some : (syncPlanFor registry t).due (r.ticksOf e t) r.elapsedTime ≠ []) :
    w.staysDirty registry r.elapsedTime e (r.ticksOf e t) t = false := by
  have isAny : (syncPlanFor registry t).buckets.any
      (bucketDue (r.ticksOf e t) r.elapsedTime) = true := by
    rw [List.any_eq_true]
    obtain ⟨bucket, member⟩ := List.exists_mem_of_ne_nil _ some
    obtain ⟨inPlan, due⟩ := List.mem_filter.mp member
    exact ⟨bucket, inPlan, due⟩
  unfold partlyDue at whole
  dsimp only at whole
  rw [isAny, Bool.true_and] at whole
  unfold World.staysDirty
  rw [whole, Bool.and_false]

/-- The delta is read back, unless it says nothing. -/
theorem buildDelta_delta?
    (consistent : w.store.Consistent registry) (sets : r.DirtySets)
    (counted : ∀ entity ∈ w.deltaEntities registry r,
      entity.components.length < 2 ^ 8)
    (small : (w.deltaEntities registry r).length < 2 ^ 32) :
    (sendNonempty .delta (r.buildDelta registry w).2).filterMap
        (delta? registry) =
      if w.deltaEntities registry r = [] then []
      else [.sent ((w.deltaEntities registry r).flatMap (·.records))] := by
  obtain ⟨bytes, _, _⟩ := buildDelta_spec consistent sets counted small
  unfold sendNonempty BinaryBuffer.size
  by_cases none : w.deltaEntities registry r = []
  · rw [if_pos none] at bytes
    rw [bytes, if_pos none]
    rfl
  · have some : (r.buildDelta registry w).2.data.length > 0 := by
      rw [bytes, if_neg none, List.length_append, length_littleEndian]
      exact Nat.add_pos_left (by decide) _
    have parsed := buildDelta_parsed consistent sets counted small none
    rw [if_pos some, if_neg none, List.filterMap_cons_some]
    · rfl
    · unfold delta?
      dsimp only
      rw [parsed]

/-- Other packets are no deltas. -/
theorem filterMap_delta?_eq_nil
    {packets : List SentPacket}
    (others : ∀ packet ∈ packets, packet.1 ≠ .delta) :
    packets.filterMap (delta? registry) = [] := by
  rw [List.filterMap_eq_nil_iff]
  rintro ⟨kind, data⟩ member
  cases kind with
  | delta => exact absurd rfl (others _ member)
  | spawn => rfl
  | despawn => rfl
  | fullState => rfl

/-- What is sent has the kind it is sent as. -/
theorem kind_of_mem_sendNonempty
    {kind : SyncPacketKind} {buf : BinaryBuffer} {packet : SentPacket}
    (member : packet ∈ sendNonempty kind buf) : packet.1 = kind := by
  unfold sendNonempty at member
  split at member
  · rw [List.mem_singleton.mp member]
  · exact absurd member List.not_mem_nil

/-- The other packets of a tick are no deltas. -/
theorem tick_split
    (registry : ComponentRegistry) (r : Replication) (w : World)
    (order : List Ptr) (delta : ℚ) :
    ∃ earlier later : List SentPacket,
      (r.tick registry w order delta).2 = earlier ++ (sendNonempty .delta
        ((r.beforeDelta delta).buildDelta registry w).2 ++ later) ∧
      (∀ packet ∈ earlier, packet.1 ≠ .delta) ∧
      ∀ packet ∈ later, packet.1 ≠ .delta := by
  refine ⟨_, _, tick_packets r, fun packet member => ?_,
    fun packet member => ?_⟩
  · obtain ⟨e, _, rfl⟩ := List.mem_map.mp member
    exact SyncPacketKind.noConfusion
  · obtain despawn | fullState := List.mem_append.mp member
    · obtain ⟨e, _, rfl⟩ := List.mem_map.mp despawn
      exact SyncPacketKind.noConfusion
    · split at fullState
      · rw [kind_of_mem_sendNonempty fullState]
        exact SyncPacketKind.noConfusion
      · exact absurd fullState List.not_mem_nil

/-- A tick sends one delta at most. -/
theorem tick_delta?
    (r : Replication) (w : World) (order : List Ptr) (delta : ℚ) :
    (r.tick registry w order delta).2.filterMap (delta? registry) =
      (sendNonempty .delta
        ((r.beforeDelta delta).buildDelta registry w).2).filterMap
          (delta? registry) := by
  obtain ⟨earlier, later, packets, noneEarlier, noneLater⟩ :=
    tick_split registry r w order delta
  rw [packets, List.filterMap_append, List.filterMap_append,
    filterMap_delta?_eq_nil noneEarlier, filterMap_delta?_eq_nil noneLater,
    List.append_nil, List.nil_append]

/-- A tick sends what is dirty, and what it sent is clean afterwards. -/
theorem tick_arms
    {delta : ℚ} (consistent : w.store.Consistent registry) (sets : r.DirtySets)
    (counted : ∀ entity ∈ w.deltaEntities registry (r.beforeDelta delta),
      entity.components.length < 2 ^ 8)
    (small : (w.deltaEntities registry (r.beforeDelta delta)).length < 2 ^ 32)
    (whole : ∀ e t, w.isAlive e = true → (r.beforeDelta delta).Dirty (e, t) →
      isNetworked registry t = true → w.has e t = true →
      (r.beforeDelta delta).partlyDue registry e t = false)
    (order : List Ptr) :
    SendEvent.Arms SyncRecord.key r.Dirty
      ((r.tick registry w order delta).2.filterMap (delta? registry))
      (r.tick registry w order delta).1.Dirty := by
  have setsBefore : (r.beforeDelta delta).DirtySets := sets
  have remains : ∀ key, (r.tick registry w order delta).1.Dirty key →
      r.Dirty key ∧ w.staysDirty registry (r.elapsedTime + delta) key.1
        (r.ticksOf key.1 key.2) key.2 = true := by
    intro key dirty
    unfold Dirty at dirty
    rw [tick_dirtyOf consistent sets counted small] at dirty
    split at dirty
    · obtain ⟨before, stays⟩ := List.mem_filter.mp dirty
      exact ⟨before, stays⟩
    · exact absurd dirty List.not_mem_nil
  rw [tick_delta?, buildDelta_delta? consistent setsBefore counted small]
  split
  · exact .done fun key dirty => (remains key dirty).1
  · refine .send (fun record member => (mem_records member).2.1) (.done
      fun key dirty => ⟨(remains key dirty).1, fun record member same => ?_⟩)
    obtain ⟨alive, isDirty, networked, present, some⟩ := mem_records member
    have clean := not_staysDirty_of_due (w := w)
      (whole _ _ alive isDirty networked present) some
    subst same
    exact absurd (clean.symm.trans (remains _ dirty).2) Bool.false_ne_true

end Replication

namespace Server

variable {s : Server}

/-- A tick that sends whole components sends all that is due. -/
theorem sendsWhole_spec
    {order : List Ptr} {delta : ℚ}
    (sendsWhole : s.SendsWhole registry (.tick order delta)) (e : Entity)
    (t : ComponentTypeId) (alive : s.world.isAlive e = true)
    (dirty : (s.replication.beforeDelta delta).Dirty (e, t))
    (networked : isNetworked registry t = true)
    (present : s.world.has e t = true) :
    (s.replication.beforeDelta delta).partlyDue registry e t = false := by
  have checked := sendsWhole.2.2
  unfold Replication.Dirty Replication.dirtyOf at dirty
  dsimp only at dirty checked
  cases found : (s.replication.beforeDelta delta).dirty.lookup e with
  | none =>
      rw [found] at dirty
      exact absurd dirty List.not_mem_nil
  | some types =>
      rw [found] at dirty
      rw [List.all_eq_true] at checked
      have entry := checked ⟨e, types⟩ (AList.mem_lookup_iff.mp found)
      rw [List.all_eq_true] at entry
      have here := entry t dirty
      rw [alive, networked, present] at here
      simpa using here

/-- What one step sends and marks. -/
theorem apply_arms
    (kept : s.Kept registry) (op : ServerOp)
    (sendsWhole : s.SendsWhole registry op) :
    SendEvent.Arms SyncRecord.key s.replication.Dirty (s.observe registry op)
      (op.apply registry s).1.replication.Dirty := by
  have events : SendEvent.Arms SyncRecord.key s.replication.Dirty
      (((op.onWorld registry s.world).effects.filterMap
        Effect.marked?).map .marked ++ [])
      (s.replication.onWorldEvents registry
        (op.onWorld registry s.world).effects).Dirty := by
    rw [List.append_nil]
    exact Replication.onWorldEvents_arms _ _
  cases op with
  | world op => exact events
  | poke e t offset bytes => exact events
  | deserializeSnapshot data => exact events
  | tick order delta =>
      exact Replication.tick_arms kept.stable.consistent kept.tracks.sets
        sendsWhole.1 sendsWhole.2.1 (sendsWhole_spec sendsWhole) order
  | requestFullState order =>
      have silent : s.observe registry (.requestFullState order) = [] :=
        Replication.filterMap_delta?_eq_nil fun packet member => by
          rw [Replication.kind_of_mem_sendNonempty member]
          exact SyncPacketKind.noConfusion
      rw [silent]
      exact .done fun _ => id
  | setReconciliationInterval seconds => exact .done fun _ => id
  | rehash order typeOrder =>
      exact Replication.rehash_arms s.replication order typeOrder

/-- In every run, what is dirty was marked since it was sent. -/
theorem history_arms
    (kept : s.Kept registry) {ops : List ServerOp}
    (allows : s.Allows registry
      (fun s op => s.IssuesDead registry op ∧ s.SendsWhole registry op) ops) :
    SendEvent.Arms SyncRecord.key s.replication.Dirty (s.history registry ops)
      (s.run registry ops).1.replication.Dirty := by
  induction ops generalizing s with
  | nil => exact .done fun _ => id
  | cons op ops inductionHypothesis =>
      exact (apply_arms kept op allows.1.2).append
        (inductionHypothesis (apply_kept kept allows.1.1) allows.2)

/-- In a run in which no creation hands out a live id, the counts of each delta
fit, and no tick finds a dirty component with some but not all buckets due, a
record is sent again only after a new event of its component, and after the last
event at most once. -/
theorem run_resentOnlyMarked
    (prelude : List SessionOp) (ops : List ServerOp)
    (preludeDead : Traced.Accepted Effect.IssuesDead
      (SessionOp.run registry prelude))
    (allows : (bindWorld registry (SessionOp.run registry prelude).state).Allows
      registry
      (fun s op => s.IssuesDead registry op ∧ s.SendsWhole registry op) ops) :
    let history := (bindWorld registry
      (SessionOp.run registry prelude).state).history registry ops
    SendEvent.ResentOnlyMarked SyncRecord.key history ∧
      SendEvent.SentOnceMore SyncRecord.key history := by
  have arms := history_arms (bindWorld_kept (SessionOp.run_stable preludeDead)
    (SessionOp.run_idle registry prelude)) allows
  exact ⟨arms.resentOnlyMarked, arms.sentOnceMore⟩

end Server

/-- A registry with one component in two tiers. -/
def ComponentRegistry.soldierRegistry : ComponentRegistry :=
  (ComponentRegistry.registerSchemaComponent .singlePrecision {} "Soldier"
    [{ name := "aim", type := .u8, syncPriority := syncRealtime },
      { name := "hp", type := .u8, syncPriority := syncLow }]).2

namespace Server

/-- A soldier who changes once in a while. -/
theorem run_resentOnlyMarked_soldier :
    let registry := ComponentRegistry.soldierRegistry
    let history := (bindWorld registry (SessionOp.run registry
      [.world .createEntity, .world (.addRaw ⟨1⟩ 1 (some [7, 8]))]).state).history
        registry [.tick [1, 0] 1, .world (.markChanged ⟨1⟩ 1 "hp"),
          .tick [1, 0] 1, .tick [1, 0] (1 / 10),
          .world (.setField ⟨1⟩ 1 "aim" [9]), .tick [1, 0] 1]
    SendEvent.ResentOnlyMarked SyncRecord.key history ∧
      SendEvent.SentOnceMore SyncRecord.key history := by
  exact run_resentOnlyMarked _ _ (by decide +kernel) (by decide +kernel)

/-- A change that comes soon after a full delta is sent at the next tick, but the
slow bucket has to wait, and the fast one goes out with every tick until then. -/
theorem not_run_resentOnlyMarked_soldier :
    let registry := ComponentRegistry.soldierRegistry
    ¬SendEvent.ResentOnlyMarked SyncRecord.key
      ((bindWorld registry (World.empty registry)).history registry
        [.world .createEntity, .world (.addRaw ⟨1⟩ 1 (some [7, 8])),
          .tick [1, 0] 1, .world (.markChanged ⟨1⟩ 1 "aim"),
          .tick [1, 0] (1 / 10), .world (.markChanged ⟨1⟩ 1 "aim"),
          .tick [1, 0] (1 / 10), .tick [1, 0] (1 / 10)]) := by
  intro registry onlyMarked
  have resent := onlyMarked
    [.marked (⟨1⟩, 1), .marked (⟨1⟩, 1), .sent [(⟨1⟩, 1, 0), (⟨1⟩, 1, 1)],
      .marked (⟨1⟩, 1)]
    [(⟨1⟩, 1, 0)] [] [(⟨1⟩, 1, 0)] [] (by decide +kernel) (⟨1⟩, 1, 0)
    (by decide) (by decide)
  exact List.not_mem_nil resent

end Server
end VortarisECS
