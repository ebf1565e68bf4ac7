import Mathlib.Data.List.Flatten
import Mathlib.Data.List.Infix
import VortarisECS.Network.PrivateFields
import VortarisECS.Network.Retransmission

/-!
# How often a bucket is sent

A delta carries whole buckets of the plans of its components.  Sending a bucket
moves its deadline, and only forgetting its entity takes a deadline away, so
that no bucket is sent again before its interval has passed.
-/

namespace VortarisECS

/-- The time that passes with a step. -/
def ServerOp.seconds : ServerOp → ℚ
  | tick _ delta => delta
  | _ => 0

/-- The times of the buckets of a component among those of all entities. -/
def timesOf
    (ticks : AList fun _ : Entity => AList fun _ : ComponentTypeId => List ℚ)
    (e : Entity) (t : ComponentTypeId) : List ℚ :=
  (((ticks.lookup e).getD ∅).lookup t).getD []

/-- The bucket has a time, which is not before the bound. -/
def Waits (bound : ℚ) (bucket : Nat) (times : List ℚ) : Prop :=
  ∃ time, times[bucket]? = some time ∧ bound ≤ time

namespace Server

/-- The entities of the delta that a step sends. -/
def sentEntities (registry : ComponentRegistry) (s : Server) :
    ServerOp → List DeltaEntity
  | .tick _ delta =>
      let written := s.world.writtenEntities registry
        (s.replication.beforeDelta delta)
      if written.length % 2 ^ 32 = 0 then [] else written
  | _ => []

/-- The records of the delta that a step sends. -/
def sentRecords (registry : ComponentRegistry) (s : Server) (op : ServerOp) :
    List SyncRecord :=
  (s.sentEntities registry op).flatMap (·.records)

/-- The entity is tracked all through a step, which sends no despawn of it. -/
def KeepsTracked (registry : ComponentRegistry) (e : Entity) (s : Server)
    (op : ServerOp) : Prop :=
  (∀ events ∈ (op.onWorld registry s.world).effects.inits,
    e ∈ (s.replication.onWorldEvents registry events).tracked) ∧
  (.despawn, (Replication.despawnPacket e).data) ∉ (op.apply registry s).2

instance (registry : ComponentRegistry) (e : Entity) (s : Server)
    (op : ServerOp) : Decidable (s.KeepsTracked registry e op) :=
  inferInstanceAs (Decidable (_ ∧ _))

end Server

/-- The component of a delta is a list of buckets of its plan, with the masks of
the plan. -/
def DeltaComponent.FollowsPlan (registry : ComponentRegistry) :
    DeltaComponent → Prop
  | whole _ => False
  | buckets t records => ∀ record ∈ records,
      (syncPlanFor registry t).bucketMasks[record.bucket]? = some record.mask ∧
      ∃ schema, registry.schemaOf t = some schema ∧
        ∀ fd ∈ maskedFields schema.fields record.mask, fd.isNetworked = true ∧
          fd.syncPriority ≠ syncLocal ∧ fd.syncPriority ≠ syncSpawnOnly

variable {registry : ComponentRegistry} {w : World} {r : Replication}
variable {e : Entity} {t : ComponentTypeId} {elapsed bound : ℚ}

/-! ## What a plan says of its buckets -/

namespace FieldSyncPlan

/-- The masks of buckets by their intervals. -/
theorem bucketMasks_eq
    {schema : ComponentSchema} (registered : registry.schemaOf t = some schema) :
    (syncPlanFor registry t).bucketMasks =
      (syncPlanFor registry t).bucketIntervals.map fun interval =>
        schema.fields.map fun fd => fd.isSent &&
          decide (priorityInterval fd.syncPriority = interval) := by
  unfold syncPlanFor
  rw [registered]

/-- The index of a bucket leads to its interval and its mask. -/
theorem getElem?_of_mem_buckets
    {plan : FieldSyncPlan} {bucket : SyncBucket}
    (member : bucket ∈ plan.buckets) :
    plan.bucketIntervals[bucket.1]? = some bucket.2.1 ∧
      plan.bucketMasks[bucket.1]? = some bucket.2.2 := by
  obtain ⟨entry, inPlan, rfl⟩ := List.mem_map.mp member
  exact List.getElem?_zip_eq_some.mp (List.mem_zipIdx_iff_getElem?.mp inPlan)

/-- No interval is negative. -/
theorem intervals_nonneg
    {interval : ℚ} (member : interval ∈ (syncPlanFor registry t).bucketIntervals) :
    0 ≤ interval := by
  unfold syncPlanFor at member
  cases registered : registry.schemaOf t with
  | none =>
      rw [registered] at member
      exact absurd member List.not_mem_nil
  | some schema =>
      rw [registered] at member
      have nonneg : ∀ tier ∈ [0, 1 / 20, 1 / 10, (1 / 2 : ℚ)], 0 ≤ tier := by
        decide +kernel
      exact nonneg interval ((collectIntervals_spec schema.fields).2 interval
        ((List.mem_insertionSort _).mp member))

theorem bucket_nonneg
    {bucket : SyncBucket} (member : bucket ∈ (syncPlanFor registry t).buckets) :
    0 ≤ bucket.2.1 :=
  intervals_nonneg (List.mem_of_getElem? (getElem?_of_mem_buckets member).1)

/-- No bucket is listed twice. -/
theorem buckets_nodup (registry : ComponentRegistry) (t : ComponentTypeId) :
    ((syncPlanFor registry t).buckets.map Prod.fst).Nodup := by
  rw [buckets_indices]
  exact List.nodup_range

/-- A bucket takes fields of one delta tier, which is neither of the two that
are never in a delta. -/
theorem bucket_selects
    {schema : ComponentSchema} (registered : registry.schemaOf t = some schema)
    {bucket : SyncBucket} (member : bucket ∈ (syncPlanFor registry t).buckets)
    {fd : FieldDescriptor}
    (selected : fd ∈ maskedFields schema.fields bucket.2.2) :
    fd.isNetworked = true ∧ fd.syncPriority ≠ syncLocal ∧
      fd.syncPriority ≠ syncSpawnOnly := by
  have mask := List.mem_of_getElem? (getElem?_of_mem_buckets member).2
  rw [bucketMasks_eq registered] at mask
  obtain ⟨interval, inPlan, same⟩ := List.mem_map.mp mask
  rw [← same] at selected
  have takes := (mem_maskedFields selected).2
  rw [Bool.and_eq_true, decide_eq_true_iff] at takes
  have sent := takes.1
  unfold FieldDescriptor.isSent at sent
  rw [Bool.and_eq_true, decide_eq_true_iff] at sent
  refine ⟨sent.1, sent.2, fun spawnOnly => ?_⟩
  have nonneg := intervals_nonneg inPlan
  rw [← takes.2, spawnOnly] at nonneg
  exact absurd nonneg (by decide)

end FieldSyncPlan

/-- What a delta says about a component follows the plan. -/
theorem World.deltaComponent_followsPlan
    {ticks : List ℚ} {component : DeltaComponent}
    (said : w.deltaComponent registry elapsed e ticks t = some component) :
    component.FollowsPlan registry := by
  obtain ⟨_, _, schema, data, registered, _, _, rfl⟩ :=
    World.deltaComponent_eq_some.mp said
  intro record member
  obtain ⟨bucket, isDue, rfl⟩ := List.mem_map.mp member
  have inPlan := (List.mem_filter.mp isDue).1
  exact ⟨(FieldSyncPlan.getElem?_of_mem_buckets inPlan).2, schema, registered,
    fun fd selected => FieldSyncPlan.bucket_selects registered inPlan selected⟩

/-! ## Deadlines only move away -/

/-- A bucket that waits is not due before its time. -/
theorem Waits.le_elapsed
    {bucket : SyncBucket} {times : List ℚ} (waits : Waits bound bucket.1 times)
    (isDue : bucketDue times elapsed bucket = true) : bound ≤ elapsed := by
  obtain ⟨time, found, isLater⟩ := waits
  unfold bucketDue at isDue
  rw [found, Option.getD_some, decide_eq_true_iff, not_lt] at isDue
  exact isLater.trans isDue

/-- More buckets do not end the waiting. -/
theorem Waits.grow
    {index count : Nat} {times : List ℚ} (waits : Waits bound index times) :
    Waits bound index (growTicks times count) := by
  obtain ⟨time, found, isLater⟩ := waits
  refine ⟨time, ?_, isLater⟩
  unfold growTicks
  rw [List.getElem?_append_left (List.getElem?_eq_some_iff.mp found).1, found]

/-- The times after one bucket. -/
theorem sendBucket_ticks
    (schema : ComponentSchema) (data : List UInt8) (elapsed : ℚ)
    (sends : BucketSends) (bucket : SyncBucket) :
    (sendBucket schema data elapsed sends bucket).ticks =
      if elapsed < (sends.ticks[bucket.1]?).getD 0 then sends.ticks
      else sends.ticks.set bucket.1 (elapsed + bucket.2.1) := by
  obtain ⟨index, interval, mask⟩ := bucket
  unfold sendBucket
  dsimp only
  split <;> rfl

/-- A bucket that is sent only moves its own deadline, and not back. -/
theorem sendBucket_waits
    {schema : ComponentSchema} {data : List UInt8} {sends : BucketSends}
    {bucket : SyncBucket} {index : Nat} (nonneg : 0 ≤ bucket.2.1)
    (waits : Waits bound index sends.ticks) :
    Waits bound index (sendBucket schema data elapsed sends bucket).ticks := by
  rw [sendBucket_ticks]
  split
  · exact waits
  · rename_i isDue
    obtain ⟨time, found, isLater⟩ := waits
    by_cases same : bucket.1 = index
    · subst same
      rw [found, Option.getD_some, not_lt] at isDue
      refine ⟨elapsed + bucket.2.1, ?_, ?_⟩
      · exact List.getElem?_set_self (List.getElem?_eq_some_iff.mp found).1
      · exact (isLater.trans isDue).trans (le_add_of_nonneg_right nonneg)
    · exact ⟨time, (List.getElem?_set_ne same).trans found, isLater⟩

/-- Sending buckets does not end the waiting of another. -/
theorem sendBuckets_waits
    {schema : ComponentSchema} {data : List UInt8} {buckets : List SyncBucket}
    (nonneg : ∀ bucket ∈ buckets, 0 ≤ bucket.2.1) {sends : BucketSends}
    {index : Nat} (waits : Waits bound index sends.ticks) :
    Waits bound index
      (buckets.foldl (sendBucket schema data elapsed) sends).ticks := by
  induction buckets generalizing sends with
  | nil => exact waits
  | cons bucket buckets inductionHypothesis =>
      exact inductionHypothesis
        (fun later member => nonneg later (List.mem_cons_of_mem _ member))
        (sendBucket_waits (nonneg bucket List.mem_cons_self) waits)

/-- A bucket that is due is sent, and its deadline is an interval away. -/
theorem sendBuckets_armed
    {schema : ComponentSchema} {data : List UInt8} {buckets : List SyncBucket}
    (nonneg : ∀ bucket ∈ buckets, 0 ≤ bucket.2.1)
    (once : (buckets.map Prod.fst).Nodup) {sends : BucketSends}
    {bucket : SyncBucket} (member : bucket ∈ buckets)
    (isDue : bucketDue sends.ticks elapsed bucket = true)
    (inside : bucket.1 < sends.ticks.length) :
    Waits (elapsed + bucket.2.1) bucket.1
      (buckets.foldl (sendBucket schema data elapsed) sends).ticks := by
  induction buckets generalizing sends with
  | nil => exact absurd member List.not_mem_nil
  | cons first buckets inductionHypothesis =>
      rw [List.map_cons, List.nodup_cons] at once
      have laterNonneg : ∀ later ∈ buckets, 0 ≤ later.2.1 :=
        fun later member => nonneg later (List.mem_cons_of_mem _ member)
      rw [List.foldl_cons]
      obtain rfl | member := List.mem_cons.mp member
      · apply sendBuckets_waits laterNonneg
        rw [sendBucket_ticks, if_neg (of_decide_eq_true isDue)]
        exact ⟨_, List.getElem?_set_self inside, le_rfl⟩
      · have other : first.1 ≠ bucket.1 := fun same =>
          once.1 (same ▸ List.mem_map_of_mem member)
        have kept : (sendBucket schema data elapsed sends first).ticks[bucket.1]? =
            sends.ticks[bucket.1]? := by
          rw [sendBucket_ticks]
          split
          · rfl
          · exact List.getElem?_set_ne other
        refine inductionHypothesis laterNonneg once.2 member ?_ ?_
        · unfold bucketDue at isDue ⊢
          rw [kept]
          exact isDue
        · rw [← not_le, ← List.getElem?_eq_none_iff, kept,
            List.getElem?_eq_none_iff, not_le]
          exact inside

/-- The times after one dirty component. -/
theorem sendComponent_ticks (sends : ComponentSends) (t : ComponentTypeId) :
    (sendComponent registry w elapsed e sends t).ticks = sends.ticks ∨
    ∃ schema data,
      (sendComponent registry w elapsed e sends t).ticks =
        sends.ticks.insert t ((syncPlanFor registry t).buckets.foldl
          (sendBucket schema data elapsed)
          { ticks := growTicks ((sends.ticks.lookup t).getD [])
              (syncPlanFor registry t).bucketIntervals.length }).ticks := by
  unfold sendComponent
  split
  · exact Or.inl rfl
  · dsimp only
    split
    · exact Or.inl rfl
    · split
      · rename_i schema data _ _
        refine Or.inr ⟨schema, data, ?_⟩
        split <;> split <;> rfl
      · exact Or.inl rfl

/-- Sending a component does not end the waiting. -/
theorem sendComponent_waits
    {sends : ComponentSends} {u : ComponentTypeId} {index : Nat}
    (waits : Waits bound index ((sends.ticks.lookup u).getD []))
    (t : ComponentTypeId) :
    Waits bound index
      (((sendComponent registry w elapsed e sends t).ticks.lookup u).getD
        []) := by
  obtain same | ⟨schema, data, timed⟩ :=
    @sendComponent_ticks registry w e elapsed sends t
  · rw [same]
    exact waits
  · rw [timed]
    by_cases isSelf : u = t
    · rw [isSelf] at waits ⊢
      rw [AList.lookup_insert, Option.getD_some]
      exact sendBuckets_waits
        (fun bucket member => FieldSyncPlan.bucket_nonneg member) waits.grow
    · rw [AList.lookup_insert_ne isSelf]
      exact waits

/-- Of a component that a delta speaks of, all due buckets are sent. -/
theorem sendComponent_armed
    {sends : ComponentSends} {component : DeltaComponent}
    (said : w.deltaComponent registry elapsed e
      ((sends.ticks.lookup t).getD []) t = some component)
    {bucket : SyncBucket}
    (isDue : bucket ∈ (syncPlanFor registry t).due
      ((sends.ticks.lookup t).getD []) elapsed) :
    Waits (elapsed + bucket.2.1) bucket.1
      (((sendComponent registry w elapsed e sends t).ticks.lookup t).getD
        []) := by
  obtain ⟨networked, present, schema, data, registered, found, _, _⟩ :=
    World.deltaComponent_eq_some.mp said
  obtain ⟨inPlan, due⟩ := List.mem_filter.mp isDue
  have some : (syncPlanFor registry t).buckets ≠ [] := List.ne_nil_of_mem inPlan
  have timed : (sendComponent registry w elapsed e sends t).ticks =
      sends.ticks.insert t ((syncPlanFor registry t).buckets.foldl
        (sendBucket schema data elapsed)
        { ticks := growTicks ((sends.ticks.lookup t).getD [])
            (syncPlanFor registry t).bucketIntervals.length }).ticks := by
    unfold sendComponent
    rw [networked, present, registered, found]
    dsimp only
    rw [FieldSyncPlan.anyDelta_eq, if_neg (by decide),
      if_neg (by simpa using some)]
    split <;> split <;> rfl
  rw [timed, AList.lookup_insert, Option.getD_some]
  refine sendBuckets_armed (fun _ member => FieldSyncPlan.bucket_nonneg member)
    (FieldSyncPlan.buckets_nodup registry t) inPlan ?_ ?_
  · unfold bucketDue at due ⊢
    rw [getElem?_growTicks]
    exact due
  · have index := (List.getElem?_eq_some_iff.mp
      (FieldSyncPlan.getElem?_of_mem_buckets inPlan).1).1
    unfold growTicks
    rw [List.length_append, List.length_replicate]
    omega

/-- Sending components does not end the waiting. -/
theorem sendComponents_waits
    {types : List ComponentTypeId} {sends : ComponentSends}
    {u : ComponentTypeId} {index : Nat}
    (waits : Waits bound index ((sends.ticks.lookup u).getD [])) :
    Waits bound index (((types.foldl (sendComponent registry w elapsed e)
      sends).ticks.lookup u).getD []) := by
  induction types generalizing sends with
  | nil => exact waits
  | cons t types inductionHypothesis =>
      exact inductionHypothesis (sendComponent_waits waits t)

/-- A bucket that was sent waits for its interval. -/
theorem sendComponents_armed
    {types : List ComponentTypeId} (member : t ∈ types)
    (sends : ComponentSends) {component : DeltaComponent}
    (said : w.deltaComponent registry elapsed e
      ((sends.ticks.lookup t).getD []) t = some component)
    {bucket : SyncBucket}
    (isDue : bucket ∈ (syncPlanFor registry t).due
      ((sends.ticks.lookup t).getD []) elapsed) :
    Waits (elapsed + bucket.2.1) bucket.1
      (((types.foldl (sendComponent registry w elapsed e)
        sends).ticks.lookup t).getD []) := by
  induction types generalizing sends with
  | nil => exact absurd member List.not_mem_nil
  | cons first types inductionHypothesis =>
      rw [List.foldl_cons]
      by_cases isFirst : t = first
      · subst isFirst
        exact sendComponents_waits (sendComponent_armed said isDue)
      · have kept := (@World.sendComponent_spec registry w e elapsed sends
          first).1 t isFirst
        refine inductionHypothesis ((List.mem_cons.mp member).resolve_left
          isFirst) _ ?_ ?_
        · rw [kept]
          exact said
        · rw [kept]
          exact isDue

/-- The times after one dirty entity. -/
theorem sendEntity_nextSendTick
    (sends : DeltaSends) (entry : Σ _ : Entity, List ComponentTypeId) :
    let sent := entry.2.foldl (sendComponent registry w elapsed entry.1)
      { ticks := (sends.nextSendTick.lookup entry.1).getD ∅ }
    (sendEntity registry w elapsed sends entry).nextSendTick =
      if w.isAlive entry.1 = true ∧ sent.ticks.keys.isEmpty = false then
        sends.nextSendTick.insert entry.1 sent.ticks
      else sends.nextSendTick := by
  unfold sendEntity
  dsimp only
  cases w.isAlive entry.1 with
  | false => rfl
  | true =>
      rw [Bool.not_true, if_neg Bool.false_ne_true]
      generalize entry.2.foldl _ _ = sent
      by_cases counted : sent.ncomp > 0
      · rw [if_pos counted]
        cases sent.ticks.keys.isEmpty <;> rfl
      · rw [if_neg counted]
        cases sent.ticks.keys.isEmpty <;> rfl

/-- Sending an entity does not end the waiting. -/
theorem sendEntity_waits
    {sends : DeltaSends} {index : Nat}
    (waits : Waits bound index (timesOf sends.nextSendTick e t))
    (entry : Σ _ : Entity, List ComponentTypeId) :
    Waits bound index
      (timesOf (sendEntity registry w elapsed sends entry).nextSendTick e t) := by
  rw [sendEntity_nextSendTick]
  split
  · unfold timesOf at waits ⊢
    by_cases isSelf : e = entry.1
    · subst isSelf
      rw [AList.lookup_insert, Option.getD_some]
      exact sendComponents_waits waits
    · rw [AList.lookup_insert_ne isSelf]
      exact waits
  · exact waits

theorem sendEntities_waits
    {entries : List (Σ _ : Entity, List ComponentTypeId)} {sends : DeltaSends}
    {index : Nat} (waits : Waits bound index (timesOf sends.nextSendTick e t)) :
    Waits bound index (timesOf (entries.foldl (sendEntity registry w elapsed)
      sends).nextSendTick e t) := by
  induction entries generalizing sends with
  | nil => exact waits
  | cons entry entries inductionHypothesis =>
      exact inductionHypothesis (sendEntity_waits waits entry)

/-- Of an entity that a delta speaks of, all due buckets are sent. -/
theorem sendEntity_armed
    {sends : DeltaSends} {entry : Σ _ : Entity, List ComponentTypeId}
    (alive : w.isAlive entry.1 = true) (member : t ∈ entry.2)
    {component : DeltaComponent}
    (said : w.deltaComponent registry elapsed entry.1
      (timesOf sends.nextSendTick entry.1 t) t = some component)
    {bucket : SyncBucket}
    (isDue : bucket ∈ (syncPlanFor registry t).due
      (timesOf sends.nextSendTick entry.1 t) elapsed) :
    Waits (elapsed + bucket.2.1) bucket.1
      (timesOf (sendEntity registry w elapsed sends entry).nextSendTick entry.1
        t) := by
  have armed := sendComponents_armed member
    { ticks := (sends.nextSendTick.lookup entry.1).getD ∅ } said isDue
  rw [sendEntity_nextSendTick]
  generalize entry.2.foldl _ _ = sent at armed ⊢
  have someTimes : sent.ticks.keys.isEmpty = false := by
    rw [← Bool.not_eq_true]
    intro none
    have absent : sent.ticks.lookup t = Option.none :=
      AList.lookup_eq_none.mpr fun present => by
        rw [AList.mem_keys, List.isEmpty_iff.mp none] at present
        exact List.not_mem_nil present
    rw [absent] at armed
    obtain ⟨time, found, _⟩ := armed
    exact absurd found (by simp)
  rw [if_pos ⟨alive, someTimes⟩]
  unfold timesOf
  rw [AList.lookup_insert]
  exact armed

/-- So it does when all entities are sent. -/
theorem sendEntities_armed
    {entries : List (Σ _ : Entity, List ComponentTypeId)}
    (distinct : (entries.map Sigma.fst).Nodup)
    {entry : Σ _ : Entity, List ComponentTypeId} (inEntries : entry ∈ entries)
    (sends : DeltaSends) (alive : w.isAlive entry.1 = true)
    (member : t ∈ entry.2) {component : DeltaComponent}
    (said : w.deltaComponent registry elapsed entry.1
      (timesOf sends.nextSendTick entry.1 t) t = some component)
    {bucket : SyncBucket}
    (isDue : bucket ∈ (syncPlanFor registry t).due
      (timesOf sends.nextSendTick entry.1 t) elapsed) :
    Waits (elapsed + bucket.2.1) bucket.1
      (timesOf (entries.foldl (sendEntity registry w elapsed)
        sends).nextSendTick entry.1 t) := by
  induction entries generalizing sends with
  | nil => exact absurd inEntries List.not_mem_nil
  | cons first entries inductionHypothesis =>
      rw [List.map_cons, List.nodup_cons] at distinct
      rw [List.foldl_cons]
      obtain rfl | inLater := List.mem_cons.mp inEntries
      · exact sendEntities_waits (sendEntity_armed alive member said isDue)
      · have other : entry.1 ≠ first.1 := fun same =>
          distinct.1 (same ▸ List.mem_map_of_mem inLater)
        have kept : timesOf
            (sendEntity registry w elapsed sends first).nextSendTick entry.1 t =
            timesOf sends.nextSendTick entry.1 t := by
          rw [sendEntity_nextSendTick]
          split
          · unfold timesOf
            rw [AList.lookup_insert_ne other]
          · rfl
        refine inductionHypothesis distinct.2 inLater _ ?_ ?_
        · rw [kept]
          exact said
        · rw [kept]
          exact isDue

namespace Replication

/-- A delta does not end the waiting. -/
theorem buildDelta_waits
    {index : Nat} (waits : Waits bound index (r.ticksOf e t)) (w : World) :
    Waits bound index ((r.buildDelta registry w).1.ticksOf e t) :=
  sendEntities_waits waits

/-- Where a record of a delta comes from. -/
theorem exists_due_of_mem_records
    {bucket : Nat}
    (member : (e, t, bucket) ∈ (w.deltaEntities registry r).flatMap (·.records)) :
    ∃ entry ∈ r.dirty.entries, entry.1 = e ∧ w.isAlive e = true ∧ t ∈ entry.2 ∧
      ∃ component, w.deltaComponent registry r.elapsedTime e (r.ticksOf e t) t =
        some component ∧
      ∃ planned ∈ (syncPlanFor registry t).due (r.ticksOf e t) r.elapsedTime,
        planned.1 = bucket := by
  obtain ⟨entity, inDelta, inEntity⟩ := List.mem_flatMap.mp member
  obtain ⟨entry, isDirty, said⟩ := List.mem_filterMap.mp inDelta
  obtain ⟨alive, _, rfl⟩ := World.deltaEntity_eq_some.mp said
  obtain ⟨component, inComponents, inComponent⟩ := List.mem_flatMap.mp inEntity
  obtain ⟨u, inSet, saidOf⟩ := List.mem_filterMap.mp inComponents
  obtain ⟨_, _, schema, data, _, _, _, rfl⟩ :=
    World.deltaComponent_eq_some.mp saidOf
  obtain ⟨record, inRecords, same⟩ := List.mem_map.mp inComponent
  obtain ⟨planned, isDue, rfl⟩ := List.mem_map.mp inRecords
  obtain ⟨rfl, rfl, rfl⟩ : entry.1 = e ∧ u = t ∧ planned.1 = bucket := by
    simpa [bucketRecordOf] using same
  exact ⟨entry, isDirty, rfl, alive, inSet, _, saidOf, planned, isDue, rfl⟩

/-- The deadline of a bucket that is sent is its interval away. -/
theorem buildDelta_armed
    {bucket : Nat}
    (member : (e, t, bucket) ∈ (w.deltaEntities registry r).flatMap (·.records)) :
    ∃ interval, (syncPlanFor registry t).bucketIntervals[bucket]? =
        some interval ∧
      Waits (r.elapsedTime + interval) bucket
        ((r.buildDelta registry w).1.ticksOf e t) := by
  obtain ⟨entry, isDirty, rfl, alive, inSet, component, said, planned, isDue,
    rfl⟩ := exists_due_of_mem_records member
  have inPlan := (List.mem_filter.mp isDue).1
  have armed := sendEntities_armed r.dirty.nodupKeys isDirty
    { dirty := r.dirty
      nextSendTick := r.nextSendTick
      buf := (({} : BinaryBuffer).writeU16 syncVersion).writeU32 0 }
    alive inSet said isDue
  exact ⟨planned.2.1, (FieldSyncPlan.getElem?_of_mem_buckets inPlan).1, armed⟩

/-- A bucket that is sent has waited. -/
theorem le_elapsed_of_mem_records
    {bucket : Nat} (waits : Waits bound bucket (r.ticksOf e t))
    (member : (e, t, bucket) ∈ (w.deltaEntities registry r).flatMap (·.records)) :
    bound ≤ r.elapsedTime := by
  obtain ⟨_, _, _, _, _, _, _, planned, isDue, rfl⟩ :=
    exists_due_of_mem_records member
  exact waits.le_elapsed (List.mem_filter.mp isDue).2

/-! ## One record at a time -/

/-- The entities that are written are among those of the delta. -/
theorem writtenEntities_sublist (w : World) (r : Replication) :
    (w.writtenEntities registry r).Sublist (w.deltaEntities registry r) := by
  have filtered : w.writtenEntities registry r =
      (w.deltaEntities registry r).filter (·.isCounted) :=
    List.filter_filterMap.symm
  rw [filtered]
  exact List.filter_sublist

/-- No record is said twice of a component. -/
theorem deltaComponent_records_nodup
    {component : DeltaComponent} {ticks : List ℚ}
    (said : w.deltaComponent registry elapsed e ticks t = some component) :
    (component.records e).Nodup ∧
      ∀ record ∈ component.records e, record.2.1 = t := by
  obtain ⟨_, _, schema, data, _, _, _, rfl⟩ :=
    World.deltaComponent_eq_some.mp said
  have indices : (((syncPlanFor registry t).due ticks elapsed).map
      Prod.fst).Nodup :=
    (FieldSyncPlan.buckets_nodup registry t).sublist
      (List.filter_sublist.map _)
  constructor
  · unfold DeltaComponent.records
    dsimp only
    rw [List.map_map]
    refine List.Nodup.of_map (fun record : SyncRecord => record.2.2) ?_
    rw [List.map_map]
    exact indices
  · intro record member
    obtain ⟨_, _, rfl⟩ := List.mem_map.mp member
    rfl

/-- No delta has two records of one bucket. -/
theorem deltaEntities_records_nodup (w : World) (sets : r.DirtySets) :
    ((w.deltaEntities registry r).flatMap (·.records)).Nodup := by
  have inEntity : ∀ {entity : DeltaEntity}, ∀ record ∈ entity.records,
      record.1 = ⟨entity.id⟩ := by
    intro entity record member
    obtain ⟨component, _, inComponent⟩ := List.mem_flatMap.mp member
    cases component with
    | whole block => exact absurd inComponent List.not_mem_nil
    | buckets t records =>
        obtain ⟨_, _, rfl⟩ := List.mem_map.mp inComponent
        rfl
  rw [List.nodup_flatMap]
  constructor
  · intro entity member
    obtain ⟨entry, isDirty, said⟩ := List.mem_filterMap.mp member
    obtain ⟨_, _, rfl⟩ := World.deltaEntity_eq_some.mp said
    refine List.nodup_flatMap.mpr ⟨fun component inComponents => ?_, ?_⟩
    · obtain ⟨t, _, saidOf⟩ := List.mem_filterMap.mp inComponents
      exact (deltaComponent_records_nodup saidOf).1
    · have once := sets entry.1
      rw [dirtyOf_of_entry isDirty] at once
      refine List.pairwise_filterMap.mpr (once.imp ?_)
      intro t u other first saidFirst second saidSecond record inFirst inSecond
      apply other
      rw [← (deltaComponent_records_nodup saidFirst).2 record inFirst,
        (deltaComponent_records_nodup saidSecond).2 record inSecond]
  · have distinct : r.dirty.entries.Pairwise fun entry later =>
        entry.1 ≠ later.1 := List.pairwise_map.mp r.dirty.nodupKeys
    refine List.pairwise_filterMap.mpr (distinct.imp ?_)
    intro entry later other first saidFirst second saidSecond record inFirst
      inSecond
    obtain ⟨_, _, rfl⟩ := World.deltaEntity_eq_some.mp saidFirst
    obtain ⟨_, _, rfl⟩ := World.deltaEntity_eq_some.mp saidSecond
    apply other
    exact (inEntity record inFirst).symm.trans (inEntity record inSecond)

/-! ## What takes deadlines away -/

/-- Only an event that forgets the entity touches its deadlines, and only a
cleared world sets the clock back. -/
theorem onWorldEvent_keeps
    {effect : Effect} (stays : e ∈ (r.onWorldEvent registry effect).tracked) :
    (r.onWorldEvent registry effect).nextSendTick.lookup e =
        r.nextSendTick.lookup e ∧
      (r.onWorldEvent registry effect).elapsedTime = r.elapsedTime := by
  cases effect with
  | dispatched type x t name seen =>
      cases type with
      | added =>
          dsimp only [onWorldEvent, onEntityComponentAdded]
          split
          · exact ⟨rfl, rfl⟩
          · split <;> exact ⟨rfl, rfl⟩
      | changed =>
          dsimp only [onWorldEvent, onEntityComponentChanged]
          split
          · exact ⟨rfl, rfl⟩
          · split <;> exact ⟨rfl, rfl⟩
      | removed =>
          have clears : (r.clearDirty x t).nextSendTick = r.nextSendTick ∧
              (r.clearDirty x t).elapsedTime = r.elapsedTime := by
            unfold clearDirty
            split <;> exact ⟨rfl, rfl⟩
          revert stays
          dsimp only [onWorldEvent, onEntityComponentRemoved]
          split
          · exact fun _ => ⟨rfl, rfl⟩
          · split
            · split
              · exact fun _ => ⟨congrArg _ clears.1, clears.2⟩
              · intro stays
                have other : e ≠ x :=
                  of_decide_eq_true (List.mem_filter.mp stays).2
                refine ⟨?_, clears.2⟩
                unfold untrack
                rw [AList.lookup_erase_ne other, clears.1]
            · exact fun _ => ⟨congrArg _ clears.1, clears.2⟩
      | custom =>
          revert stays
          dsimp only [onWorldEvent]
          split
          · exact fun stays => absurd stays List.not_mem_nil
          · exact fun _ => ⟨rfl, rfl⟩
  | _ => exact ⟨rfl, rfl⟩

/-- As long as an entity is tracked its times stay. -/
theorem onWorldEvents_keep
    {effects : List Effect} (stays : ∀ events ∈ effects.inits,
      e ∈ (r.onWorldEvents registry events).tracked) :
    (r.onWorldEvents registry effects).nextSendTick.lookup e =
        r.nextSendTick.lookup e ∧
      (r.onWorldEvents registry effects).elapsedTime = r.elapsedTime := by
  induction effects generalizing r with
  | nil => exact ⟨rfl, rfl⟩
  | cons effect effects inductionHypothesis =>
      have first := onWorldEvent_keeps (stays [effect]
        ((List.mem_inits _ _).mpr (List.prefix_append [effect] effects)))
      have later := inductionHypothesis fun events member =>
        stays (effect :: events) ((List.mem_inits _ _).mpr
          ((List.prefix_cons_inj effect).mpr ((List.mem_inits _ _).mp member)))
      exact ⟨later.1.trans first.1, later.2.trans first.2⟩

/-- Nothing is sent for an empty buffer. -/
theorem sendNonempty_eq (kind : SyncPacketKind) (buf : BinaryBuffer) :
    sendNonempty kind buf =
      if buf.data.isEmpty then [] else [(kind, buf.data)] := by
  obtain ⟨data, pos⟩ := buf
  cases data <;> rfl

/-- A tick takes the deadlines away only of entities whose despawn it sends. -/
theorem tick_ticksOf
    {order : List Ptr} {delta : ℚ}
    (notDespawned : (.despawn, (despawnPacket e).data) ∉
      (r.tick registry w order delta).2) :
    (r.tick registry w order delta).1.ticksOf e t =
        ((r.beforeDelta delta).buildDelta registry w).1.ticksOf e t ∧
      (r.tick registry w order delta).1.elapsedTime =
        r.elapsedTime + delta := by
  have notPending : e ∉ r.pendingDespawn := by
    intro pending
    apply notDespawned
    rw [tick_packets]
    exact List.mem_append_right _ (List.mem_append_right _
      (List.mem_append_left _ (List.mem_map_of_mem pending)))
  have kept : ∀ (gone : List Entity)
      (ticks : AList fun _ : Entity => AList fun _ : ComponentTypeId => List ℚ),
      e ∉ gone → (gone.foldl (fun ticks x => ticks.erase x) ticks).lookup e =
        ticks.lookup e := by
    intro gone
    induction gone with
    | nil => exact fun _ _ => rfl
    | cons x gone inductionHypothesis =>
        intro ticks absent
        rw [List.mem_cons, not_or] at absent
        rw [List.foldl_cons, inductionHypothesis _ absent.2,
          AList.lookup_erase_ne absent.1]
  have pendingSame : ((r.beforeDelta delta).buildDelta registry w).1.pendingDespawn =
      r.pendingDespawn := rfl
  unfold tick
  dsimp only
  rw [sendDelta_eq, reconcile_eq]
  unfold ticksOf
  split
  · exact ⟨congrArg (fun times => ((times.getD ∅).lookup t).getD [])
      (kept _ _ notPending), rfl⟩
  · exact ⟨congrArg (fun times => ((times.getD ∅).lookup t).getD [])
      (kept _ _ notPending), rfl⟩

end Replication

namespace Server

variable {s : Server} {op : ServerOp}

/-- Dirty components are a set at the start. -/
theorem bindWorld_dirtySets (registry : ComponentRegistry) (w : World) :
    (bindWorld registry w).replication.DirtySets := by
  have seeded : (bindWorld registry w).replication.dirty = ∅ := by
    unfold bindWorld Replication.seedFromWorld
    refine List.foldlRecOn (motive := fun r : Replication => r.dirty = ∅) _ _ rfl
      fun r clean p _ => ?_
    split
    · refine List.foldlRecOn (motive := fun r : Replication => r.dirty = ∅) _ _
        clean fun r clean e _ => ?_
      split
      · exact clean
      · exact clean
    · exact clean
  intro e
  unfold Replication.dirtyOf
  rw [seeded]
  exact List.nodup_nil

/-- Every operation keeps them a set. -/
theorem apply_dirtySets
    (registry : ComponentRegistry) (sets : s.replication.DirtySets)
    (op : ServerOp) : (op.apply registry s).1.replication.DirtySets := by
  have events : (s.replication.onWorldEvents registry
      (op.onWorld registry s.world).effects).DirtySets :=
    Replication.onWorldEvents_dirtySets sets _
  cases op with
  | world op => exact events
  | poke e t offset bytes => exact sets
  | deserializeSnapshot data => exact events
  | tick order delta => exact Replication.tick_dirtySets sets s.world order delta
  | requestFullState order => exact sets
  | setReconciliationInterval seconds => exact sets
  | rehash order typeOrder =>
      exact fun e => (Replication.rehash_dirtyOf_perm s.replication order
        typeOrder e).nodup_iff.mpr (sets e)

/-- They are a set after every run. -/
theorem run_dirtySets
    (registry : ComponentRegistry) (sets : s.replication.DirtySets)
    (ops : List ServerOp) : (s.run registry ops).1.replication.DirtySets := by
  induction ops generalizing s with
  | nil => exact sets
  | cons op ops inductionHypothesis =>
      exact inductionHypothesis (apply_dirtySets registry sets op)

/-- The delta packet of a step is written from its records. -/
theorem apply_deltaPackets
    (sets : s.replication.DirtySets) (op : ServerOp) :
    (op.apply registry s).2.filter (fun packet => decide (packet.1 = .delta)) =
      if (s.sentEntities registry op).isEmpty then []
      else [(.delta, encodeDelta (s.sentEntities registry op))] := by
  have others : ∀ {packets : List Replication.SentPacket},
      (∀ packet ∈ packets, packet.1 ≠ .delta) →
      packets.filter (fun packet => decide (packet.1 = .delta)) = [] :=
    fun differ => List.filter_eq_nil_iff.mpr fun packet member =>
      by simpa using differ packet member
  cases op with
  | tick order delta =>
      obtain ⟨earlier, later, packets, noneEarlier, noneLater⟩ :=
        Replication.tick_split registry s.replication s.world order delta
      have bytes := (Replication.buildDelta_written registry s.world
        (r := s.replication.beforeDelta delta) sets).1
      change (s.replication.tick registry s.world order delta).2.filter _ = _
      rw [packets, List.filter_append, List.filter_append, others noneEarlier,
        others noneLater, List.append_nil, List.nil_append]
      rw [Replication.sendNonempty_eq, bytes, sentEntities]
      generalize s.world.writtenEntities registry _ = written
      cases written with
      | nil => rfl
      | cons entity entities =>
          by_cases none : (entity :: entities).length % 2 ^ 32 = 0
          · rw [if_pos none, if_pos none]
            rfl
          · rw [if_neg none, if_neg none]
            rfl
  | requestFullState order =>
      exact others fun packet member => by
        rw [Replication.kind_of_mem_sendNonempty member]
        exact SyncPacketKind.noConfusion
  | _ => rfl

/-! ## Runs -/

theorem beforeDelta_ticksOf (delta : ℚ) :
    (r.beforeDelta delta).ticksOf e t = r.ticksOf e t := rfl

/-- A step that keeps the entity tracked keeps its deadlines. -/
theorem apply_waits
    (keeps : s.KeepsTracked registry e op) {index : Nat}
    (waits : Waits bound index (s.replication.ticksOf e t)) :
    Waits bound index ((op.apply registry s).1.replication.ticksOf e t) := by
  have events := (Replication.onWorldEvents_keep keeps.1).1
  have kept : (s.replication.onWorldEvents registry
      (op.onWorld registry s.world).effects).ticksOf e t =
      s.replication.ticksOf e t :=
    congrArg (fun times => ((times.getD ∅).lookup t).getD []) events
  cases op with
  | world op => exact kept.symm ▸ waits
  | poke x u offset bytes => exact waits
  | deserializeSnapshot data => exact kept.symm ▸ waits
  | tick order delta =>
      have notDespawned := keeps.2
      rw [apply_tick] at notDespawned ⊢
      rw [(Replication.tick_ticksOf notDespawned).1]
      rw [← beforeDelta_ticksOf delta] at waits
      exact Replication.buildDelta_waits waits s.world
  | requestFullState order => exact waits
  | setReconciliationInterval seconds => exact waits
  | rehash order typeOrder => exact waits

/-- Time passes by the length of the step. -/
theorem apply_elapsedTime
    (keeps : s.KeepsTracked registry e op) :
    (op.apply registry s).1.replication.elapsedTime =
      s.replication.elapsedTime + op.seconds := by
  have events := (Replication.onWorldEvents_keep keeps.1).2
  cases op with
  | world op => exact events.trans (add_zero _).symm
  | poke x u offset bytes => exact (add_zero _).symm
  | deserializeSnapshot data => exact events.trans (add_zero _).symm
  | tick order delta =>
      have notDespawned := keeps.2
      rw [apply_tick] at notDespawned ⊢
      exact (Replication.tick_ticksOf (t := 0) notDespawned).2
  | requestFullState order => exact (add_zero _).symm
  | setReconciliationInterval seconds => exact (add_zero _).symm
  | rehash order typeOrder => exact (add_zero _).symm

/-- In a run in which the entity is tracked, a bucket waits on. -/
theorem run_waits
    {ops : List ServerOp}
    (keeps : s.Allows registry (KeepsTracked registry e) ops) {index : Nat}
    (waits : Waits bound index (s.replication.ticksOf e t)) :
    Waits bound index ((s.run registry ops).1.replication.ticksOf e t) ∧
      (s.run registry ops).1.replication.elapsedTime =
        s.replication.elapsedTime + (ops.map ServerOp.seconds).sum := by
  induction ops generalizing s with
  | nil => exact ⟨waits, (add_zero _).symm⟩
  | cons op ops inductionHypothesis =>
      obtain ⟨later, passed⟩ :=
        inductionHypothesis keeps.2 (apply_waits keeps.1 waits)
      refine ⟨later, passed.trans ?_⟩
      rw [apply_elapsedTime keeps.1, List.map_cons, List.sum_cons, add_assoc]

/-- What a tick sends is among the entities of its delta. -/
theorem sentEntities_sublist (s : Server) (order : List Ptr) (delta : ℚ) :
    (s.sentEntities registry (.tick order delta)).Sublist
      (s.world.deltaEntities registry (s.replication.beforeDelta delta)) := by
  unfold sentEntities
  dsimp only
  split
  · exact List.nil_sublist _
  · exact Replication.writtenEntities_sublist _ _

theorem mem_records_of_sent
    {record : SyncRecord} {order : List Ptr} {delta : ℚ}
    (member : record ∈ s.sentRecords registry (.tick order delta)) :
    record ∈ (s.world.deltaEntities registry
      (s.replication.beforeDelta delta)).flatMap (·.records) := by
  obtain ⟨entity, sent, inEntity⟩ := List.mem_flatMap.mp member
  exact List.mem_flatMap.mpr
    ⟨entity, (sentEntities_sublist s order delta).mem sent, inEntity⟩

/-- No record is sent twice in a step. -/
theorem sentRecords_nodup
    (sets : s.replication.DirtySets) (op : ServerOp) :
    (s.sentRecords registry op).Nodup := by
  cases op with
  | tick order delta =>
      exact (Replication.deltaEntities_records_nodup s.world
        (r := s.replication.beforeDelta delta) sets).sublist
          ((sentEntities_sublist s order delta).flatMap _)
  | _ => exact List.nodup_nil

/-- Every delta packet consists of records that carry their bucket of the plan
of their component, no two of them of one bucket; and a bucket of an entity that
stays tracked and is not despawned is sent again only after its interval. -/
theorem run_rateLimited
    (registry : ComponentRegistry) (w : World) (earlier : List ServerOp) :
    let s := ((bindWorld registry w).run registry earlier).1
    (∀ op,
      (op.apply registry s).2.filter
          (fun packet => decide (packet.1 = .delta)) =
        (if (s.sentEntities registry op).isEmpty then []
        else [(.delta, encodeDelta (s.sentEntities registry op))]) ∧
      (∀ entity ∈ s.sentEntities registry op,
        ∀ component ∈ entity.components, component.FollowsPlan registry) ∧
      (s.sentRecords registry op).Nodup) ∧
    ∀ order delta between order' delta' e t bucket,
      (e, t, bucket) ∈ s.sentRecords registry (.tick order delta) →
      s.Allows registry (KeepsTracked registry e)
        (.tick order delta :: between) →
      (e, t, bucket) ∈ (s.run registry
        (.tick order delta :: between)).1.sentRecords registry
          (.tick order' delta') →
      ∃ interval, (syncPlanFor registry t).bucketIntervals[bucket]? =
          some interval ∧
        interval ≤ (between.map ServerOp.seconds).sum + delta' := by
  intro s
  have sets : s.replication.DirtySets :=
    run_dirtySets registry (bindWorld_dirtySets registry w) earlier
  refine ⟨fun op => ⟨apply_deltaPackets sets op, fun entity sent component
    inEntity => ?_, sentRecords_nodup sets op⟩, ?_⟩
  · cases op with
    | tick order delta =>
        obtain ⟨entry, _, said⟩ :=
          List.mem_filterMap.mp ((sentEntities_sublist s order delta).mem sent)
        obtain ⟨_, _, rfl⟩ := World.deltaEntity_eq_some.mp said
        obtain ⟨t, _, saidOf⟩ := List.mem_filterMap.mp inEntity
        exact World.deltaComponent_followsPlan saidOf
    | _ => exact absurd sent List.not_mem_nil
  · intro order delta between order' delta' e t bucket first keeps again
    obtain ⟨interval, planned, armed⟩ :=
      Replication.buildDelta_armed (mem_records_of_sent first)
    have notDespawned := keeps.1.2
    rw [apply_tick] at notDespawned
    obtain ⟨timed, elapsed⟩ := Replication.tick_ticksOf (t := t) notDespawned
    rw [← timed] at armed
    obtain ⟨waits, passed⟩ := run_waits keeps.2 armed
    have due := Replication.le_elapsed_of_mem_records
      (r := (s.run registry
        (.tick order delta :: between)).1.replication.beforeDelta delta')
      waits (mem_records_of_sent again)
    -- both ticks on the clock of the first one
    have clock : (s.replication.beforeDelta delta).elapsedTime + interval ≤
        (s.replication.beforeDelta delta).elapsedTime +
          ((between.map ServerOp.seconds).sum + delta') :=
      calc (s.replication.beforeDelta delta).elapsedTime + interval
          ≤ ((((ServerOp.tick order delta).apply registry s).1.run registry
              between).1.replication.elapsedTime) + delta' := due
        _ = (s.replication.elapsedTime + delta) +
              (between.map ServerOp.seconds).sum + delta' := by
            rw [passed, apply_tick, elapsed]
        _ = (s.replication.beforeDelta delta).elapsedTime +
              ((between.map ServerOp.seconds).sum + delta') := add_assoc _ _ _
    exact ⟨interval, planned, le_of_add_le_add_left clock⟩

/-- A soldier whose slow bucket goes out twice. -/
theorem run_rateLimited_soldier :
    let registry := ComponentRegistry.soldierRegistry
    ∃ interval, (syncPlanFor registry 1).bucketIntervals[1]? = some interval ∧
      interval ≤ 2 / 5 + 1 / 10 := by
  intro registry
  have limited := (run_rateLimited registry (World.empty registry)
    [.world .createEntity, .world (.addRaw ⟨1⟩ 1 (some [7, 8])),
      .tick [1, 0] 1, .world (.markChanged ⟨1⟩ 1 "aim")]).2
    [1, 0] 0 [.tick [1, 0] (2 / 5), .world (.markChanged ⟨1⟩ 1 "aim")] [1, 0]
    (1 / 10) ⟨1⟩ 1 1 (by decide +kernel) (by decide +kernel) (by decide +kernel)
  obtain ⟨interval, planned, passed⟩ := limited
  exact ⟨interval, planned, passed.trans (by decide +kernel)⟩

end Server
end VortarisECS
