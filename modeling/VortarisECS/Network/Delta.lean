import VortarisECS.Core.FiniteMap
import VortarisECS.Network.DeltaEncoding
import VortarisECS.Network.Replication

/-!
# What a delta says

A delta lists the dirty entities that have a component with a bucket that is
due, and for each such component the fields of its due buckets.  As long as the
counts fit into their bytes, its packet is read back as that list.
-/

namespace VortarisECS

variable {registry : ComponentRegistry}

/-! ## The buckets of a plan -/

/-- The intervals of the priorities. -/
theorem priorityInterval_cases (priority : UInt8) :
    priorityInterval priority ∈ [0, 1 / 20, 1 / 10, 1 / 2, -1] := by
  unfold priorityInterval
  split_ifs <;> simp

/-- The intervals of fields in deltas. -/
theorem deltaInterval_mem
    {fd : FieldDescriptor} (inDeltas : fd.deltaInterval ≥ 0) :
    fd.deltaInterval ∈ [0, 1 / 20, 1 / 10, (1 / 2 : ℚ)] := by
  have cases := priorityInterval_cases fd.syncPriority
  unfold FieldDescriptor.deltaInterval at inDeltas ⊢
  split_ifs at inDeltas ⊢ with sent
  · simp only [List.mem_cons, List.not_mem_nil, or_false] at cases ⊢
    rcases cases with same | same | same | same | same
    · exact Or.inl same
    · exact Or.inr (Or.inl same)
    · exact Or.inr (Or.inr (Or.inl same))
    · exact Or.inr (Or.inr (Or.inr same))
    · rw [same] at inDeltas
      exact absurd inDeltas (by norm_num)
  · exact absurd inDeltas (by norm_num)

/-- The collected intervals are different tiers. -/
theorem collectIntervals_spec (fields : List FieldDescriptor) :
    (collectIntervals fields).Nodup ∧
      ∀ interval ∈ collectIntervals fields,
        interval ∈ [0, 1 / 20, 1 / 10, (1 / 2 : ℚ)] := by
  have general : ∀ (fields : List FieldDescriptor) (intervals : List ℚ),
      intervals.Nodup →
      (∀ interval ∈ intervals,
        interval ∈ [0, 1 / 20, 1 / 10, (1 / 2 : ℚ)]) →
      let collected := fields.foldl
        (fun intervals fd =>
          if fd.deltaInterval ≥ 0 ∧ fd.deltaInterval ∉ intervals then
            intervals ++ [fd.deltaInterval]
          else intervals)
        intervals
      collected.Nodup ∧ ∀ interval ∈ collected,
        interval ∈ [0, 1 / 20, 1 / 10, (1 / 2 : ℚ)] := by
    intro fields
    induction fields with
    | nil => exact fun _ nodup tiers => ⟨nodup, tiers⟩
    | cons fd fields inductionHypothesis =>
        intro intervals nodup tiers
        rw [List.foldl_cons]
        split_ifs with fresh
        · apply inductionHypothesis
          · rw [List.nodup_append]
            refine ⟨nodup, List.nodup_singleton _, ?_⟩
            intro old member new isNew same
            rw [List.mem_singleton] at isNew
            rw [same, isNew] at member
            exact fresh.2 member
          · intro interval member
            obtain member | member := List.mem_append.mp member
            · exact tiers interval member
            · rw [List.mem_singleton.mp member]
              exact deltaInterval_mem fresh.1
        · exact inductionHypothesis intervals nodup tiers
  exact general fields [] List.nodup_nil (fun _ member =>
    absurd member List.not_mem_nil)

namespace FieldSyncPlan

variable {t : ComponentTypeId}

/-- Buckets are numbered from zero on. -/
theorem buckets_indices (plan : FieldSyncPlan) :
    plan.buckets.map Prod.fst =
      List.range (min plan.bucketIntervals.length
        plan.bucketMasks.length) := by
  unfold buckets
  rw [List.map_map, List.range_eq_range', ← List.length_zip,
    ← List.zipIdx_map_snd]
  rfl

/-- A plan has at most four buckets. -/
theorem bucketIntervals_length_le (registry : ComponentRegistry)
    (t : ComponentTypeId) :
    (syncPlanFor registry t).bucketIntervals.length ≤ 4 := by
  unfold syncPlanFor
  cases registry.schemaOf t with
  | none => exact Nat.zero_le 4
  | some schema =>
      obtain ⟨nodup, tiers⟩ := collectIntervals_spec schema.fields
      dsimp only
      rw [List.length_insertionSort]
      exact (List.subperm_of_subset nodup tiers).length_le

/-- Every interval has a bucket. -/
theorem buckets_length (registry : ComponentRegistry) (t : ComponentTypeId) :
    (syncPlanFor registry t).buckets.length =
      (syncPlanFor registry t).bucketIntervals.length := by
  unfold buckets
  rw [List.length_map, List.length_zipIdx, List.length_zip]
  unfold syncPlanFor
  cases registry.schemaOf t with
  | none => rfl
  | some schema =>
      dsimp only
      rw [List.length_map, Nat.min_self]

/-- A component is in deltas if it has buckets. -/
theorem anyDelta_eq (registry : ComponentRegistry) (t : ComponentTypeId) :
    (syncPlanFor registry t).anyDelta =
      !(syncPlanFor registry t).buckets.isEmpty := by
  have sameLength := buckets_length registry t
  have sameEmpty : (syncPlanFor registry t).buckets.isEmpty =
      (syncPlanFor registry t).bucketIntervals.isEmpty := by
    rw [Bool.eq_iff_iff, List.isEmpty_iff_length_eq_zero,
      List.isEmpty_iff_length_eq_zero, sameLength]
  rw [sameEmpty]
  unfold syncPlanFor
  cases registry.schemaOf t <;> rfl

/-- The masks of a plan have one bit for each field. -/
theorem buckets_mask_length
    {schema : ComponentSchema} (registered : registry.schemaOf t = some schema)
    {bucket : SyncBucket} (member : bucket ∈ (syncPlanFor registry t).buckets) :
    bucket.2.2.length = schema.fields.length := by
  obtain ⟨entry, inPlan, rfl⟩ := List.mem_map.mp member
  have inZip := List.fst_mem_of_mem_zipIdx inPlan
  have masked := (List.of_mem_zip inZip).2
  unfold syncPlanFor at masked
  rw [registered] at masked
  obtain ⟨interval, _, maskEq⟩ := List.mem_map.mp masked
  rw [← maskEq]
  exact List.length_map _

end FieldSyncPlan

/-! ## What is due -/

/-- The bucket is due, given the times of its component. -/
def bucketDue (ticks : List ℚ) (elapsed : ℚ) (bucket : SyncBucket) : Bool :=
  decide (¬elapsed < (ticks[bucket.1]?).getD 0)

/-- The buckets of a plan that are due. -/
def FieldSyncPlan.due (plan : FieldSyncPlan) (ticks : List ℚ) (elapsed : ℚ) :
    List SyncBucket :=
  plan.buckets.filter (bucketDue ticks elapsed)

/-- A bucket of a component as a record. -/
def bucketRecordOf (schema : ComponentSchema) (data : List UInt8)
    (bucket : SyncBucket) : BucketRecord where
  bucket := bucket.1
  mask := bucket.2.2
  payload := encodeFields (maskedFields schema.fields bucket.2.2) data

/-- The times of a component's buckets. -/
def Replication.ticksOf (r : Replication) (e : Entity) (t : ComponentTypeId) :
    List ℚ :=
  (((r.nextSendTick.lookup e).getD ∅).lookup t).getD []

/-- The byte that counts the components of the entity is not zero. -/
def DeltaEntity.isCounted (entity : DeltaEntity) : Bool :=
  decide (entity.components.length % 2 ^ 8 ≠ 0)

/-- The bytes of a delta, whose counts may lose what their bytes cannot hold. -/
def encodeDelta (entities : List DeltaEntity) : List UInt8 :=
  littleEndian 2 syncVersion ++
    (littleEndian 4 entities.length ++ entities.flatMap encodeDeltaEntity)

namespace World

/-- What a delta says about a dirty component, if anything. -/
def deltaComponent (registry : ComponentRegistry) (w : World) (elapsed : ℚ)
    (e : Entity) (ticks : List ℚ) (t : ComponentTypeId) :
    Option DeltaComponent :=
  if !isNetworked registry t || !w.has e t then none
  else
    match registry.schemaOf t, w.getRaw e t with
    | some schema, some data =>
        let due := (syncPlanFor registry t).due ticks elapsed
        if due.isEmpty then none
        else some (.buckets t (due.map (bucketRecordOf schema data)))
    | _, _ => none

/-- What a delta says about a dirty entity. -/
def deltaComponents (registry : ComponentRegistry) (w : World) (r : Replication)
    (e : Entity) (types : List ComponentTypeId) : List DeltaComponent :=
  types.filterMap fun t =>
    w.deltaComponent registry r.elapsedTime e (r.ticksOf e t) t

/-- What a delta says about one entry of the dirty sets, if anything. -/
def deltaEntity (registry : ComponentRegistry) (w : World) (r : Replication)
    (entry : Σ _ : Entity, List ComponentTypeId) : Option DeltaEntity :=
  if w.isAlive entry.1 then
    let components := w.deltaComponents registry r entry.1 entry.2
    if components.isEmpty then none else some ⟨entry.1.id, components⟩
  else none

/-- The entities of a delta. -/
def deltaEntities (registry : ComponentRegistry) (w : World) (r : Replication) :
    List DeltaEntity :=
  r.dirty.entries.filterMap (w.deltaEntity registry r)

/-- What is written of one entry of the dirty sets: a number of components that
counts as none leaves the entity out. -/
def writtenEntity (registry : ComponentRegistry) (w : World) (r : Replication)
    (entry : Σ _ : Entity, List ComponentTypeId) : Option DeltaEntity :=
  (w.deltaEntity registry r entry).filter (·.isCounted)

/-- The entities of which a delta has records. -/
def writtenEntities (registry : ComponentRegistry) (w : World)
    (r : Replication) : List DeltaEntity :=
  r.dirty.entries.filterMap (w.writtenEntity registry r)

/-- A dirty component stays dirty: some of its buckets are not due. -/
def staysDirty (registry : ComponentRegistry) (w : World) (elapsed : ℚ)
    (e : Entity) (ticks : List ℚ) (t : ComponentTypeId) : Bool :=
  isNetworked registry t && w.has e t &&
    !(syncPlanFor registry t).buckets.all (bucketDue ticks elapsed)

/-- The loop over the dirty components keeps a component that has bytes. -/
def keepsDirty (registry : ComponentRegistry) (w : World) (elapsed : ℚ)
    (e : Entity) (ticks : List ℚ) (t : ComponentTypeId) : Bool :=
  (w.getRaw e t).isSome && w.staysDirty registry elapsed e ticks t

end World

/-! ## What is written -/

/-- New buckets start at time zero. -/
theorem getElem?_growTicks (ticks : List ℚ) (count index : Nat) :
    ((growTicks ticks count)[index]?).getD 0 = (ticks[index]?).getD 0 := by
  unfold growTicks
  by_cases inside : index < ticks.length
  · rw [List.getElem?_append_left inside]
  · rw [List.getElem?_append_right (Nat.le_of_not_lt inside),
      List.getElem?_replicate, List.getElem?_eq_none (Nat.le_of_not_lt inside)]
    split <;> rfl

/-- The loop over the buckets writes the ones that are due. -/
theorem sendBuckets_spec
    (schema : ComponentSchema) (data : List UInt8) (elapsed : ℚ)
    {buckets : List SyncBucket} (once : (buckets.map Prod.fst).Nodup)
    (sends : BucketSends) (small : sends.nrec + buckets.length < 2 ^ 8) :
    let sent := buckets.foldl (sendBucket schema data elapsed) sends
    let due := buckets.filter (bucketDue sends.ticks elapsed)
    sent.buf = sends.buf.writeBytes
        ((due.map (bucketRecordOf schema data)).flatMap encodeBucket) ∧
      sent.nrec = sends.nrec + due.length ∧
      sent.allSent =
        (sends.allSent && buckets.all (bucketDue sends.ticks elapsed)) := by
  induction buckets generalizing sends with
  | nil => exact ⟨(BinaryBuffer.writeBytes_nil _).symm, rfl, by simp⟩
  | cons bucket buckets inductionHypothesis =>
      rw [List.map_cons, List.nodup_cons] at once
      rw [List.length_cons] at small
      dsimp only
      rw [List.foldl_cons, List.filter_cons, List.all_cons]
      by_cases late : elapsed < (sends.ticks[bucket.1]?).getD 0
      · have notDue : bucketDue sends.ticks elapsed bucket = false :=
          decide_eq_false (not_not.mpr late)
        have skipped : sendBucket schema data elapsed sends bucket =
            { sends with allSent := false } := if_pos late
        obtain ⟨written, counted, complete⟩ := inductionHypothesis once.2
          { sends with allSent := false } (by dsimp only; omega)
        rw [skipped, notDue, if_neg Bool.false_ne_true]
        exact ⟨written, counted, complete.trans (by simp)⟩
      · have isDue : bucketDue sends.ticks elapsed bucket = true :=
          decide_eq_true late
        have sent : sendBucket schema data elapsed sends bucket =
            { sends with
              ticks := sends.ticks.set bucket.1 (elapsed + bucket.2.1)
              buf := sends.buf.writeBytes
                (encodeBucket (bucketRecordOf schema data bucket))
              nrec := sends.nrec + 1 } := by
          refine (if_neg late).trans ?_
          rw [serializeComponentFields, writeFields_data, writeFieldMask_eq,
            BinaryBuffer.writeU8, BinaryBuffer.writeNumber,
            BinaryBuffer.writeBytes_writeBytes,
            BinaryBuffer.writeBytes_writeBytes, Nat.mod_eq_of_lt (by omega)]
          rfl
        -- the times of the later buckets are the ones from before
        have sameDue : ∀ later ∈ buckets,
            bucketDue (sends.ticks.set bucket.1 (elapsed + bucket.2.1)) elapsed
              later = bucketDue sends.ticks elapsed later := by
          intro later member
          have other : bucket.1 ≠ later.1 := fun same =>
            once.1 (same ▸ List.mem_map_of_mem member)
          unfold bucketDue
          rw [List.getElem?_set_ne other]
        obtain ⟨written, counted, complete⟩ := inductionHypothesis once.2
          { sends with
            ticks := sends.ticks.set bucket.1 (elapsed + bucket.2.1)
            buf := sends.buf.writeBytes
              (encodeBucket (bucketRecordOf schema data bucket))
            nrec := sends.nrec + 1 } (by dsimp only; omega)
        dsimp only at written counted complete
        rw [List.filter_congr sameDue] at written counted
        rw [sent, isDue, if_pos rfl, written, counted, complete,
          List.map_cons, List.flatMap_cons, BinaryBuffer.writeBytes_writeBytes,
          List.length_cons, Bool.true_and]
        refine ⟨rfl, by omega, ?_⟩
        congr 1
        rw [Bool.eq_iff_iff, List.all_eq_true, List.all_eq_true]
        exact forall₂_congr fun later member => by rw [sameDue later member]

namespace World

variable {w : World} {e : Entity} {t : ComponentTypeId} {elapsed : ℚ}

/-- In a consistent world every component has bytes. -/
theorem keepsDirty_eq
    (consistent : w.store.Consistent registry) (ticks : List ℚ) :
    w.keepsDirty registry elapsed e ticks t =
      w.staysDirty registry elapsed e ticks t := by
  unfold keepsDirty
  cases present : w.has e t with
  | false =>
      unfold staysDirty
      rw [present, Bool.and_false, Bool.false_and, Bool.and_false]
  | true =>
      obtain ⟨_, _, _, found⟩ := getRaw_of_mem_types consistent
        ((has_iff_mem_types consistent).mp present)
      rw [found]
      exact Bool.true_and _

/-- What the loop over the dirty components of an entity does with one of
them. -/
theorem sendComponent_spec (sends : ComponentSends) (t : ComponentTypeId) :
    let sent := sendComponent registry w elapsed e sends t
    let ticks := (sends.ticks.lookup t).getD []
    (∀ u, u ≠ t → sent.ticks.lookup u = sends.ticks.lookup u) ∧
    sent.buf = sends.buf.writeBytes
      ((w.deltaComponent registry elapsed e ticks t).toList.flatMap
        encodeDeltaComponent) ∧
    sent.ncomp = (if (w.deltaComponent registry elapsed e ticks t).isSome then
      (sends.ncomp + 1) % 2 ^ 8 else sends.ncomp) ∧
    sent.kept = sends.kept ++
      if w.keepsDirty registry elapsed e ticks t then [t] else [] := by
  have nothing : ∀ {sent : ComponentSends}, sent = sends →
      (∀ u, u ≠ t → sent.ticks.lookup u = sends.ticks.lookup u) ∧
      sent.buf = sends.buf.writeBytes
        (([] : List DeltaComponent).flatMap encodeDeltaComponent) ∧
      sent.ncomp = sends.ncomp ∧ sent.kept = sends.kept ++ [] := by
    rintro _ rfl
    exact ⟨fun _ _ => rfl, (BinaryBuffer.writeBytes_nil _).symm, rfl,
      (List.append_nil _).symm⟩
  dsimp only
  unfold sendComponent deltaComponent keepsDirty staysDirty
  rw [← Bool.not_and]
  by_cases active : (isNetworked registry t && w.has e t) = true
  swap
  · rw [Bool.not_eq_true] at active
    rw [active, Bool.false_and, Bool.and_false]
    exact nothing rfl
  rw [active, Bool.true_and, Bool.not_true, if_neg Bool.false_ne_true,
    if_neg Bool.false_ne_true]
  have isRegistered : registry.schemaOf t ≠ none := by
    intro unregistered
    have networked := (Bool.and_eq_true _ _ ▸ active).1
    unfold isNetworked at networked
    rw [unregistered] at networked
    exact Bool.noConfusion networked
  obtain ⟨schema, registered⟩ := Option.ne_none_iff_exists'.mp isRegistered
  rw [registered]
  cases found : w.getRaw e t with
  | none =>
      dsimp only
      rw [ite_self]
      exact nothing rfl
  | some data => ?_
  rw [Option.isSome_some, Bool.true_and]
  dsimp only
  rw [FieldSyncPlan.anyDelta_eq]
  by_cases spawnOnly : (syncPlanFor registry t).buckets = []
  · unfold FieldSyncPlan.due
    rw [spawnOnly]
    exact ⟨fun _ _ => rfl, (BinaryBuffer.writeBytes_nil _).symm, rfl,
      (List.append_nil _).symm⟩
  rw [if_neg (by simpa using spawnOnly)]
  have few := FieldSyncPlan.bucketIntervals_length_le registry t
  rw [← FieldSyncPlan.buckets_length] at few
  have once : ((syncPlanFor registry t).buckets.map Prod.fst).Nodup := by
    rw [FieldSyncPlan.buckets_indices]
    exact List.nodup_range
  have sameDue : bucketDue (growTicks ((sends.ticks.lookup t).getD [])
      (syncPlanFor registry t).bucketIntervals.length) elapsed =
      bucketDue ((sends.ticks.lookup t).getD []) elapsed := by
    funext bucket
    unfold bucketDue
    rw [getElem?_growTicks]
  obtain ⟨written, counted, complete⟩ := sendBuckets_spec schema data elapsed
    once
    { ticks := growTicks ((sends.ticks.lookup t).getD [])
        (syncPlanFor registry t).bucketIntervals.length }
    (by dsimp only; omega)
  dsimp only at written counted complete
  rw [sameDue, Nat.zero_add, ← FieldSyncPlan.due] at counted
  rw [sameDue, ← FieldSyncPlan.due] at written
  rw [sameDue, Bool.true_and] at complete
  rw [complete, counted, written]
  generalize (syncPlanFor registry t).due ((sends.ticks.lookup t).getD [])
    elapsed = due
  generalize (List.foldl (sendBucket schema data elapsed) _ _).ticks = timed
  have others : ∀ u, u ≠ t →
      (sends.ticks.insert t timed).lookup u = sends.ticks.lookup u :=
    fun u other => AList.lookup_insert_ne other
  generalize (syncPlanFor registry t).buckets.all _ = all
  cases due with
  | nil =>
      cases all with
      | false =>
          exact ⟨others, (BinaryBuffer.writeBytes_nil _).symm, rfl, rfl⟩
      | true =>
          exact ⟨others, (BinaryBuffer.writeBytes_nil _).symm, rfl,
            (List.append_nil _).symm⟩
  | cons first due =>
      have bytes : ((sends.buf.writeU32 t.toNat).writeU8
          (first :: due).length).writeBytes (({} : BinaryBuffer).writeBytes
            (((first :: due).map (bucketRecordOf schema data)).flatMap
              encodeBucket)).data =
          sends.buf.writeBytes ((some (DeltaComponent.buckets t
            ((first :: due).map (bucketRecordOf schema data)))).toList.flatMap
              encodeDeltaComponent) := by
        rw [BinaryBuffer.writeU8, BinaryBuffer.writeNumber,
          BinaryBuffer.writeU32, BinaryBuffer.writeNumber,
          BinaryBuffer.writeBytes_writeBytes,
          BinaryBuffer.writeBytes_writeBytes, Option.toList_some,
          List.flatMap_singleton]
        unfold encodeDeltaComponent
        dsimp only
        rw [List.length_map]
        rfl
      cases all with
      | false => exact ⟨others, bytes, rfl, rfl⟩
      | true => exact ⟨others, bytes, rfl, (List.append_nil _).symm⟩

/-- The loop over the dirty components of an entity. -/
theorem sendComponents_spec
    {types : List ComponentTypeId} (once : types.Nodup)
    (sends : ComponentSends) (small : sends.ncomp < 2 ^ 8) :
    let sent := types.foldl (sendComponent registry w elapsed e) sends
    let ticks := fun t => (sends.ticks.lookup t).getD []
    let components := types.filterMap fun t =>
      w.deltaComponent registry elapsed e (ticks t) t
    sent.buf = sends.buf.writeBytes
      (components.flatMap encodeDeltaComponent) ∧
    sent.ncomp = (sends.ncomp + components.length) % 2 ^ 8 ∧
    sent.kept = sends.kept ++
      types.filter fun t => w.keepsDirty registry elapsed e (ticks t) t := by
  induction types generalizing sends with
  | nil =>
      exact ⟨(BinaryBuffer.writeBytes_nil _).symm,
        (Nat.mod_eq_of_lt small).symm, (List.append_nil _).symm⟩
  | cons t types inductionHypothesis =>
      rw [List.nodup_cons] at once
      obtain ⟨others, written, counted, kept⟩ :=
        sendComponent_spec (e := e) sends t
      have smallAfter :
          (sendComponent registry w elapsed e sends t).ncomp < 2 ^ 8 := by
        rw [counted]
        split
        · exact Nat.mod_lt _ (by decide)
        · exact small
      obtain ⟨writtenLater, countedLater, keptLater⟩ := inductionHypothesis
        once.2 (sendComponent registry w elapsed e sends t) smallAfter
      -- the times of the later components are the ones from before
      have sameTicks : ∀ u ∈ types,
          (sendComponent registry w elapsed e sends t).ticks.lookup u =
            sends.ticks.lookup u := fun u member =>
        others u fun same => once.1 (same ▸ member)
      have sameComponents : (types.filterMap fun u =>
          w.deltaComponent registry elapsed e
            (((sendComponent registry w elapsed e sends t).ticks.lookup
              u).getD []) u) =
          types.filterMap fun u => w.deltaComponent registry elapsed e
            ((sends.ticks.lookup u).getD []) u :=
        List.filterMap_congr fun u member => by rw [sameTicks u member]
      have sameKept : (types.filter fun u =>
          w.keepsDirty registry elapsed e
            (((sendComponent registry w elapsed e sends t).ticks.lookup
              u).getD []) u) =
          types.filter fun u => w.keepsDirty registry elapsed e
            ((sends.ticks.lookup u).getD []) u :=
        List.filter_congr fun u member => by rw [sameTicks u member]
      dsimp only at writtenLater countedLater keptLater ⊢
      rw [sameComponents] at writtenLater countedLater
      rw [sameKept] at keptLater
      rw [List.foldl_cons, writtenLater, countedLater, keptLater, written,
        counted, kept, BinaryBuffer.writeBytes_writeBytes,
        List.filterMap_cons, List.filter_cons]
      refine ⟨?_, ?_, ?_⟩
      · cases w.deltaComponent registry elapsed e
          ((sends.ticks.lookup t).getD []) t with
        | none => rfl
        | some component =>
            dsimp only
            rw [Option.toList_some, List.flatMap_singleton, List.flatMap_cons]
      · cases w.deltaComponent registry elapsed e
          ((sends.ticks.lookup t).getD []) t with
        | none => rfl
        | some component =>
            rw [if_pos (Option.isSome_some), List.length_cons,
              Nat.mod_add_mod, Nat.add_assoc, Nat.add_comm 1]
      · rw [List.append_assoc]
        split <;> rfl

/-- What the loop over the dirty entities does with one of them. -/
theorem sendEntity_spec
    {r : Replication} {entry : Σ _ : Entity, List ComponentTypeId}
    (once : entry.2.Nodup) (sends : DeltaSends)
    (timed : sends.nextSendTick.lookup entry.1 =
      r.nextSendTick.lookup entry.1) :
    let sent := sendEntity registry w r.elapsedTime sends entry
    (∀ x, x ≠ entry.1 →
      sent.nextSendTick.lookup x = sends.nextSendTick.lookup x ∧
      sent.dirty.lookup x = sends.dirty.lookup x) ∧
    sent.buf = sends.buf.writeBytes
      ((w.writtenEntity registry r entry).toList.flatMap encodeDeltaEntity) ∧
    sent.count = (if (w.writtenEntity registry r entry).isSome then
      (sends.count + 1) % 2 ^ 32 else sends.count) ∧
    (sent.dirty.lookup entry.1).getD [] =
      if w.isAlive entry.1 then
        entry.2.filter fun t => w.keepsDirty registry r.elapsedTime entry.1
          (r.ticksOf entry.1 t) t
      else [] := by
  obtain ⟨e, types⟩ := entry
  dsimp only at once timed ⊢
  unfold sendEntity writtenEntity deltaEntity
  dsimp only
  cases alive : w.isAlive e with
  | false =>
      rw [Bool.not_false, if_pos rfl, if_neg Bool.false_ne_true,
        if_neg Bool.false_ne_true]
      refine ⟨fun x other => ⟨rfl, AList.lookup_erase_ne other⟩,
        (BinaryBuffer.writeBytes_nil _).symm, rfl, ?_⟩
      rw [AList.lookup_erase]
      rfl
  | true =>
      rw [Bool.not_true, if_neg Bool.false_ne_true, if_pos rfl, if_pos rfl]
      obtain ⟨written, number, kept⟩ := sendComponents_spec (e := e)
        once { ticks := (sends.nextSendTick.lookup e).getD ∅ }
        (Nat.two_pow_pos 8)
      have sameComponents : (types.filterMap fun t =>
          w.deltaComponent registry r.elapsedTime e
            ((((sends.nextSendTick.lookup e).getD ∅).lookup t).getD []) t) =
          w.deltaComponents registry r e types := by
        rw [timed]
        rfl
      have sameKept : (types.filter fun t =>
          w.keepsDirty registry r.elapsedTime e
            ((((sends.nextSendTick.lookup e).getD ∅).lookup t).getD []) t) =
          types.filter fun t => w.keepsDirty registry r.elapsedTime e
            (r.ticksOf e t) t := by
        rw [timed]
        rfl
      dsimp only at written number kept
      rw [sameComponents] at written number
      rw [sameKept, List.nil_append] at kept
      rw [Nat.zero_add] at number
      generalize types.foldl (sendComponent registry w r.elapsedTime e) _ =
        sent at written number kept ⊢
      rw [kept, number, written]
      have othersTimed : ∀ x, x ≠ e →
          (if sent.ticks.keys.isEmpty then sends.nextSendTick
            else sends.nextSendTick.insert e sent.ticks).lookup x =
            sends.nextSendTick.lookup x := by
        intro x other
        split
        · rfl
        · exact AList.lookup_insert_ne other
      generalize (types.filter fun t => w.keepsDirty registry r.elapsedTime e
        (r.ticksOf e t) t) = stays
      have othersDirty : ∀ x, x ≠ e →
          (if stays.isEmpty then sends.dirty.erase e
            else sends.dirty.insert e stays).lookup x =
            sends.dirty.lookup x := by
        intro x other
        split
        · exact AList.lookup_erase_ne other
        · exact AList.lookup_insert_ne other
      have selfDirty : ((if stays.isEmpty then sends.dirty.erase e
          else sends.dirty.insert e stays).lookup e).getD [] = stays := by
        split <;> rename_i isEmpty
        · rw [AList.lookup_erase, List.isEmpty_iff.mp isEmpty]
          rfl
        · rw [AList.lookup_insert]
          rfl
      generalize w.deltaComponents registry r e types = components
      cases components with
      | nil =>
          exact ⟨fun x other => ⟨othersTimed x other, othersDirty x other⟩,
            (BinaryBuffer.writeBytes_nil _).symm, rfl, selfDirty⟩
      | cons first components =>
          have said : (if (first :: components).isEmpty then none
              else some (⟨e.id, first :: components⟩ : DeltaEntity)) =
              some ⟨e.id, first :: components⟩ := rfl
          rw [said]
          by_cases uncounted : (first :: components).length % 2 ^ 8 = 0
          · have dropped : (some (⟨e.id, first :: components⟩ :
                DeltaEntity)).filter (·.isCounted) = none :=
              if_neg (by simp only [DeltaEntity.isCounted, uncounted]; decide)
            rw [dropped, uncounted]
            exact ⟨fun x other => ⟨othersTimed x other, othersDirty x other⟩,
              (BinaryBuffer.writeBytes_nil _).symm, rfl, selfDirty⟩
          have stays : (some (⟨e.id, first :: components⟩ :
              DeltaEntity)).filter (·.isCounted) =
              some ⟨e.id, first :: components⟩ :=
            if_pos (decide_eq_true uncounted)
          rw [stays, if_pos (Nat.pos_of_ne_zero uncounted)]
          refine ⟨fun x other => ⟨othersTimed x other, othersDirty x other⟩,
            ?_, rfl, selfDirty⟩
          have number : littleEndian 1 ((first :: components).length % 2 ^ 8) =
              littleEndian 1 (first :: components).length := littleEndian_mod 1 _
          change ((sends.buf.writeU64 e.id.toNat).writeU8 _).writeBytes _ =
            sends.buf.writeBytes (encodeDeltaEntity
              ⟨e.id, first :: components⟩ ++ [])
          rw [BinaryBuffer.writeU8, BinaryBuffer.writeNumber,
            BinaryBuffer.writeU64, BinaryBuffer.writeNumber,
            BinaryBuffer.writeBytes_writeBytes,
            BinaryBuffer.writeBytes_writeBytes, List.append_nil, number]
          rfl

/-- The loop over the dirty entities. -/
theorem sendEntities_spec
    {r : Replication} {entries : List (Σ _ : Entity, List ComponentTypeId)}
    (distinct : (entries.map Sigma.fst).Nodup)
    (once : ∀ entry ∈ entries, entry.2.Nodup) (sends : DeltaSends)
    (small : sends.count < 2 ^ 32)
    (timed : ∀ entry ∈ entries,
      sends.nextSendTick.lookup entry.1 = r.nextSendTick.lookup entry.1) :
    let sent := entries.foldl (sendEntity registry w r.elapsedTime) sends
    let entities := entries.filterMap (w.writtenEntity registry r)
    sent.buf = sends.buf.writeBytes (entities.flatMap encodeDeltaEntity) ∧
    sent.count = (sends.count + entities.length) % 2 ^ 32 ∧
    (∀ x, x ∉ entries.map Sigma.fst →
      sent.dirty.lookup x = sends.dirty.lookup x) ∧
    ∀ entry ∈ entries, (sent.dirty.lookup entry.1).getD [] =
      if w.isAlive entry.1 then
        entry.2.filter fun t => w.keepsDirty registry r.elapsedTime entry.1
          (r.ticksOf entry.1 t) t
      else [] := by
  induction entries generalizing sends with
  | nil =>
      exact ⟨(BinaryBuffer.writeBytes_nil _).symm,
        (Nat.mod_eq_of_lt small).symm, fun _ _ => rfl,
        fun _ member => absurd member List.not_mem_nil⟩
  | cons entry entries inductionHypothesis =>
      rw [List.map_cons, List.nodup_cons] at distinct
      obtain ⟨others, written, number, stays⟩ :=
        @sendEntity_spec registry w r entry
          (once entry List.mem_cons_self) sends (timed entry List.mem_cons_self)
      have differs : ∀ later ∈ entries, later.1 ≠ entry.1 := by
        intro later member same
        apply distinct.1
        rw [← same]
        exact List.mem_map_of_mem member
      have smallAfter :
          (sendEntity registry w r.elapsedTime sends entry).count < 2 ^ 32 := by
        rw [number]
        split
        · exact Nat.mod_lt _ (by decide)
        · exact small
      obtain ⟨writtenLater, numberLater, outside, staysLater⟩ :=
        inductionHypothesis distinct.2
          (fun later member => once later (List.mem_cons_of_mem _ member))
          (sendEntity registry w r.elapsedTime sends entry) smallAfter
          fun later member => (others _ (differs later member)).1.trans
            (timed later (List.mem_cons_of_mem _ member))
      dsimp only at writtenLater numberLater outside staysLater ⊢
      rw [List.foldl_cons, writtenLater, numberLater, written, number,
        BinaryBuffer.writeBytes_writeBytes, List.filterMap_cons]
      refine ⟨?_, ?_, fun x absent => ?_, fun other member => ?_⟩
      · cases w.writtenEntity registry r entry with
        | none => rfl
        | some entity =>
            dsimp only
            rw [Option.toList_some, List.flatMap_singleton, List.flatMap_cons]
      · cases w.writtenEntity registry r entry with
        | none => rfl
        | some entity =>
            rw [if_pos (Option.isSome_some), List.length_cons,
              Nat.mod_add_mod, Nat.add_assoc, Nat.add_comm 1]
      · rw [List.map_cons, List.mem_cons, not_or] at absent
        rw [outside x absent.2, (others x absent.1).2]
      · obtain rfl | member := List.mem_cons.mp member
        · rw [outside _ distinct.1]
          exact stays
        · exact staysLater other member

/-- What a delta says about a component, in full. -/
theorem deltaComponent_eq_some
    {ticks : List ℚ} {component : DeltaComponent} :
    w.deltaComponent registry elapsed e ticks t = some component ↔
      isNetworked registry t = true ∧ w.has e t = true ∧
      ∃ schema data, registry.schemaOf t = some schema ∧
        w.getRaw e t = some data ∧
        (syncPlanFor registry t).due ticks elapsed ≠ [] ∧
        component = .buckets t (((syncPlanFor registry t).due ticks
          elapsed).map (bucketRecordOf schema data)) := by
  unfold deltaComponent
  rw [← Bool.not_and]
  cases active : isNetworked registry t && w.has e t with
  | false =>
      rw [Bool.not_false, if_pos rfl]
      refine ⟨fun absurd' => absurd absurd' (by simp), ?_⟩
      rintro ⟨networked, present, _⟩
      rw [networked, present] at active
      exact absurd active (by simp)
  | true =>
      rw [Bool.and_eq_true] at active
      rw [Bool.not_true, if_neg Bool.false_ne_true]
      cases registered : registry.schemaOf t with
      | none => simp
      | some schema =>
          cases found : w.getRaw e t with
          | none => simp
          | some data =>
              dsimp only
              by_cases none : (syncPlanFor registry t).due ticks elapsed = []
              · rw [none]
                simp
              · rw [if_neg (by simpa using none), Option.some.injEq]
                constructor
                · rintro rfl
                  exact ⟨active.1, active.2, schema, data, rfl, rfl, none, rfl⟩
                · rintro ⟨_, _, schema', data', sameSchema, sameData, _, rfl⟩
                  rw [Option.some.inj sameSchema, Option.some.inj sameData]

/-- What a delta says about a component can be encoded. -/
theorem deltaComponent_encodable
    {ticks : List ℚ} {component : DeltaComponent}
    (said : w.deltaComponent registry elapsed e ticks t = some component) :
    component.Encodable registry := by
  obtain ⟨_, _, schema, data, registered, _, _, rfl⟩ :=
    deltaComponent_eq_some.mp said
  have few := FieldSyncPlan.bucketIntervals_length_le registry t
  refine ⟨?_, schema, registered, fun record member => ?_⟩
  · rw [← FieldSyncPlan.buckets_length] at few
    rw [List.length_map]
    have fewer := List.length_filter_le (bucketDue ticks elapsed)
      (syncPlanFor registry t).buckets
    unfold FieldSyncPlan.due
    omega
  · obtain ⟨bucket, isDue, rfl⟩ := List.mem_map.mp member
    have inPlan := (List.mem_filter.mp isDue).1
    refine ⟨?_, FieldSyncPlan.buckets_mask_length registered inPlan,
      length_encodeFields _ _⟩
    have index := List.mem_map_of_mem (f := Prod.fst) inPlan
    rw [FieldSyncPlan.buckets_indices, List.mem_range] at index
    change bucket.1 < 2 ^ 8
    omega

/-- When an entity is part of a delta. -/
theorem deltaEntity_eq_some
    {r : Replication} {entry : Σ _ : Entity, List ComponentTypeId}
    {entity : DeltaEntity} :
    w.deltaEntity registry r entry = some entity ↔
      w.isAlive entry.1 = true ∧
      w.deltaComponents registry r entry.1 entry.2 ≠ [] ∧
      entity = ⟨entry.1.id, w.deltaComponents registry r entry.1 entry.2⟩ := by
  unfold deltaEntity
  by_cases alive : w.isAlive entry.1 = true
  · rw [if_pos alive]
    dsimp only
    by_cases none : w.deltaComponents registry r entry.1 entry.2 = []
    · rw [none]
      simp
    · rw [if_neg (by simpa using none), Option.some.injEq]
      exact ⟨fun same => ⟨alive, none, same.symm⟩, fun both => both.2.2.symm⟩
  · rw [if_neg alive]
    exact ⟨fun absurd' => absurd absurd' (by simp),
      fun both => absurd both.1 alive⟩

/-- The entities of a delta, as long as their components can be counted, can be
encoded. -/
theorem deltaEntities_encodable
    {r : Replication}
    (counted : ∀ entity ∈ w.deltaEntities registry r,
      entity.components.length < 2 ^ 8) :
    ∀ entity ∈ w.deltaEntities registry r, entity.Encodable registry := by
  intro entity member
  refine ⟨counted entity member, fun component inEntity => ?_⟩
  obtain ⟨entry, _, said⟩ := List.mem_filterMap.mp member
  obtain ⟨_, _, rfl⟩ := deltaEntity_eq_some.mp said
  obtain ⟨t, _, saidOf⟩ := List.mem_filterMap.mp inEntity
  exact deltaComponent_encodable saidOf

end World

/-! ## The packet -/

namespace Replication

variable {w : World} {r : Replication}

/-- The dirty components of an entity. -/
def dirtyOf (r : Replication) (e : Entity) : List ComponentTypeId :=
  (r.dirty.lookup e).getD []

/-- The dirty sets are sets. -/
def DirtySets (r : Replication) : Prop :=
  ∀ e, (r.dirtyOf e).Nodup

/-- What is dirty about an entity. -/
theorem dirtyOf_of_entry
    {entry : Σ _ : Entity, List ComponentTypeId}
    (member : entry ∈ r.dirty.entries) : r.dirtyOf entry.1 = entry.2 := by
  unfold dirtyOf
  rw [AList.mem_lookup_iff.mpr member]
  rfl

/-- The bytes of a delta, whatever its counts, and what stays dirty after
it. -/
theorem buildDelta_written
    (registry : ComponentRegistry) (w : World) (sets : r.DirtySets) :
    let built := r.buildDelta registry w
    built.2.data =
      (if (w.writtenEntities registry r).length % 2 ^ 32 = 0 then []
      else encodeDelta (w.writtenEntities registry r)) ∧
    ∀ e, built.1.dirtyOf e =
      if w.isAlive e then
        (r.dirtyOf e).filter fun t =>
          w.keepsDirty registry r.elapsedTime e (r.ticksOf e t) t
      else [] := by
  have distinct : (r.dirty.entries.map Sigma.fst).Nodup := r.dirty.nodupKeys
  have once : ∀ entry ∈ r.dirty.entries, entry.2.Nodup := fun entry member =>
    dirtyOf_of_entry member ▸ sets entry.1
  obtain ⟨written, number, outside, stays⟩ :=
    @World.sendEntities_spec registry w r _ distinct once
      { dirty := r.dirty
        nextSendTick := r.nextSendTick
        buf := (({} : BinaryBuffer).writeU16 syncVersion).writeU32 0 }
      (Nat.two_pow_pos 32) fun _ _ => rfl
  dsimp only at written number outside stays
  rw [← World.writtenEntities] at written number
  rw [Nat.zero_add] at number
  unfold buildDelta
  dsimp only
  refine ⟨?_, fun e => ?_⟩
  · rw [number, written]
    generalize w.writtenEntities registry r = entities
    by_cases none : entities.length % 2 ^ 32 = 0
    · rw [none, if_pos rfl]
      rfl
    · have count : littleEndian 4 (entities.length % 2 ^ 32) =
          littleEndian 4 entities.length := littleEndian_mod 4 _
      rw [if_pos (Nat.pos_of_ne_zero none), if_neg none]
      unfold BinaryBuffer.overwriteU32
      rw [if_neg]
      · rw [count]
        exact @overlay_append (littleEndian 2 syncVersion)
          (entities.flatMap encodeDeltaEntity) (littleEndian 4 0) _ rfl
      · unfold BinaryBuffer.size
        simp only [BinaryBuffer.writeU16, BinaryBuffer.writeU32,
          BinaryBuffer.writeNumber, BinaryBuffer.writeBytes,
          List.length_append, length_littleEndian]
        omega
  · unfold dirtyOf
    dsimp only
    by_cases isDirty : e ∈ r.dirty.entries.map Sigma.fst
    · obtain ⟨entry, member, rfl⟩ := List.mem_map.mp isDirty
      rw [stays entry member, ← dirtyOf, dirtyOf_of_entry member]
    · rw [outside e isDirty]
      have clean : r.dirty.lookup e = none := AList.lookup_eq_none.mpr isDirty
      rw [clean]
      split <;> rfl

/-- Entities whose components can be counted are all written. -/
theorem writtenEntities_eq
    (counted : ∀ entity ∈ w.deltaEntities registry r,
      entity.components.length < 2 ^ 8) :
    w.writtenEntities registry r = w.deltaEntities registry r := by
  refine List.filterMap_congr fun entry member => ?_
  unfold World.writtenEntity
  cases said : w.deltaEntity registry r entry with
  | none => rfl
  | some entity =>
      have few := counted entity (List.mem_filterMap.mpr ⟨entry, member, said⟩)
      obtain ⟨_, some, rfl⟩ := World.deltaEntity_eq_some.mp said
      refine if_pos (decide_eq_true ?_)
      rw [Nat.mod_eq_of_lt few]
      exact List.length_pos_iff.mpr some |>.ne'

/-- The bytes of a delta, and what stays dirty after it. -/
theorem buildDelta_spec
    (consistent : w.store.Consistent registry) (sets : r.DirtySets)
    (counted : ∀ entity ∈ w.deltaEntities registry r,
      entity.components.length < 2 ^ 8)
    (small : (w.deltaEntities registry r).length < 2 ^ 32) :
    let built := r.buildDelta registry w
    built.2.data =
      (if w.deltaEntities registry r = [] then []
      else littleEndian 2 syncVersion ++
        (littleEndian 4 (w.deltaEntities registry r).length ++
          (w.deltaEntities registry r).flatMap encodeDeltaEntity)) ∧
    built.1 = { r with
      dirty := built.1.dirty
      nextSendTick := built.1.nextSendTick } ∧
    ∀ e, built.1.dirtyOf e =
      if w.isAlive e then
        (r.dirtyOf e).filter fun t =>
          w.staysDirty registry r.elapsedTime e (r.ticksOf e t) t
      else [] := by
  obtain ⟨written, stays⟩ := buildDelta_written registry w sets
  refine ⟨?_, rfl, fun e => ?_⟩
  · rw [written, writtenEntities_eq counted, Nat.mod_eq_of_lt small]
    exact if_congr List.length_eq_zero_iff rfl rfl
  · rw [stays]
    congr 1
    exact List.filter_congr fun t _ => World.keepsDirty_eq consistent _

/-- A delta is read back as what it says. -/
theorem buildDelta_parsed
    (consistent : w.store.Consistent registry) (sets : r.DirtySets)
    (counted : ∀ entity ∈ w.deltaEntities registry r,
      entity.components.length < 2 ^ 8)
    (small : (w.deltaEntities registry r).length < 2 ^ 32)
    (some : w.deltaEntities registry r ≠ []) :
    parsePacket registry .delta (r.buildDelta registry w).2.data =
      Option.some (.delta (w.deltaEntities registry r)) := by
  rw [(buildDelta_spec consistent sets counted small).1, if_neg some]
  exact delta_parsed small (World.deltaEntities_encodable counted)

end Replication
end VortarisECS
