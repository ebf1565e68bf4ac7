import VortarisECS.Core.ComponentRegistration
import VortarisECS.Network.Delta

/-!
# Plans partition the fields

A plan is computed once for each component and kept.  Its buckets have different
intervals, and each field that deltas carry is in the one bucket with its
interval.
-/

namespace VortarisECS

/-- Deltas carry the field: it is networked, and its priority is one from
`SYNC_REALTIME` to `SYNC_LOW`. -/
def FieldDescriptor.InDeltas (fd : FieldDescriptor) : Prop :=
  fd.isNetworked = true ∧ fd.syncPriority ≤ syncLow

/-- The mask selects the field with that index. -/
def Selects (mask : List Bool) (i : Nat) : Prop := mask[i]? = some true

/-- The buckets of the plan are in the order of their intervals; they are
disjoint parts of the fields of a spawn, and each is the fields with its
interval; a field is in one of them if deltas carry it, and in none otherwise. -/
structure FieldSyncPlan.Partitions (plan : FieldSyncPlan)
    (schema : ComponentSchema) : Prop where
  ascending : plan.bucketIntervals.Pairwise (· < ·)
  paired : plan.bucketMasks.length = plan.bucketIntervals.length
  sized : ∀ mask ∈ plan.bucketMasks, mask.length = schema.fields.length
  nonempty : ∀ mask ∈ plan.bucketMasks, ∃ i, Selects mask i
  disjoint : plan.bucketMasks.Pairwise fun mask later =>
    ∀ i, ¬(Selects mask i ∧ Selects later i)
  union : ∀ i fd, schema.fields[i]? = some fd →
    ((∃ mask ∈ plan.bucketMasks, Selects mask i) ↔ fd.InDeltas)
  ofInterval : ∀ bucket ∈ plan.bucketIntervals.zip plan.bucketMasks,
    ∀ i fd, schema.fields[i]? = some fd →
      (Selects bucket.2 i ↔
        fd.InDeltas ∧ priorityInterval fd.syncPriority = bucket.1)
  spawnSized : plan.spawnMask.length = schema.fields.length
  spawned : ∀ i fd, schema.fields[i]? = some fd →
    (Selects plan.spawnMask i ↔
      fd.isNetworked = true ∧ fd.syncPriority ≠ syncLocal)
  contains : ∀ mask ∈ plan.bucketMasks, ∀ i, Selects mask i →
    Selects plan.spawnMask i
  once : ∀ i fd, schema.fields[i]? = some fd → fd.InDeltas →
    ∃! bucket : Nat, ∃ mask, plan.bucketMasks[bucket]? = some mask ∧ Selects mask i

/-! ## The plans that are kept -/

/-- The registry and the plans that were computed so far. -/
structure SyncPlans where
  registry : ComponentRegistry := {}
  plans : AList fun _ : ComponentTypeId => FieldSyncPlan := ∅

namespace SyncPlans

/-- `sync_plan_for` with the plans it keeps. -/
def planFor (st : SyncPlans) (t : ComponentTypeId) :
    SyncPlans × FieldSyncPlan :=
  match st.plans.lookup t with
  | some plan => (st, plan)
  | none =>
      let plan := syncPlanFor st.registry t
      ({ st with plans := st.plans.insert t plan }, plan)

end SyncPlans

/-- What happens around the plans. -/
inductive PlanCall
  | registerComponent (schema : ComponentSchema)
  | useComponent (t : ComponentTypeId)

namespace SyncPlans

/-- Register a component, or ask for the plan of one.  The callers of
`sync_plan_for` ask for registered components only. -/
def apply (st : SyncPlans) : PlanCall → SyncPlans
  | .registerComponent schema =>
      { st with registry := (st.registry.registerComponent schema).2 }
  | .useComponent t =>
      if (st.registry.schemaOf t).isSome then (st.planFor t).1 else st

/-- Calls one after the other, from no plans on. -/
def run (calls : List PlanCall) : SyncPlans := calls.foldl apply {}

/-- The plans are those of registered components. -/
def UpToDate (st : SyncPlans) : Prop :=
  ∀ t plan, st.plans.lookup t = some plan →
    (st.registry.schemaOf t).isSome ∧ plan = syncPlanFor st.registry t

variable {st : SyncPlans} {t : ComponentTypeId}

/-- The plan that is asked for is the one of the schema. -/
theorem UpToDate.planFor (upToDate : st.UpToDate) :
    (st.planFor t).2 = syncPlanFor st.registry t := by
  unfold SyncPlans.planFor
  cases kept : st.plans.lookup t with
  | none => rfl
  | some plan => exact (upToDate t plan kept).2

/-- Every call keeps the plans up to date. -/
theorem UpToDate.apply (upToDate : st.UpToDate) (call : PlanCall) :
    (st.apply call).UpToDate := by
  cases call with
  | registerComponent added =>
      intro t plan kept
      obtain ⟨isSome, isPlan⟩ := upToDate t plan kept
      obtain ⟨schema, registered⟩ := Option.isSome_iff_exists.mp isSome
      have stays : (st.registry.registerComponent added).2.schemaOf t =
          some schema :=
        ComponentRegistry.schemaOf_registerComponent registered
      unfold SyncPlans.apply
      dsimp only
      unfold syncPlanFor at isPlan ⊢
      rw [registered] at isPlan
      rw [stays]
      exact ⟨rfl, isPlan⟩
  | useComponent t =>
      unfold SyncPlans.apply
      dsimp only
      split
      · rename_i registered
        unfold SyncPlans.planFor
        cases kept : st.plans.lookup t with
        | some plan => exact upToDate
        | none =>
            intro u plan found
            dsimp only at found ⊢
            rw [AList.lookup_insert_if] at found
            split at found
            · rename_i same
              rw [same]
              exact ⟨registered, (Option.some.inj found).symm⟩
            · exact upToDate u plan found
      · exact upToDate

/-- They are up to date after all calls. -/
theorem run_upToDate (calls : List PlanCall) : (run calls).UpToDate := by
  unfold run
  induction calls using List.reverseRecOn with
  | nil => exact fun t plan kept => absurd kept (by simp)
  | append_singleton calls call inductionHypothesis =>
      rw [List.foldl_append]
      exact inductionHypothesis.apply call

end SyncPlans

/-! ## The buckets -/

/-- The priorities of deltas. -/
theorem priorityInterval_nonneg_iff (priority : UInt8) :
    0 ≤ priorityInterval priority ↔ priority ≤ syncLow := by
  unfold priorityInterval
  split_ifs with isRealtime isHigh isMedium isLow
  · rw [isRealtime]
    decide +kernel
  · rw [isHigh]
    decide +kernel
  · rw [isMedium]
    decide +kernel
  · rw [isLow]
    decide +kernel
  · refine iff_of_false (by norm_num) fun small => ?_
    have bounded : priority.toNat ≤ 3 := UInt8.le_iff_toNat_le.mp small
    have others : ∀ value : UInt8, priority ≠ value →
        priority.toNat ≠ value.toNat :=
      fun value other same => other (UInt8.toNat_inj.mp same)
    have first := others _ isRealtime
    have second := others _ isHigh
    have third := others _ isMedium
    have last := others _ isLow
    change priority.toNat ≠ 0 at first
    change priority.toNat ≠ 1 at second
    change priority.toNat ≠ 2 at third
    change priority.toNat ≠ 3 at last
    omega

/-- Deltas carry a field exactly if it has an interval. -/
theorem inDeltas_iff (fd : FieldDescriptor) :
    fd.InDeltas ↔ fd.isSent = true ∧ 0 ≤ priorityInterval fd.syncPriority := by
  unfold FieldDescriptor.InDeltas FieldDescriptor.isSent
  rw [priorityInterval_nonneg_iff, Bool.and_eq_true, decide_eq_true_eq, and_assoc]
  refine and_congr_right fun _ => (and_iff_right_of_imp ?_).symm
  intro small isLocal
  rw [isLocal] at small
  exact absurd small (by decide)

/-- A field has an interval exactly if it is in deltas. -/
theorem deltaInterval_nonneg_iff (fd : FieldDescriptor) :
    0 ≤ fd.deltaInterval ↔ fd.InDeltas := by
  rw [inDeltas_iff]
  unfold FieldDescriptor.deltaInterval
  split
  · rename_i sent
    exact (and_iff_right sent).symm
  · rename_i private'
    exact iff_of_false (by norm_num) fun both => private' both.1

/-- The interval is that of the priority. -/
theorem deltaInterval_eq {fd : FieldDescriptor} (inDeltas : fd.InDeltas) :
    fd.deltaInterval = priorityInterval fd.syncPriority :=
  if_pos ((inDeltas_iff fd).mp inDeltas).1

/-- The collected intervals are those of the fields that deltas carry. -/
theorem mem_collectIntervals_iff
    (fields : List FieldDescriptor) (interval : ℚ) :
    interval ∈ collectIntervals fields ↔
      ∃ fd ∈ fields, fd.InDeltas ∧
        priorityInterval fd.syncPriority = interval := by
  unfold collectIntervals
  induction fields using List.reverseRecOn with
  | nil => simp
  | append_singleton fields fd inductionHypothesis =>
      rw [List.foldl_append, List.foldl_cons, List.foldl_nil]
      generalize List.foldl _ [] fields = intervals at inductionHypothesis ⊢
      simp only [List.mem_append, List.mem_singleton, or_and_right, exists_or,
        exists_eq_left]
      rw [← inductionHypothesis]
      split
      · rename_i fresh
        have inDeltas := (deltaInterval_nonneg_iff fd).mp fresh.1
        rw [List.mem_append, List.mem_singleton, deltaInterval_eq inDeltas]
        exact or_congr_right
          ⟨fun same => ⟨inDeltas, same.symm⟩, fun both => both.2.symm⟩
      · rename_i known
        refine (or_iff_left_of_imp fun both => ?_).symm
        obtain ⟨inDeltas, rfl⟩ := both
        rw [← deltaInterval_eq inDeltas]
        by_contra absent
        exact known ⟨(deltaInterval_nonneg_iff fd).mpr inDeltas, absent⟩

/-- What a mask made from the fields selects. -/
theorem selects_map_iff
    {fields : List FieldDescriptor} {selects : FieldDescriptor → Bool}
    {i : Nat} :
    Selects (fields.map selects) i ↔
      ∃ fd, fields[i]? = some fd ∧ selects fd = true := by
  unfold Selects
  rw [List.getElem?_map, Option.map_eq_some_iff]

/-- The mask of the fields that deltas carry at an interval. -/
def intervalMask (fields : List FieldDescriptor) (interval : ℚ) : List Bool :=
  fields.map fun fd =>
    fd.isSent && decide (priorityInterval fd.syncPriority = interval)

/-- A bucket's mask selects the fields of its interval. -/
theorem intervalMask_selects_iff
    {fields : List FieldDescriptor} {interval : ℚ} (nonneg : 0 ≤ interval)
    {i : Nat} :
    Selects (intervalMask fields interval) i ↔
      ∃ fd, fields[i]? = some fd ∧ fd.InDeltas ∧
        priorityInterval fd.syncPriority = interval := by
  unfold intervalMask
  rw [selects_map_iff]
  refine exists_congr fun fd => and_congr_right fun _ => ?_
  rw [Bool.and_eq_true, decide_eq_true_eq, inDeltas_iff, and_assoc]
  refine and_congr_right fun _ => (and_iff_right_of_imp ?_).symm
  rintro rfl
  exact nonneg

/-- The intervals are different ones, in order, and exactly those of the fields
that deltas carry. -/
structure IntervalsOf (fields : List FieldDescriptor) (intervals : List ℚ) :
    Prop where
  ascending : intervals.Pairwise (· < ·)
  mem_iff : ∀ interval, interval ∈ intervals ↔
    ∃ fd ∈ fields, fd.InDeltas ∧ priorityInterval fd.syncPriority = interval

/-- The sorted intervals are those of the fields. -/
theorem intervalsOf_sorted (fields : List FieldDescriptor) :
    IntervalsOf fields ((collectIntervals fields).insertionSort (· ≤ ·)) where
  ascending := by
    have sorted := List.pairwise_insertionSort (· ≤ ·) (collectIntervals fields)
    have once := (List.perm_insertionSort (· ≤ ·)
      (collectIntervals fields)).nodup_iff.mpr (collectIntervals_spec fields).1
    exact (sorted.and once).imp fun both => lt_of_le_of_ne both.1 both.2
  mem_iff interval := (List.mem_insertionSort _).trans
    (mem_collectIntervals_iff fields interval)

namespace IntervalsOf

variable {fields : List FieldDescriptor} {intervals : List ℚ}

/-- An interval of a field is none of those that mean never. -/
theorem nonneg
    (ofFields : IntervalsOf fields intervals) {interval : ℚ}
    (member : interval ∈ intervals) : 0 ≤ interval := by
  obtain ⟨fd, -, inDeltas, rfl⟩ := (ofFields.mem_iff interval).mp member
  exact ((inDeltas_iff fd).mp inDeltas).2

/-- A mask selects a field by its interval. -/
theorem selects_iff
    (ofFields : IntervalsOf fields intervals) {interval : ℚ}
    (member : interval ∈ intervals) {i : Nat} {fd : FieldDescriptor}
    (found : fields[i]? = some fd) :
    Selects (intervalMask fields interval) i ↔
      fd.InDeltas ∧ priorityInterval fd.syncPriority = interval := by
  rw [intervalMask_selects_iff (ofFields.nonneg member), found]
  simp

/-- Every field of deltas has its interval there. -/
theorem mem
    (ofFields : IntervalsOf fields intervals) {i : Nat} {fd : FieldDescriptor}
    (found : fields[i]? = some fd) (inDeltas : fd.InDeltas) :
    priorityInterval fd.syncPriority ∈ intervals :=
  (ofFields.mem_iff _).mpr ⟨fd, List.mem_of_getElem? found, inDeltas, rfl⟩

/-- Different intervals have disjoint masks. -/
theorem disjoint
    (ofFields : IntervalsOf fields intervals) {interval later : ℚ}
    (member : interval ∈ intervals) (laterMember : later ∈ intervals) {i : Nat}
    (selects : Selects (intervalMask fields interval) i)
    (laterSelects : Selects (intervalMask fields later) i) :
    interval = later := by
  obtain ⟨fd, found, -, same⟩ :=
    (intervalMask_selects_iff (ofFields.nonneg member)).mp selects
  rw [← same]
  exact ((ofFields.selects_iff laterMember found).mp laterSelects).2

/-- Every field of deltas is in one bucket. -/
theorem once
    (ofFields : IntervalsOf fields intervals) {i : Nat} {fd : FieldDescriptor}
    (found : fields[i]? = some fd) (inDeltas : fd.InDeltas) :
    ∃! bucket : Nat, ∃ mask,
      (intervals.map (intervalMask fields))[bucket]? = some mask ∧
        Selects mask i := by
  obtain ⟨bucket, inRange, isInterval⟩ :=
    List.getElem_of_mem (ofFields.mem found inDeltas)
  have here : intervals[bucket]? = some (priorityInterval fd.syncPriority) := by
    rw [List.getElem?_eq_getElem inRange, isInterval]
  refine ⟨bucket, ⟨intervalMask fields (priorityInterval fd.syncPriority), ?_,
    ?_⟩, ?_⟩
  · rw [List.getElem?_map, here]
    rfl
  · exact (ofFields.selects_iff (ofFields.mem found inDeltas) found).mpr
      ⟨inDeltas, rfl⟩
  · rintro other ⟨mask, isMask, selects⟩
    rw [List.getElem?_map, Option.map_eq_some_iff] at isMask
    obtain ⟨interval, atOther, rfl⟩ := isMask
    have same := ((ofFields.selects_iff (List.mem_of_getElem? atOther)
      found).mp selects).2
    have onceOnly : intervals.Nodup :=
      ofFields.ascending.imp fun less => ne_of_lt less
    obtain ⟨otherInRange, otherIs⟩ := List.getElem?_eq_some_iff.mp atOther
    have sameEntry : intervals[other] = intervals[bucket] := by
      rw [otherIs, isInterval, same]
    exact onceOnly.getElem_inj_iff.mp sameEntry

end IntervalsOf

/-- A plan is computed from the fields of its schema. -/
theorem syncPlanFor_partitions
    {registry : ComponentRegistry} {t : ComponentTypeId}
    {schema : ComponentSchema} (registered : registry.schemaOf t = some schema) :
    (syncPlanFor registry t).Partitions schema := by
  have ofFields := intervalsOf_sorted schema.fields
  have plan : syncPlanFor registry t = {
      spawnMask := schema.fields.map (·.isSent)
      bucketIntervals :=
        (collectIntervals schema.fields).insertionSort (· ≤ ·)
      bucketMasks := ((collectIntervals schema.fields).insertionSort
        (· ≤ ·)).map (intervalMask schema.fields)
      anyDelta := !((collectIntervals schema.fields).insertionSort
        (· ≤ ·)).isEmpty } := by
    unfold syncPlanFor
    rw [registered]
    rfl
  rw [plan]
  generalize (collectIntervals schema.fields).insertionSort (· ≤ ·) = intervals
    at ofFields
  have spawned : ∀ i, Selects (schema.fields.map (·.isSent)) i ↔
      ∃ fd, schema.fields[i]? = some fd ∧ fd.isSent = true := fun i =>
    selects_map_iff
  constructor
  · exact ofFields.ascending
  · exact List.length_map _
  · intro mask member
    obtain ⟨interval, -, rfl⟩ := List.mem_map.mp member
    exact List.length_map _
  · intro mask member
    obtain ⟨interval, inPlan, rfl⟩ := List.mem_map.mp member
    obtain ⟨fd, inFields, inDeltas⟩ := (ofFields.mem_iff interval).mp inPlan
    obtain ⟨i, found⟩ := List.mem_iff_getElem?.mp inFields
    exact ⟨i, (ofFields.selects_iff inPlan found).mpr inDeltas⟩
  · rw [List.pairwise_map]
    refine ofFields.ascending.imp_of_mem fun inPlan laterInPlan less i both => ?_
    exact less.ne (ofFields.disjoint inPlan laterInPlan both.1 both.2)
  · intro i fd found
    constructor
    · rintro ⟨mask, member, selects⟩
      obtain ⟨interval, inPlan, rfl⟩ := List.mem_map.mp member
      exact ((ofFields.selects_iff inPlan found).mp selects).1
    · intro inDeltas
      have inPlan := ofFields.mem found inDeltas
      exact ⟨_, List.mem_map_of_mem inPlan,
        (ofFields.selects_iff inPlan found).mpr ⟨inDeltas, rfl⟩⟩
  · rintro ⟨interval, mask⟩ member i fd found
    obtain ⟨bucket, isPair⟩ := List.mem_iff_getElem?.mp member
    obtain ⟨isInterval, isMask⟩ := List.getElem?_zip_eq_some.mp isPair
    rw [List.getElem?_map, isInterval, Option.map_some,
      Option.some.injEq] at isMask
    rw [← isMask]
    exact ofFields.selects_iff (List.mem_of_getElem? isInterval) found
  · exact List.length_map _
  · intro i fd found
    rw [spawned, found]
    simp [FieldDescriptor.isSent]
  · intro mask member i selects
    obtain ⟨interval, inPlan, rfl⟩ := List.mem_map.mp member
    obtain ⟨fd, found, inDeltas, -⟩ :=
      (intervalMask_selects_iff (ofFields.nonneg inPlan)).mp selects
    exact (spawned i).mpr ⟨fd, found, ((inDeltas_iff fd).mp inDeltas).1⟩
  · exact fun i fd found inDeltas => ofFields.once found inDeltas

/-- After any calls, the plan of a component partitions its fields. -/
theorem SyncPlans.planFor_partitions
    (calls : List PlanCall) (t : ComponentTypeId) (schema : ComponentSchema)
    (registered : (SyncPlans.run calls).registry.schemaOf t = some schema) :
    ((SyncPlans.run calls).planFor t).2.Partitions schema := by
  rw [(SyncPlans.run_upToDate calls).planFor]
  exact syncPlanFor_partitions registered

/-- A component with a field of every tier. -/
def tieredSchema : ComponentSchema where
  typeName := "Unit"
  size := 6
  fields := [syncLow, syncRealtime, syncSpawnOnly, syncRealtime, syncLocal,
    200].map fun priority =>
      { name := "field", type := .u8, syncPriority := priority }
  isNetworked := true

/-- The plan of a component with a field of every tier, asked for twice. -/
theorem SyncPlans.planFor_partitions_tiered :
    ((SyncPlans.run [.registerComponent tieredSchema,
      .useComponent 1]).planFor 1).2.Partitions
        { tieredSchema with typeId := 1 } :=
  SyncPlans.planFor_partitions [.registerComponent tieredSchema,
    .useComponent 1] 1 { tieredSchema with typeId := 1 } (by decide +kernel)

end VortarisECS
