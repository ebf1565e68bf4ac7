import VortarisECS.Network.Agreement
import VortarisECS.Serialization.Reencode

/-!
# Field values

What storing some fields of a component does to the value of each field, and
what a delta does to each component, as long as the fields lie apart.
-/

namespace VortarisECS

/-! ## Storing fields -/

/-- What a field writes depends on its bytes only. -/
theorem encodeField_congr
    {fd : FieldDescriptor} {base base' : List UInt8}
    (same : fd.bytesOf base (fieldSize fd) = fd.bytesOf base' (fieldSize fd)) :
    encodeField fd base = encodeField fd base' := by
  unfold fieldSize at same
  unfold encodeField
  cases widthEq : fd.type.scalarWidth with
  | some width =>
      rw [widthEq] at same
      exact same
  | none =>
      rw [widthEq] at same
      dsimp only at same ⊢
      rw [same]

namespace LaidOut

variable {fields fields' : List FieldDescriptor} {size : Nat}
variable {fd : FieldDescriptor} {base : List UInt8}

/-- Fields that are laid out share no bytes. -/
theorem apart
    (laid : LaidOut fields 0 size) (member : fd ∈ fields)
    {other : FieldDescriptor} (member' : other ∈ fields) (differ : fd ≠ other) :
    fd.offset + fd.storageSize ≤ other.offset ∨
      other.offset + other.storageSize ≤ fd.offset := by
  have related : fields.Pairwise fun fd later => fd ≠ later →
      fd.offset + fd.storageSize ≤ later.offset ∨
        later.offset + later.storageSize ≤ fd.offset :=
    laid.inOrder.imp fun before _ => Or.inl before
  have flipped : fields.Pairwise fun fd earlier => earlier ≠ fd →
      earlier.offset + earlier.storageSize ≤ fd.offset ∨
        fd.offset + fd.storageSize ≤ earlier.offset :=
    laid.inOrder.imp fun before _ => Or.inr before
  exact related.forall_of_forall_of_flip (fun _ _ differ => absurd rfl differ)
    flipped member member' differ

/-- A field that is stored has the value it was stored with. -/
theorem encodeField_store
    (laid : LaidOut fields 0 size) (sub : fields'.Sublist fields)
    (sized : base.length = size) (source : List UInt8) (member : fd ∈ fields') :
    encodeField fd
        (storeFields fields' base (encodeFields fields' source)) =
      encodeField fd source := by
  have compatible := (laid.sublist sub).compatible
    (encodeFields fields' source)
  rw [← sized] at compatible
  rw [storeFields_eq_writePatches]
  have written := writePatches_writes_iff.mpr compatible
  rw [fieldPatches_encodeFields] at written ⊢
  refine encodeField_of_writtenIn ?_
    (written _ (List.mem_map_of_mem member))
  have stored := laid.fieldSize_le (sub.subset member)
  have inside := laid.inside fd (sub.subset member)
  rw [length_writePatches, sized]
  exact Or.inl (by omega)

/-- A field that is not stored keeps its value. -/
theorem encodeField_store_of_not_mem
    (laid : LaidOut fields 0 size) (sub : fields'.Sublist fields)
    (sized : base.length = size) (source : List UInt8) (member : fd ∈ fields)
    (unstored : fd ∉ fields') :
    encodeField fd
        (storeFields fields' base (encodeFields fields' source)) =
      encodeField fd base := by
  have stored := laid.fieldSize_le member
  have inside := laid.inside fd member
  rw [storeFields_eq_writePatches, fieldPatches_encodeFields]
  apply encodeField_congr
  rw [FieldDescriptor.bytesOf_eq_window (by rw [length_writePatches]; omega),
    FieldDescriptor.bytesOf_eq_window (by omega)]
  apply List.ext_getElem?
  intro i
  rw [getElem?_window, getElem?_window]
  split
  · apply getElem?_writePatches_outside
    intro patch inPatches covers
    obtain ⟨other, member', rfl⟩ := List.mem_map.mp inPatches
    have otherStored := laid.fieldSize_le (sub.subset member')
    have differ : fd ≠ other := fun same => unstored (same ▸ member')
    unfold Patch.Covers at covers
    dsimp only at covers
    rw [length_encodeField] at covers
    obtain before | after := laid.apart member (sub.subset member') differ
    · omega
    · omega
  · rfl

end LaidOut

/-- A mask made by a predicate selects the fields that satisfy it. -/
theorem maskedFields_map (fields : List FieldDescriptor)
    (select : FieldDescriptor → Bool) :
    maskedFields fields (fields.map select) = fields.filter select := by
  induction fields with
  | nil => rfl
  | cons fd fields inductionHypothesis =>
      rw [List.map_cons, List.filter_cons, maskedFields, inductionHypothesis]

/-! ## Buckets -/

/-- One of the buckets has the field. -/
def FieldDescriptor.CarriedBy (fd : FieldDescriptor)
    (buckets : List SyncBucket) : Prop :=
  fd.isSent = true ∧
    ∃ bucket ∈ buckets, priorityInterval fd.syncPriority = bucket.2.1

instance (fd : FieldDescriptor) (buckets : List SyncBucket) :
    Decidable (fd.CarriedBy buckets) :=
  inferInstanceAs (Decidable (_ ∧ _))

variable {registry : ComponentRegistry} {t : ComponentTypeId}
variable {schema : ComponentSchema}

/-- A bucket has the sent fields of its interval. -/
theorem FieldSyncPlan.bucket_fields
    (registered : registry.schemaOf t = some schema) {bucket : SyncBucket}
    (member : bucket ∈ (syncPlanFor registry t).buckets) :
    maskedFields schema.fields bucket.2.2 = schema.fields.filter fun fd =>
      fd.isSent && decide (priorityInterval fd.syncPriority = bucket.2.1) := by
  obtain ⟨entry, inPlan, rfl⟩ := List.mem_map.mp member
  have inZip := List.fst_mem_of_mem_zipIdx inPlan
  unfold syncPlanFor at inZip
  rw [registered] at inZip
  dsimp only at inZip
  have masked : ∀ (intervals : List ℚ) (maskOf : ℚ → List Bool),
      entry.1 ∈ intervals.zip (intervals.map maskOf) →
      entry.1.2 = maskOf entry.1.1 := by
    intro intervals maskOf
    induction intervals with
    | nil => exact fun none => absurd none List.not_mem_nil
    | cons interval intervals inductionHypothesis =>
        rw [List.map_cons, List.zip_cons_cons, List.mem_cons]
        rintro (same | later)
        · rw [same]
        · exact inductionHypothesis later
  rw [masked _ _ inZip]
  exact maskedFields_map _ _

/-- Storing buckets gives the fields they have the value in `data`, and leaves
all others alone. -/
theorem encodeField_storeBuckets
    (laid : LaidOut schema.fields 0 schema.size)
    (registered : registry.schemaOf t = some schema)
    {buckets : List SyncBucket}
    (ofPlan : ∀ bucket ∈ buckets, bucket ∈ (syncPlanFor registry t).buckets)
    {fd : FieldDescriptor} (member : fd ∈ schema.fields) (data : List UInt8)
    {inst : List UInt8} (sized : inst.length = schema.size) :
    encodeField fd
        (storeBuckets schema inst (buckets.map (bucketRecordOf schema data))) =
      if fd.CarriedBy buckets then encodeField fd data
      else encodeField fd inst := by
  induction buckets generalizing inst with
  | nil =>
      rw [if_neg]
      · rfl
      · rintro ⟨_, _, none, _⟩
        exact absurd none List.not_mem_nil
  | cons bucket buckets inductionHypothesis =>
      have fields := FieldSyncPlan.bucket_fields registered
        (ofPlan bucket List.mem_cons_self)
      have selected : fd ∈ maskedFields schema.fields bucket.2.2 ↔
          fd.isSent = true ∧
            priorityInterval fd.syncPriority = bucket.2.1 := by
        rw [fields, List.mem_filter, and_iff_right member, Bool.and_eq_true,
          decide_eq_true_iff]
      have sub := maskedFields_sublist schema.fields bucket.2.2
      have stepEq : storeBuckets schema inst
          ((bucket :: buckets).map (bucketRecordOf schema data)) =
          storeBuckets schema
            (storeFields (maskedFields schema.fields bucket.2.2) inst
              (encodeFields (maskedFields schema.fields bucket.2.2) data))
            (buckets.map (bucketRecordOf schema data)) := rfl
      rw [stepEq, inductionHypothesis
        (fun later inLater => ofPlan later (List.mem_cons_of_mem bucket inLater))
        (by rw [length_storeFields, sized])]
      by_cases later : fd.CarriedBy buckets
      · have carried : fd.CarriedBy (bucket :: buckets) :=
          ⟨later.1, later.2.imp fun _ both =>
            ⟨List.mem_cons_of_mem bucket both.1, both.2⟩⟩
        rw [if_pos later, if_pos carried]
      · rw [if_neg later]
        by_cases here : fd ∈ maskedFields schema.fields bucket.2.2
        · have carried : fd.CarriedBy (bucket :: buckets) :=
            ⟨(selected.mp here).1, bucket, List.mem_cons_self,
              (selected.mp here).2⟩
          rw [if_pos carried]
          exact laid.encodeField_store sub sized data here
        · rw [if_neg]
          · exact laid.encodeField_store_of_not_mem sub sized data member here
          · rintro ⟨sent, other, inBuckets, interval⟩
            obtain rfl | inLater := List.mem_cons.mp inBuckets
            · exact here (selected.mpr ⟨sent, interval⟩)
            · exact later ⟨sent, other, inLater, interval⟩

/-! ## Deltas -/

/-- The value of a field of a component, zeros if the component is not there. -/
def Components.valueOf (registry : ComponentRegistry) (components : Components)
    (t : ComponentTypeId) (fd : FieldDescriptor) : List UInt8 :=
  encodeField fd
    ((components t).getD (List.replicate (registry.sizeOf t) 0))

/-- Records of one component leave the others. -/
theorem Components.receiveDelta_other
    (components : Components) {u : ComponentTypeId} (records : List BucketRecord)
    (other : t ≠ u) :
    components.receiveDelta registry (.buckets u records) t = components t := by
  unfold receiveDelta
  dsimp only
  cases registry.schemaOf u with
  | none => rfl
  | some schema => exact if_neg other

/-- They do the same to the same component. -/
theorem Components.receiveDelta_congr
    {components components' : Components} (records : List BucketRecord)
    (same : components t = components' t) :
    components.receiveDelta registry (.buckets t records) t =
      components'.receiveDelta registry (.buckets t records) t := by
  unfold receiveDelta
  dsimp only
  cases registry.schemaOf t with
  | none => exact same
  | some schema =>
      dsimp only [put]
      rw [if_pos rfl, if_pos rfl, same]

namespace World

variable {w : World} {r : Replication} {e : Entity}

variable (registry w r e t) in
/-- A delta does to a component what it says about it. -/
theorem receive_deltaComponents
    {types : List ComponentTypeId} (once : types.Nodup) (held : Components) :
    (w.deltaComponents registry r e types).foldl
        (Components.receiveDelta registry) held t =
      match (if t ∈ types then w.deltaComponent registry r.elapsedTime e
        (r.ticksOf e t) t else none) with
      | none => held t
      | some component => held.receiveDelta registry component t := by
  induction types generalizing held with
  | nil => rfl
  | cons u types inductionHypothesis =>
      rw [List.nodup_cons] at once
      have later := inductionHypothesis once.2
      unfold deltaComponents at later ⊢
      rw [List.filterMap_cons]
      by_cases isHere : t = u
      · subst isHere
        rw [if_pos List.mem_cons_self]
        cases said : w.deltaComponent registry r.elapsedTime e
            (r.ticksOf e t) t with
        | none =>
            dsimp only
            rw [later held, if_neg once.1]
        | some component =>
            dsimp only
            rw [List.foldl_cons, later, if_neg once.1]
      · have sameMember : t ∈ u :: types ↔ t ∈ types := by
          rw [List.mem_cons, or_iff_right isHere]
        rw [if_congr sameMember rfl rfl]
        cases said : w.deltaComponent registry r.elapsedTime e
            (r.ticksOf e u) u with
        | none => exact later held
        | some component =>
            obtain ⟨_, _, _, _, _, _, _, rfl⟩ := deltaComponent_eq_some.mp said
            dsimp only
            rw [List.foldl_cons, later]
            cases saidHere : (if t ∈ types then w.deltaComponent registry
                r.elapsedTime e (r.ticksOf e t) t else none) with
            | none => exact held.receiveDelta_other _ isHere
            | some component =>
                split at saidHere
                · obtain ⟨_, _, _, _, _, _, _, rfl⟩ :=
                    deltaComponent_eq_some.mp saidHere
                  exact Components.receiveDelta_congr _
                    (held.receiveDelta_other _ isHere)
                · exact absurd saidHere (by simp)

instance (t : ComponentTypeId) : Decidable (w.Carries registry r e t) :=
  inferInstanceAs (Decidable (_ ∧ _))

/-- A delta gives the fields of the buckets that are due the value they have on
the server, and leaves all others alone. -/
theorem receive_saidAbout_valueOf
    (consistent : w.store.Consistent registry) (sets : r.DirtySets)
    {held : Components} (laid : LaidOut schema.fields 0 schema.size)
    (registered : registry.schemaOf t = some schema)
    (sized : ∀ inst, held t = some inst → inst.length = schema.size)
    {fd : FieldDescriptor} (member : fd ∈ schema.fields) :
    ((w.saidAbout registry r e).foldl (Components.receiveDelta registry)
        held).valueOf registry t fd =
      if w.Carries registry r e t ∧ fd.CarriedBy
          ((syncPlanFor registry t).due (r.ticksOf e t) r.elapsedTime) then
        encodeField fd
          ((w.getRaw e t).getD (List.replicate (registry.sizeOf t) 0))
      else held.valueOf registry t fd := by
  have sizeEq : registry.sizeOf t = schema.size :=
    ComponentRegistry.sizeOf_of_schemaOf registered
  have baseSized : ((held t).getD
      (List.replicate schema.size 0)).length = schema.size := by
    cases found : held t with
    | none => exact List.length_replicate
    | some inst => exact sized inst found
  by_cases carries : w.Carries registry r e t
  · obtain ⟨isDirty, inTypes, due⟩ := carries
    obtain ⟨here, networked⟩ := mem_networkedOf.mp inTypes
    obtain ⟨_, data, known, found⟩ := getRaw_of_mem_types consistent here
    have alive := alive_of_replicates (List.ne_nil_of_mem inTypes)
    have said : w.deltaComponent registry r.elapsedTime e (r.ticksOf e t) t =
        some (.buckets t (((syncPlanFor registry t).due (r.ticksOf e t)
          r.elapsedTime).map (bucketRecordOf schema data))) :=
      deltaComponent_eq_some.mpr ⟨networked,
        (has_iff_mem_types consistent).mpr here, schema, data, registered,
        found, due, rfl⟩
    have after := receive_deltaComponents registry t w r e (sets e) held
    rw [if_pos isDirty, said] at after
    dsimp only at after
    have stored : (held.receiveDelta registry (.buckets t
        (((syncPlanFor registry t).due (r.ticksOf e t) r.elapsedTime).map
          (bucketRecordOf schema data)))) t =
        some (storeBuckets schema ((held t).getD
          (List.replicate schema.size 0))
          (((syncPlanFor registry t).due (r.ticksOf e t) r.elapsedTime).map
            (bucketRecordOf schema data))) := by
      unfold Components.receiveDelta
      dsimp only
      rw [registered]
      exact if_pos rfl
    have ofPlan : ∀ bucket ∈ (syncPlanFor registry t).due (r.ticksOf e t)
        r.elapsedTime, bucket ∈ (syncPlanFor registry t).buckets :=
      fun _ isDue => List.mem_of_mem_filter isDue
    unfold Components.valueOf saidAbout
    rw [if_pos alive, after, stored, Option.getD_some, found, Option.getD_some,
      sizeEq, encodeField_storeBuckets laid registered ofPlan member data
        baseSized]
    exact if_congr (and_iff_right ⟨isDirty, inTypes, due⟩).symm rfl rfl
  · rw [if_neg fun both => carries both.1]
    have same : (w.saidAbout registry r e).foldl
        (Components.receiveDelta registry) held t = held t := by
      unfold saidAbout
      split
      · refine (receive_deltaComponents registry t w r e (sets e) held).trans ?_
        split
        · rfl
        · rename_i said
          split at said
          · rename_i isDirty
            obtain ⟨networked, has, _, _, _, _, due, _⟩ :=
              deltaComponent_eq_some.mp said
            exact absurd ⟨isDirty, mem_networkedOf.mpr
              ⟨(has_iff_mem_types consistent).mp has, networked⟩, due⟩ carries
          · exact absurd said (by simp)
      · rfl
    unfold Components.valueOf
    rw [same]

end World
end VortarisECS
