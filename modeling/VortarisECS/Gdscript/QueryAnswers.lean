import VortarisECS.Core.WriteVersions
import VortarisECS.Gdscript.EnabledRuns

/-!
# The answers of queries

What a query asks of an entity, without archetypes and rows: the components of
its terms, its filters, and that one of the changed components has a version
after the baseline.  `execute` answers with the entities it is true of, each
once and in the order asked for.
-/

namespace VortarisECS

namespace VECSQueryBuilder

variable (engine : Engine) (registry : ComponentRegistry)
  (b : VECSQueryBuilder) (w : World)

/-- The entity is alive and has the components that the terms ask for. -/
structure Matches (e : Entity) : Prop where
  alive : w.isAlive e = true
  all : ∀ t ∈ b.all, w.has e t = true
  any : b.any = [] ∨ ∃ t ∈ b.any, w.has e t = true
  none : ∀ t ∈ b.none, ¬w.has e t = true

/-- The entity passes the filters for rows. -/
structure Passes (e : Entity) : Prop where
  enabled : b.enabledOnly = true → w.isEnabled e = true
  fields : b.matchesFieldEquals engine registry w e = true
  predicate : ∀ predicate ∈ b.where_, predicate e = true

/-- A changed component of the entity has a version after the baseline once its
column is tracked. -/
def Changed (e : Entity) : Prop :=
  ∃ t ∈ b.changed, ∃ v, (b.prepare w).2.1.version e t = some v ∧
    (b.prepare w).2.2 < v

/-! ## Rows and entities -/

variable {engine registry b w}

/-- An archetype matches if its entities do. -/
theorem compileQuery_matches
    (consistent : w.store.Consistent registry) {e : Entity}
    {loc : EntityLocation}
    (location : w.store.entityLocations.lookup e = some loc) :
    b.compileQuery.matchesArchetype (w.store.deref loc.archetype) = true ↔
      b.Matches w e := by
  have held : ∀ t, w.has e t = true ↔
      t ∈ (w.store.deref loc.archetype).componentIds := fun t => by
    rw [World.has_of_location consistent location,
      Archetype.hasComponent_iff]
  have anySame : sortIds b.any = [] ↔ b.any = [] := by
    simp only [List.eq_nil_iff_forall_not_mem, mem_sortIds]
  rw [Query.matchesArchetype_iff]
  unfold compileQuery
  simp only [mem_sortIds, anySame, ← held]
  constructor
  · rintro ⟨all, any, none⟩
    exact ⟨World.isAlive_of_location consistent location, all, any, none⟩
  · intro matching
    exact ⟨matching.all, matching.any, matching.none⟩

/-- The rows walked are the rows of the matching entities. -/
theorem mem_rows
    (consistent : w.store.Consistent registry) (p : Ptr) (e : Entity)
    (row : Nat) :
    (p, e, row) ∈ b.rows w ↔
      w.store.entityLocations.lookup e = some ⟨p, row⟩ ∧ b.Matches w e := by
  have answer : (b.prepare w).1 = w.store.archetypeList.filter fun p =>
      b.compileQuery.matchesArchetype (w.store.deref p) := by
    rw [b.prepare_arches]
    exact QueryCache.matchQuery_archetypes consistent.cached b.compileQuery
  unfold rows
  rw [answer, List.mem_flatMap]
  constructor
  · rintro ⟨p', matched, inRows⟩
    obtain ⟨entry, isEntry, same⟩ := List.mem_map.mp inRows
    cases same
    obtain ⟨listed, matching⟩ := List.mem_filter.mp matched
    have location := (consistent.located e p row).mpr
      ⟨listed, List.mem_zipIdx_iff_getElem?.mp isEntry⟩
    exact ⟨location, (compileQuery_matches consistent location).mp matching⟩
  · rintro ⟨location, matching⟩
    obtain ⟨listed, inRow⟩ := (consistent.located e p row).mp location
    exact ⟨p, List.mem_filter.mpr ⟨listed,
      (compileQuery_matches consistent location).mpr matching⟩,
      List.mem_map_of_mem (List.mem_zipIdx_iff_getElem?.mpr inRow)⟩

/-- No entity has two rows. -/
theorem rows_nodup (consistent : w.store.Consistent registry) :
    ((b.rows w).map (·.2.1)).Nodup := by
  have answer : (b.prepare w).1 = w.store.archetypeList.filter fun p =>
      b.compileQuery.matchesArchetype (w.store.deref p) := by
    rw [b.prepare_arches]
    exact QueryCache.matchQuery_archetypes consistent.cached b.compileQuery
  have entities : (b.rows w).map (·.2.1) =
      (b.prepare w).1.flatMap fun p => (w.store.deref p).entities := by
    unfold rows
    rw [List.map_flatMap]
    congr 1
    funext p
    rw [List.map_map]
    exact List.zipIdx_map_fst 0 _
  rw [entities, answer]
  have once := ArchetypeStore.listing_nodup consistent (List.Perm.refl _)
  exact once.sublist (List.Sublist.flatMap List.filter_sublist _)

/-! ## Selection -/

/-- A row is accepted if its entity passes. -/
theorem counts_iff
    {p : Ptr} {e : Entity} {row : Nat}
    (location : w.store.entityLocations.lookup e = some ⟨p, row⟩) :
    b.counts engine registry w (p, e, row) = true ↔
      b.Passes engine registry w e := by
  have enabled : w.isEnabled e = (w.store.deref p).getEnabled row :=
    ArchetypeStore.isEnabled_of_location location
  unfold counts acceptsRow
  rw [← enabled, Bool.and_eq_true, Bool.and_eq_true]
  constructor
  · rintro ⟨⟨flag, fields⟩, accepted⟩
    refine ⟨fun asked => ?_, fields, fun predicate isPredicate => ?_⟩
    · rwa [asked, Bool.not_true, Bool.false_or] at flag
    · rwa [Option.mem_def.mp isPredicate] at accepted
  · rintro ⟨flag, fields, accepted⟩
    refine ⟨⟨?_, fields⟩, ?_⟩
    · cases asked : b.enabledOnly with
      | false => rfl
      | true => exact flag asked
    · cases isPredicate : b.where_ with
      | none => rfl
      | some predicate => exact accepted predicate isPredicate

/-! ## Tracking -/

/-- The watched columns of the matched archetypes are tracked. -/
theorem trackChanged_eq (arches : List Ptr) :
    b.trackChanged arches w =
      w.trackColumns (arches.flatMap fun p => b.changed.map (p, ·)) := by
  unfold trackChanged World.trackColumns
  rw [List.foldl_flatMap]
  congr 1
  funext w p
  rw [List.foldl_map]
  rfl

/-- A match writes nothing. -/
theorem matchQuery_tracks (stable : w.Stable registry) (q : Query) :
    World.Tracks registry w (w.matchQuery q).2 :=
  ⟨⟨World.matchQuery_consistent stable.consistent q, stable.pendingSound,
    stable.poolReal⟩, rfl, rfl, fun _ => rfl, rfl, rfl, fun _ _ => Or.inl rfl⟩

/-- Only columns of listed archetypes are tracked. -/
theorem matched_listed
    (consistent : w.store.Consistent registry) (q : Query) :
    ∀ column ∈ (w.matchQuery q).1.flatMap fun p => b.changed.map (p, ·),
      column.1 ∈ w.store.archetypeList := by
  intro column member
  obtain ⟨p, matched, inColumns⟩ := List.mem_flatMap.mp member
  obtain ⟨t, -, rfl⟩ := List.mem_map.mp inColumns
  exact World.listed_of_matched consistent matched

/-- Preparing a query writes nothing. -/
theorem prepare_tracks (stable : w.Stable registry) :
    World.Tracks registry w (b.prepare w).2.1 := by
  have answered := matchQuery_tracks stable b.compileQuery
  unfold prepare
  dsimp only
  split
  · exact answered
  · rw [trackChanged_eq]
    exact answered.trans (World.trackColumns_tracks answered.stable _
      (matched_listed stable.consistent _))

/-- The changed components of the matching entities have versions. -/
theorem prepare_version
    (stable : w.Stable registry) {e : Entity} (matching : b.Matches w e)
    {t : ComponentTypeId} (asked : t ∈ b.changed) (held : w.has e t = true) :
    ((b.prepare w).2.1.version e t).isSome := by
  obtain ⟨⟨p, row⟩, location⟩ := World.location_of_isAlive matching.alive
  have answered := matchQuery_tracks stable b.compileQuery
  have matched : p ∈ (w.matchQuery b.compileQuery).1 := by
    have listed := stable.consistent.listed location
    rw [show (w.matchQuery b.compileQuery).1 = _ from
      QueryCache.matchQuery_archetypes stable.consistent.cached b.compileQuery]
    exact List.mem_filter.mpr ⟨listed,
      (compileQuery_matches stable.consistent location).mpr matching⟩
  have nonempty : b.changed.isEmpty = false :=
    List.isEmpty_eq_false_iff_exists_mem.mpr ⟨t, asked⟩
  unfold prepare
  dsimp only
  rw [nonempty, if_neg Bool.false_ne_true, trackChanged_eq]
  refine World.trackColumns_version answered.stable
    (matched_listed stable.consistent _) (p := p) (r := row)
    (List.mem_flatMap.mpr ⟨p, matched, List.mem_map_of_mem asked⟩) location ?_
  rw [World.has_of_location stable.consistent location] at held
  exact held

/-- A row is changed if the version of the component is later. -/
theorem rowChangedSince_iff
    (consistent : w.store.Consistent registry) {e : Entity}
    {loc : EntityLocation}
    (location : w.store.entityLocations.lookup e = some loc)
    (t : ComponentTypeId) (baseline : Nat) :
    ((w.store.deref loc.archetype).hasComponent t &&
        ((w.store.deref loc.archetype).column t).rowChangedSince loc.row
          baseline) = true ↔
      ∃ v, w.version e t = some v ∧ baseline < v := by
  have cell : w.cell e t = (w.store.deref loc.archetype).cell t loc.row :=
    ArchetypeStore.cell_of_location location t
  unfold World.version
  rw [cell, Bool.and_eq_true, Archetype.hasComponent_iff]
  by_cases held : t ∈ (w.store.deref loc.archetype).componentIds
  · have hasRows := World.columnAt_hasRows consistent location held
    have inRow := Archetype.row_lt (consistent.inRow location)
    rw [Archetype.cell_of_mem held, Option.bind_some]
    unfold World.columnAt at hasRows
    unfold Column.rowChangedSince Column.cellAt
    cases tracked : ((w.store.deref loc.archetype).column t).tracking with
    | false => simp
    | true =>
        rw [hasRows.versions_length tracked]
        simp [held, inRow]
  · rw [Archetype.cell_of_not_mem held]
    simp [held]

/-- A row was written since if its entity has changed. -/
theorem writtenSince_iff
    (stable : w.Stable registry) {p : Ptr} {e : Entity} {row : Nat}
    (location : w.store.entityLocations.lookup e = some ⟨p, row⟩) :
    b.writtenSince w (p, e, row) = true ↔ b.Changed w e := by
  have tracks := prepare_tracks (b := b) stable
  have later := rowChangedSince_iff tracks.stable.consistent
    (tracks.entityLocations_eq ▸ location)
  unfold writtenSince rowChanged Changed
  simp only [List.any_eq_true, later]

/-! ## Answers -/

/-- The entities that are collected. -/
theorem mem_collected
    (stable : w.Stable registry) (e : Entity) :
    (∃ at' ∈ b.rows w, b.selects engine registry w at' = true ∧ at'.2.1 = e) ↔
      b.Matches w e ∧ b.Passes engine registry w e ∧
        (b.changed = [] ∨ b.Changed w e) := by
  have consistent := stable.consistent
  have selects : ∀ {p row}, w.store.entityLocations.lookup e = some ⟨p, row⟩ →
      (b.selects engine registry w (p, e, row) = true ↔
        b.Passes engine registry w e ∧ (b.changed = [] ∨ b.Changed w e)) := by
    intro p row location
    unfold VECSQueryBuilder.selects
    rw [Bool.and_eq_true, Bool.or_eq_true, List.isEmpty_iff,
      writtenSince_iff stable location, counts_iff location]
    exact and_comm
  constructor
  · rintro ⟨⟨p, e', row⟩, isRow, selected, rfl⟩
    obtain ⟨location, matching⟩ := (mem_rows consistent p e' row).mp isRow
    exact ⟨matching, (selects location).mp selected⟩
  · rintro ⟨matching, chosen⟩
    obtain ⟨⟨p, row⟩, location⟩ := World.location_of_isAlive matching.alive
    exact ⟨(p, e, row), (mem_rows consistent p e row).mpr ⟨location, matching⟩,
      (selects location).mpr chosen, rfl⟩

/-- The answer before it is ordered. -/
def collected (engine : Engine) (registry : ComponentRegistry)
    (b : VECSQueryBuilder) (w : World) : List Entity :=
  ((b.rows w).filter (b.selects engine registry w)).map (·.2.1)

/-- The answer is what is collected, sorted. -/
theorem execute_collected :
    (b.execute engine registry w).1 =
      b.sortCollected engine registry (b.prepare w).2.1
        (b.collected engine registry w) := by
  rw [b.execute_sorted]
  unfold collected
  congr 1
  induction b.rows w with
  | nil => rfl
  | cons at' rows inductionHypothesis =>
      rw [List.filterMap_cons, List.filter_cons, inductionHypothesis]
      cases b.selects engine registry w at' <;> rfl

/-- `execute` answers with the entities that match, pass and are changed. -/
theorem mem_execute_iff (stable : w.Stable registry) (e : Entity) :
    e ∈ (b.execute engine registry w).1 ↔
      b.Matches w e ∧ b.Passes engine registry w e ∧
        (b.changed = [] ∨ b.Changed w e) := by
  rw [execute_collected, mem_sortCollected, ← mem_collected stable]
  unfold collected
  simp only [List.mem_map, List.mem_filter, and_assoc]

/-- The value that `order_by` looks at. -/
def orderValue (engine : Engine) (registry : ComponentRegistry)
    (b : VECSQueryBuilder) (w : World) (e : Entity) : Variant :=
  w.getf engine registry e b.orderComp b.orderField .nil

/-- `<` on the values of a field, as `std::stable_sort` requires it. -/
structure StrictWeak (engine : Engine) (value : Entity → Variant) : Prop where
  asymm : ∀ x y, engine.less (value x) (value y) = true →
    engine.less (value y) (value x) = false
  trans : ∀ x y z, engine.less (value y) (value x) = false →
    engine.less (value z) (value y) = false →
    engine.less (value z) (value x) = false

/-- The answer has the entities before ordering, in the order asked for: by id,
or by the value of a field where equal ones stay as they were, or as they
were. -/
structure Ordered (engine : Engine) (registry : ComponentRegistry)
    (b : VECSQueryBuilder) (w : World) (before answer : List Entity) :
    Prop where
  same : answer.Perm before
  byId : b.orderById = true → answer.Pairwise fun x y => x.id < y.id
  byField : b.orderById = false → b.orderComp ≠ "" →
    StrictWeak engine (b.orderValue engine registry w) →
    answer.Pairwise (fun x y => engine.less (b.orderValue engine registry w y)
      (b.orderValue engine registry w x) = false) ∧
    ∀ x y, [x, y].Sublist before →
      engine.less (b.orderValue engine registry w y)
        (b.orderValue engine registry w x) = false → [x, y].Sublist answer
  unordered : b.orderById = false → b.orderComp = "" → answer = before

/-- The builder without an order. -/
def unordered (b : VECSQueryBuilder) : VECSQueryBuilder :=
  { b with orderById := false, orderComp := "" }

end VECSQueryBuilder
end VortarisECS
