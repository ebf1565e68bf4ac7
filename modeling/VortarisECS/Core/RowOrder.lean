import VortarisECS.Core.DeferredExecution
import VortarisECS.Core.FiniteMap

/-!
# Row order

The entities with one component set, in the order of their rows.  An entity that
enters a set comes last; one that leaves it is replaced by the last.
-/

namespace VortarisECS
namespace ArchetypeStore

variable {registry : ComponentRegistry} {s s' : ArchetypeStore}

/-- The entities with exactly these components, in row order. -/
def rows (s : ArchetypeStore) (ids : List ComponentTypeId) : List Entity :=
  match s.archetypes.lookup ids with
  | none => []
  | some p => (s.deref p).entities

/-- The rows of a set are those of its archetype. -/
theorem rows_of_listed
    (consistent : s.Consistent registry) {p : Ptr}
    (listed : p ∈ s.archetypeList) :
    s.rows (s.deref p).componentIds = (s.deref p).entities := by
  unfold rows
  rw [(consistent.keyed _ p).mpr ⟨listed, rfl⟩]

/-- A set without an archetype has no rows. -/
theorem rows_of_unlisted
    (consistent : s.Consistent registry) {ids : List ComponentTypeId}
    (unlisted : ∀ p ∈ s.archetypeList, (s.deref p).componentIds ≠ ids) :
    s.rows ids = [] := by
  unfold rows
  cases found : s.archetypes.lookup ids with
  | none => rfl
  | some p =>
      obtain ⟨listed, idsEq⟩ := (consistent.keyed ids p).mp found
      exact absurd idsEq (unlisted p listed)

/-- Either no archetype has the set, or one does and holds its rows. -/
theorem rows_cases
    (consistent : s.Consistent registry) (ids : List ComponentTypeId) :
    (∃ p ∈ s.archetypeList, (s.deref p).componentIds = ids ∧
      s.rows ids = (s.deref p).entities) ∨
    (∀ p ∈ s.archetypeList, (s.deref p).componentIds ≠ ids) ∧
      s.rows ids = [] := by
  by_cases exists' : ∃ p ∈ s.archetypeList, (s.deref p).componentIds = ids
  · obtain ⟨p, listed, rfl⟩ := exists'
    exact Or.inl ⟨p, listed, rfl, rows_of_listed consistent listed⟩
  · have unlisted : ∀ p ∈ s.archetypeList, (s.deref p).componentIds ≠ ids :=
      fun p listed idsEq => exists' ⟨p, listed, idsEq⟩
    exact Or.inr ⟨unlisted, rows_of_unlisted consistent unlisted⟩

/-- An entity is in the rows of its components. -/
theorem mem_rows_iff
    (consistent : s.Consistent registry) {ids : List ComponentTypeId}
    {e : Entity} : e ∈ s.rows ids ↔ s.typesOf e = some ids := by
  constructor
  · intro member
    obtain ⟨p, listed, idsEq, rowsEq⟩ | ⟨_, rowsEq⟩ := rows_cases consistent ids
    · rw [rowsEq] at member
      obtain ⟨r, found⟩ := List.mem_iff_getElem?.mp member
      have location := (consistent.located e p r).mpr ⟨listed, found⟩
      rw [typesOf_of_location location, idsEq]
    · rw [rowsEq] at member
      exact absurd member List.not_mem_nil
  · intro types
    obtain ⟨loc, location, idsEq⟩ := Option.map_eq_some_iff.mp types
    rw [← idsEq, rows_of_listed consistent (consistent.listed location)]
    exact List.mem_of_getElem? (consistent.inRow location)

/-- It is there once. -/
theorem rows_nodup
    (consistent : s.Consistent registry) (ids : List ComponentTypeId) :
    (s.rows ids).Nodup := by
  obtain ⟨p, listed, _, rowsEq⟩ | ⟨_, rowsEq⟩ := rows_cases consistent ids
  · rw [rowsEq, List.nodup_iff_injective_getElem]
    intro i j same
    apply Fin.ext
    apply Archetype.entities_inj (consistent.wellFormed p listed)
      (e := (s.deref p).entities[i])
    · exact List.getElem?_eq_getElem i.isLt
    · rw [List.getElem?_eq_getElem j.isLt]
      exact congrArg some same.symm
  · rw [rowsEq]
    exact List.nodup_nil

/-! ## All rows -/

/-- The entities of all archetypes, in an order of the archetypes. -/
def listing (s : ArchetypeStore) (order : List Ptr) : List Entity :=
  order.flatMap fun p => (s.deref p).entities

/-- A listing has the entities that are alive. -/
theorem mem_listing_iff
    (consistent : s.Consistent registry) {order : List Ptr}
    (perm : order.Perm s.archetypeList) {e : Entity} :
    e ∈ s.listing order ↔ s.isAlive e = true := by
  unfold listing
  rw [List.mem_flatMap, isAlive_iff]
  constructor
  · rintro ⟨p, member, inRows⟩
    obtain ⟨r, found⟩ := List.mem_iff_getElem?.mp inRows
    exact ⟨⟨p, r⟩,
      (consistent.located e p r).mpr ⟨perm.mem_iff.mp member, found⟩⟩
  · rintro ⟨loc, location⟩
    exact ⟨loc.archetype, perm.mem_iff.mpr (consistent.listed location),
      List.mem_of_getElem? (consistent.inRow location)⟩

/-- It has each of them once. -/
theorem listing_nodup
    (consistent : s.Consistent registry) {order : List Ptr}
    (perm : order.Perm s.archetypeList) : (s.listing order).Nodup := by
  unfold listing
  rw [List.nodup_flatMap]
  constructor
  · intro p member
    have listed := perm.mem_iff.mp member
    rw [← rows_of_listed consistent listed]
    exact rows_nodup consistent _
  · have once : order.Nodup := perm.nodup_iff.mpr consistent.listedOnce
    apply List.Pairwise.imp_of_mem ?_ once
    intro p q memberP memberQ other e inP inQ
    obtain ⟨r, foundP⟩ := List.mem_iff_getElem?.mp inP
    obtain ⟨r', foundQ⟩ := List.mem_iff_getElem?.mp inQ
    have atP := (consistent.located e p r).mpr
      ⟨perm.mem_iff.mp memberP, foundP⟩
    have atQ := (consistent.located e q r').mpr
      ⟨perm.mem_iff.mp memberQ, foundQ⟩
    rw [atP] at atQ
    exact other (congrArg EntityLocation.archetype (Option.some.inj atQ))

/-- Every live entity is listed once. -/
theorem listing_perm
    (consistent : s.Consistent registry) {order : List Ptr}
    (perm : order.Perm s.archetypeList) :
    (s.listing order).Perm s.entityLocations.keys := by
  rw [List.perm_ext_iff_of_nodup (listing_nodup consistent perm)
    s.entityLocations.keys_nodup]
  intro e
  rw [mem_listing_iff consistent perm, ← AList.mem_keys, ← AList.lookup_isSome]
  rfl

/-- A listing is as long as there are entities. -/
theorem listing_length
    (consistent : s.Consistent registry) {order : List Ptr}
    (perm : order.Perm s.archetypeList) :
    (s.listing order).length = s.entityLocations.size :=
  (listing_perm consistent perm).length_eq

/-! ## Operations -/

theorem rows_congr
    (directory : s'.archetypes = s.archetypes)
    (entities : ∀ p, (s'.deref p).entities = (s.deref p).entities)
    (ids : List ComponentTypeId) : s'.rows ids = s.rows ids := by
  unfold rows
  rw [directory]
  cases s.archetypes.lookup ids with
  | none => rfl
  | some p => exact entities p

/-- A new archetype has no rows. -/
theorem ensureArchetype_rows
    (consistent : s.Consistent registry) (ids ids' : List ComponentTypeId) :
    (s.ensureArchetype registry ids).1.rows ids' = s.rows ids' := by
  unfold ensureArchetype
  cases found : s.archetypes.lookup ids with
  | some p => rfl
  | none =>
      change (match (s.archetypes.insert ids s.heap.length).lookup ids' with
        | none => []
        | some p =>
            ((s.createArchetype registry ids).1.deref p).entities) = _
      unfold rows
      rw [AList.lookup_insert_if]
      by_cases same : ids' = ids
      · rw [if_pos same, same, found]
        exact createArchetype_entities registry s ids
      · rw [if_neg same]
        cases known : s.archetypes.lookup ids' with
        | none => rfl
        | some p =>
            have valid := consistent.listedValid p
              ((consistent.keyed ids' p).mp known).1
            exact congrArg Archetype.entities
              (createArchetype_deref registry s ids valid)

/-- An entity that is attached is the last row of its set. -/
theorem Attached.rows
    {p : Ptr} {e : Entity} {a' : Archetype}
    (attached : Attached registry s s' p e a')
    (consistent : s.Consistent registry) (listed : p ∈ s.archetypeList)
    (ids : List ComponentTypeId) :
    s'.rows ids =
      if ids = (s.deref p).componentIds then s.rows ids ++ [e]
      else s.rows ids := by
  have found := (consistent.keyed _ p).mpr ⟨listed, rfl⟩
  unfold ArchetypeStore.rows
  rw [attached.archetypes_eq]
  by_cases here : ids = (s.deref p).componentIds
  · rw [if_pos here, here, found]
    dsimp only
    rw [attached.deref_eq, if_pos rfl, attached.entities_eq]
  · rw [if_neg here]
    cases known : s.archetypes.lookup ids with
    | none => rfl
    | some q =>
        have other : q ≠ p := by
          rintro rfl
          exact here ((consistent.keyed ids q).mp known).2.symm
        dsimp only
        rw [attached.deref_eq, if_neg other]

/-- The last row takes the place of the one that leaves. -/
theorem detach_rows
    {e : Entity} {loc : EntityLocation}
    (consistent : s.Consistent registry)
    (location : s.entityLocations.lookup e = some loc)
    (ids : List ComponentTypeId) :
    (s.detach e loc).rows ids =
      if ids = (s.deref loc.archetype).componentIds then
        swapRemove (s.rows ids) loc.row
      else s.rows ids := by
  have found := (consistent.keyed _ loc.archetype).mpr
    ⟨consistent.listed location, rfl⟩
  unfold rows
  rw [detach_archetypes]
  by_cases here : ids = (s.deref loc.archetype).componentIds
  · rw [if_pos here, here, found]
    dsimp only
    rw [detach_deref consistent location, if_pos rfl]
    exact Archetype.removeEntity_entities (consistent.archetypeOf location)
      (consistent.inRow location)
  · rw [if_neg here]
    cases known : s.archetypes.lookup ids with
    | none => rfl
    | some q =>
        have other : q ≠ loc.archetype := by
          rintro rfl
          exact here ((consistent.keyed ids _).mp known).2.symm
        dsimp only
        rw [detach_deref consistent location, if_neg other]

/-- A moved entity leaves one set and comes last in the other. -/
theorem relocate_rows
    {e : Entity} {loc : EntityLocation} {target : Ptr}
    (consistent : s.Consistent registry)
    (location : s.entityLocations.lookup e = some loc)
    (listed : target ∈ s.archetypeList) (moves : loc.archetype ≠ target)
    (tick : Nat) (ids : List ComponentTypeId) :
    (s.relocate registry e loc target tick).1.rows ids =
      if ids = (s.deref target).componentIds then s.rows ids ++ [e]
      else if ids = (s.deref loc.archetype).componentIds then
        swapRemove (s.rows ids) loc.row
      else s.rows ids := by
  have attached := relocate_attached consistent location listed moves tick
  have detached := detach_consistent consistent location
  have listedAfter : target ∈ (s.detach e loc).archetypeList := by
    rw [detach_archetypeList]
    exact listed
  rw [attached.rows detached listedAfter, detach_componentIds consistent location,
    detach_rows consistent location]
  by_cases here : ids = (s.deref target).componentIds
  · have notSource : ids ≠ (s.deref loc.archetype).componentIds := by
      intro same
      exact moves (consistent.ptr_unique (consistent.listed location) listed
        (same.symm.trans here))
    rw [if_pos here, if_pos here, if_neg notSource]
  · rw [if_neg here, if_neg here]

end ArchetypeStore

namespace World

variable {registry : ComponentRegistry} {w : World}
variable {e : Entity} {t : ComponentTypeId} {loc : EntityLocation}

/-- A new entity is the last row of those without components. -/
theorem enterEmpty_rows
    (consistent : w.store.Consistent registry)
    (dead : w.store.entityLocations.lookup e = none)
    (ids : List ComponentTypeId) :
    (w.enterEmpty e).store.rows ids =
      if ids = [] then w.store.rows ids ++ [e] else w.store.rows ids := by
  have attached := ArchetypeStore.addTo_attached consistent
    consistent.emptyListed dead w.changeTick
  have rows := attached.rows consistent consistent.emptyListed ids
  rw [consistent.emptyIds] at rows
  exact rows

/-- A write moves no row. -/
theorem writeComponent_rows
    (w : World) (e : Entity) (loc : EntityLocation) (t : ComponentTypeId)
    (bytes : List UInt8) (ids : List ComponentTypeId) :
    (w.writeComponent e loc t bytes).store.rows ids = w.store.rows ids := by
  unfold writeComponent
  rw [stampWrite_store]
  apply ArchetypeStore.rows_congr
  · rfl
  · intro p
    have written := modifyColumn_entities w loc t
      (fun c => c.setRow loc.row bytes) p
    exact (modifyColumn_entities _ _ _ _ p).trans written

theorem writeRaw_rows
    (w : World) (e : Entity) (t : ComponentTypeId) (bytes : List UInt8)
    (ids : List ComponentTypeId) :
    (w.writeRaw e t bytes).store.rows ids = w.store.rows ids := by
  unfold writeRaw
  split
  · rfl
  · split
    · apply ArchetypeStore.rows_congr
      · rfl
      · exact modifyColumn_entities _ _ _ _
    · rfl

/-- A move takes an entity from one set to the end of another. -/
theorem moveToSet_rows
    (consistent : w.store.Consistent registry)
    (location : w.store.entityLocations.lookup e = some loc)
    {target : List ComponentTypeId} (ascending : target.Pairwise (· < ·))
    (registered : ∀ t ∈ target, (registry.schemaOf t).isSome)
    (differs : (w.store.deref loc.archetype).componentIds ≠ target)
    (ids : List ComponentTypeId) :
    (w.moveToSet registry e loc target).1.store.rows ids =
      if ids = target then w.store.rows ids ++ [e]
      else if ids = (w.store.deref loc.archetype).componentIds then
        swapRemove (w.store.rows ids) loc.row
      else w.store.rows ids := by
  obtain ⟨ensuredConsistent, extends', listed, idsEq⟩ :=
    ArchetypeStore.ensureArchetype_spec consistent ascending registered
  have locationAfter :
      (w.store.ensureArchetype registry target).1.entityLocations.lookup e =
        some loc := by
    rw [extends'.locations_eq]
    exact location
  have sourceEq :=
    extends'.deref_eq loc.archetype (consistent.valid location)
  have moves : loc.archetype ≠
      (w.store.ensureArchetype registry target).2 := by
    intro same
    rw [← same, sourceEq] at idsEq
    exact differs idsEq
  have relocated := ArchetypeStore.relocate_rows ensuredConsistent locationAfter
    listed moves w.changeTick ids
  rw [idsEq, sourceEq, ArchetypeStore.ensureArchetype_rows consistent]
    at relocated
  exact relocated

/-- After a clear no set has rows. -/
theorem clear_rows
    (stable : w.Stable registry) (outside : w.inIteration = false)
    (ids : List ComponentTypeId) : w.clear.state.store.rows ids = [] := by
  have consistent : w.clear.state.store.Consistent registry :=
    (stable.keeps clear_realizes (clear_createsNothing w)).consistent
  have emptied := clear_contents stable outside
  rw [List.eq_nil_iff_forall_not_mem]
  intro e member
  rw [ArchetypeStore.mem_rows_iff consistent] at member
  obtain ⟨loc, location, _⟩ := Option.map_eq_some_iff.mp member
  have alive := isAlive_of_location consistent location
  rw [← contents_isSome, emptied] at alive
  exact absurd alive (by simp)

/-! ## An entity in the last row -/

/-- The entity has the components `ids` and the last row among those that do;
without it the rows are `front`. -/
structure Tail (w : World) (e : Entity) (ids : List ComponentTypeId)
    (front : List ComponentTypeId → List Entity) : Prop where
  types : w.store.typesOf e = some ids
  rows : ∀ ids', w.store.rows ids' =
    if ids' = ids then front ids' ++ [e] else front ids'

/-- An entity in the last row that gains a component comes last there, and
leaves no trace behind. -/
theorem Tail.addRaw
    {ids : List ComponentTypeId} {front : List ComponentTypeId → List Entity}
    (tail : w.Tail e ids front) (consistent : w.store.Consistent registry)
    (idle : w.Idle) (registered : (registry.schemaOf t).isSome)
    (absent : t ∉ ids) (data : Option (List UInt8)) :
    (w.addRaw registry e t data).state.Tail e (sortIds (ids ++ [t])) front := by
  obtain ⟨loc, location, idsEq⟩ := Option.map_eq_some_iff.mp tail.types
  obtain ⟨schema, registered'⟩ := Option.isSome_iff_exists.mp registered
  have alive := isAlive_of_location consistent location
  rw [← idsEq] at absent
  obtain ⟨ascending, idsRegistered, differs⟩ := insertedIds_spec
    (consistent.archetypeOf location) absent registered
  obtain ⟨movedConsistent, newLocation, newIds⟩ := moveToSet_location
    consistent location ascending idsRegistered differs
  have isLast : loc.row + 1 = (w.store.rows ids).length := by
    have inRow := consistent.inRow location
    have rowsEq := ArchetypeStore.rows_of_listed consistent
      (consistent.listed location)
    rw [idsEq] at rowsEq
    have ends := tail.rows ids
    rw [if_pos rfl] at ends
    have lastRow : (w.store.deref loc.archetype).entities[(front ids).length]? =
        some e := by
      rw [← rowsEq, ends, List.getElem?_append_right (Nat.le_refl _),
        Nat.sub_self]
      rfl
    have sameRow := Archetype.entities_inj (consistent.archetypeOf location)
      inRow lastRow
    rw [ends, List.length_append, sameRow]
    rfl
  rw [addRaw_moves data alive registered' location idle.immediate absent
    idle.outside]
  rw [← idsEq]
  have storeEq : ∀ v : World, v.invalidateCache.store = v.store := fun v =>
    (agrees_invalidateCache v : Agrees registry _ _).store_eq
  constructor
  · dsimp only
    rw [storeEq, writeComponent_typesOf,
      ArchetypeStore.typesOf_of_location newLocation, newIds]
  · intro ids'
    dsimp only
    rw [storeEq, writeComponent_rows, moveToSet_rows consistent location
      ascending idsRegistered differs, idsEq]
    have before := tail.rows ids'
    by_cases here : ids' = sortIds (ids ++ [t])
    · have notSource : ids' ≠ ids := by
        rw [here, ← idsEq]
        exact differs.symm
      rw [if_neg notSource] at before
      rw [if_pos here, if_pos here, before]
    · rw [if_neg here, if_neg here]
      by_cases source : ids' = ids
      · rw [if_pos source] at before
        rw [if_pos source, swapRemove_last _ _ (by rw [source]; exact isLast),
          before, List.dropLast_concat]
      · rw [if_neg source] at before
        rw [if_neg source, before]

end World
end VortarisECS
