import VortarisECS.Core.StoreSteps

/-!
# Taking entities out of rows and putting them in

Destroying an entity swap-removes its row and relocates the entity that was in
the last one; creating one appends a row; moving one does both.  Every entity
other than the one acted on keeps its component set and its cells.
-/

namespace VortarisECS
namespace ArchetypeStore

variable {registry : ComponentRegistry} {s s' : ArchetypeStore}

/-! ## Taking an entity out -/

section Detach

variable {e : Entity} {loc : EntityLocation}

/-- Fixing the moved entity changes locations only. -/
theorem fixMoved_heap (s : ArchetypeStore) (moved : Entity) (row : Nat) :
    (s.fixMoved moved row).heap = s.heap ∧
    (s.fixMoved moved row).archetypes = s.archetypes ∧
    (s.fixMoved moved row).archetypeList = s.archetypeList ∧
    (s.fixMoved moved row).emptyArchetype = s.emptyArchetype ∧
    (s.fixMoved moved row).queryCache = s.queryCache := by
  unfold fixMoved
  split
  · split
    · exact ⟨rfl, rfl, rfl, rfl, rfl⟩
    · exact ⟨rfl, rfl, rfl, rfl, rfl⟩
  · exact ⟨rfl, rfl, rfl, rfl, rfl⟩

/-- The entity that was moved into the hole gets its row. -/
theorem fixMoved_lookup (s : ArchetypeStore) (moved : Entity) (row : Nat)
    (x : Entity) :
    (s.fixMoved moved row).entityLocations.lookup x =
      if x = moved ∧ moved ≠ Entity.null then
        (s.entityLocations.lookup moved).map fun l => { l with row := row }
      else s.entityLocations.lookup x := by
  unfold fixMoved
  by_cases real : moved ≠ Entity.null
  · rw [if_pos real]
    cases located : s.entityLocations.lookup moved with
    | none =>
        by_cases same : x = moved
        · rw [if_pos ⟨same, real⟩, same, located]
          rfl
        · rw [if_neg fun both => same both.1]
    | some l =>
        change (s.entityLocations.insert moved _).lookup x = _
        rw [AList.lookup_insert_if]
        by_cases same : x = moved
        · rw [if_pos same, if_pos ⟨same, real⟩]
          rfl
        · rw [if_neg same, if_neg fun both => same both.1]
  · rw [if_neg real, if_neg fun both => real both.2]

@[simp] theorem fixMoved_deref
    (s : ArchetypeStore) (moved : Entity) (row : Nat) (q : Ptr) :
    (s.fixMoved moved row).deref q = s.deref q := by
  unfold deref
  rw [(fixMoved_heap s moved row).1]

/-- The entity in the last row of a located entity's archetype. -/
theorem last_located
    (consistent : s.Consistent registry)
    (location : s.entityLocations.lookup e = some loc) :
    s.entityLocations.lookup (s.deref loc.archetype).lastEntity =
      some ⟨loc.archetype, (s.deref loc.archetype).entities.length - 1⟩ :=
  (consistent.located _ _ _).mpr
    ⟨consistent.listed location,
      Archetype.lastEntity_eq (consistent.inRow location)⟩

/-- The null handle is in no row. -/
theorem last_ne_null
    (consistent : s.Consistent registry)
    (location : s.entityLocations.lookup e = some loc) :
    (s.deref loc.archetype).lastEntity ≠ Entity.null := by
  intro isNull
  have lastLocation := last_located consistent location
  rw [isNull, consistent.nullDead] at lastLocation
  exact absurd lastLocation (by simp)

/-- Removing the last row removes its entity. -/
theorem last_eq_iff
    (consistent : s.Consistent registry)
    (location : s.entityLocations.lookup e = some loc) :
    (s.deref loc.archetype).lastEntity = e ↔
      loc.row + 1 = (s.deref loc.archetype).entities.length := by
  have bounded := Archetype.row_lt (consistent.inRow location)
  constructor
  · intro same
    have lastLocation := last_located consistent location
    rw [same, location, Option.some.injEq] at lastLocation
    have rowEq := congrArg EntityLocation.row lastLocation
    dsimp only at rowEq
    omega
  · intro isLast
    have lastValue := Archetype.lastEntity_eq (consistent.inRow location)
    have sameRow :
        (s.deref loc.archetype).entities.length - 1 = loc.row := by omega
    rw [sameRow, consistent.inRow location] at lastValue
    exact (Option.some.inj lastValue).symm

/-- Locations once the swap of a removal is accounted for. -/
theorem swapped_lookup
    (consistent : s.Consistent registry)
    (location : s.entityLocations.lookup e = some loc)
    {t : ArchetypeStore}
    (erased : ∀ x, x ≠ e →
      t.entityLocations.lookup x = s.entityLocations.lookup x)
    {x : Entity} (other : x ≠ e) :
    (t.fixMoved ((s.deref loc.archetype).removeEntity e).2
        loc.row).entityLocations.lookup x =
      if x = (s.deref loc.archetype).lastEntity then some loc
      else s.entityLocations.lookup x := by
  have movedEq := Archetype.removeEntity_eq
    (consistent.archetypeOf location) (consistent.inRow location)
  rw [fixMoved_lookup, movedEq]
  dsimp only
  by_cases isLast : loc.row + 1 = (s.deref loc.archetype).entities.length
  · have lastIsSelf := (last_eq_iff consistent location).mpr isLast
    rw [if_pos isLast, if_neg (by simp), lastIsSelf, if_neg other]
    exact erased x other
  · have lastIsOther : (s.deref loc.archetype).lastEntity ≠ e := fun same =>
      isLast ((last_eq_iff consistent location).mp same)
    rw [if_neg isLast]
    by_cases moved : x = (s.deref loc.archetype).lastEntity
    · rw [if_pos ⟨moved, last_ne_null consistent location⟩, if_pos moved,
        erased _ lastIsOther, last_located consistent location]
      rfl
    · rw [if_neg fun both => moved both.1, if_neg moved]
      exact erased x other

/-- One location is gone, and that of the last row is another one. -/
theorem detach_lookup
    (consistent : s.Consistent registry)
    (location : s.entityLocations.lookup e = some loc) (x : Entity) :
    (s.detach e loc).entityLocations.lookup x =
      if x = e then none
      else if x = (s.deref loc.archetype).lastEntity then some loc
      else s.entityLocations.lookup x := by
  by_cases same : x = e
  · subst same
    rw [if_pos rfl]
    unfold detach
    rw [fixMoved_lookup]
    have movedEq := Archetype.removeEntity_eq
      (consistent.archetypeOf location) (consistent.inRow location)
    rw [movedEq]
    dsimp only
    by_cases isLast : loc.row + 1 = (s.deref loc.archetype).entities.length
    · rw [if_pos isLast, if_neg (by simp)]
      exact AList.lookup_erase x _
    · have lastIsOther : (s.deref loc.archetype).lastEntity ≠ x :=
        fun isSelf => isLast ((last_eq_iff consistent location).mp isSelf)
      rw [if_neg isLast, if_neg fun both => lastIsOther both.1.symm]
      exact AList.lookup_erase x _
  · rw [if_neg same]
    apply swapped_lookup consistent location ?_ same
    intro y other
    change (s.entityLocations.erase e).lookup y = _
    rw [AList.lookup_erase_ne other]

/-- One row is gone. -/
theorem detach_deref
    (consistent : s.Consistent registry)
    (location : s.entityLocations.lookup e = some loc) (q : Ptr) :
    (s.detach e loc).deref q =
      if q = loc.archetype then ((s.deref q).removeEntity e).1
      else s.deref q := by
  unfold detach
  rw [fixMoved_deref]
  change (s.modify loc.archetype _).deref q = _
  rw [deref_modify _ (consistent.valid location)]
  by_cases same : q = loc.archetype
  · rw [if_pos same, if_pos same, same]
  · rw [if_neg same, if_neg same]

theorem detach_componentIds
    (consistent : s.Consistent registry)
    (location : s.entityLocations.lookup e = some loc) (q : Ptr) :
    ((s.detach e loc).deref q).componentIds = (s.deref q).componentIds := by
  rw [detach_deref consistent location]
  split
  · exact Archetype.removeEntity_componentIds _ _
  · rfl

@[simp] theorem detach_archetypeList
    (s : ArchetypeStore) (e : Entity) (loc : EntityLocation) :
    (s.detach e loc).archetypeList = s.archetypeList :=
  (fixMoved_heap _ _ _).2.2.1

@[simp] theorem detach_emptyArchetype
    (s : ArchetypeStore) (e : Entity) (loc : EntityLocation) :
    (s.detach e loc).emptyArchetype = s.emptyArchetype :=
  (fixMoved_heap _ _ _).2.2.2.1

@[simp] theorem detach_archetypes
    (s : ArchetypeStore) (e : Entity) (loc : EntityLocation) :
    (s.detach e loc).archetypes = s.archetypes :=
  (fixMoved_heap _ _ _).2.1

@[simp] theorem detach_queryCache
    (s : ArchetypeStore) (e : Entity) (loc : EntityLocation) :
    (s.detach e loc).queryCache = s.queryCache :=
  (fixMoved_heap _ _ _).2.2.2.2

@[simp] theorem length_heap_detach
    (s : ArchetypeStore) (e : Entity) (loc : EntityLocation) :
    (s.detach e loc).heap.length = s.heap.length := by
  unfold detach
  rw [(fixMoved_heap _ _ _).1]
  exact length_heap_modify _ _ _

/-- Detaching an entity keeps the store consistent. -/
theorem detach_consistent
    (consistent : s.Consistent registry)
    (location : s.entityLocations.lookup e = some loc) :
    (s.detach e loc).Consistent registry := by
  have idsEq := detach_componentIds consistent location
  have inRow := consistent.inRow location
  have archetypeOf := consistent.archetypeOf location
  have lookupEq := detach_lookup consistent location
  refine ⟨?_, ?_, ?_, ?_, ?_, ?_, ?_, ?_, ?_⟩
  · rw [detach_archetypeList, length_heap_detach]
    exact consistent.listedValid
  · rw [detach_archetypeList]
    exact consistent.listedOnce
  · rw [detach_archetypeList, detach_emptyArchetype]
    exact consistent.emptyListed
  · rw [detach_emptyArchetype, idsEq]
    exact consistent.emptyIds
  · intro ids p
    rw [detach_archetypeList, detach_archetypes, idsEq]
    exact consistent.keyed ids p
  · intro p listed
    rw [detach_archetypeList] at listed
    rw [detach_deref consistent location]
    by_cases same : p = loc.archetype
    · rw [if_pos same, same]
      exact Archetype.removeEntity_wellFormed archetypeOf inRow
    · rw [if_neg same]
      exact consistent.wellFormed p listed
  · intro x p r
    rw [lookupEq, detach_archetypeList, detach_deref consistent location]
    by_cases here : p = loc.archetype
    · subst here
      rw [if_pos rfl, Archetype.removeEntity_found_iff archetypeOf inRow]
      by_cases isSelf : x = e
      · rw [if_pos isSelf]
        simp [isSelf]
      · rw [if_neg isSelf]
        by_cases isLast : x = (s.deref loc.archetype).lastEntity
        · rw [if_pos isLast, if_pos isLast]
          constructor
          · intro same
            rw [Option.some.injEq] at same
            exact ⟨consistent.listed location, isSelf, by rw [same]⟩
          · rintro ⟨_, _, rfl⟩
            rfl
        · rw [if_neg isLast, if_neg isLast, consistent.located]
          exact ⟨fun both => ⟨both.1, isSelf, both.2⟩,
            fun all => ⟨all.1, all.2.2⟩⟩
    · rw [if_neg here]
      by_cases isSelf : x = e
      · subst isSelf
        rw [if_pos rfl]
        constructor
        · exact fun found => absurd found (by simp)
        · intro found
          have elsewhere := (consistent.located x p r).mpr found
          rw [location, Option.some.injEq] at elsewhere
          exact absurd (congrArg EntityLocation.archetype elsewhere).symm here
      · rw [if_neg isSelf]
        by_cases isLast : x = (s.deref loc.archetype).lastEntity
        · have lastLocation := last_located consistent location
          rw [← isLast] at lastLocation
          rw [if_pos isLast]
          constructor
          · intro same
            rw [Option.some.injEq] at same
            exact absurd (congrArg EntityLocation.archetype same).symm here
          · intro found
            have elsewhere := (consistent.located x p r).mpr found
            rw [lastLocation, Option.some.injEq] at elsewhere
            exact absurd
              (congrArg EntityLocation.archetype elsewhere).symm here
        · rw [if_neg isLast]
          exact consistent.located x p r
  · rw [lookupEq]
    by_cases isSelf : Entity.null = e
    · rw [if_pos isSelf]
    · rw [if_neg isSelf,
        if_neg (Ne.symm (last_ne_null consistent location))]
      exact consistent.nullDead
  · rw [detach_archetypeList, detach_queryCache]
    exact consistent.cached.congr fun q _ => idsEq q

/-- Detaching kills one entity. -/
theorem detach_isAlive
    (consistent : s.Consistent registry)
    (location : s.entityLocations.lookup e = some loc) (x : Entity) :
    (s.detach e loc).isAlive x = (decide (x ≠ e) && s.isAlive x) := by
  unfold isAlive
  rw [detach_lookup consistent location]
  by_cases isSelf : x = e
  · simp [isSelf]
  · rw [if_neg isSelf]
    by_cases isLast : x = (s.deref loc.archetype).lastEntity
    · rw [if_pos isLast, isLast, last_located consistent location]
      rw [← isLast]
      simp [isSelf]
    · simp [isLast, isSelf]

/-- Where another entity is found after a removal, its archetype shows the same
cells as before. -/
theorem detach_cell
    (consistent : s.Consistent registry)
    (location : s.entityLocations.lookup e = some loc)
    {x : Entity} (other : x ≠ e) (t : ComponentTypeId) :
    (s.detach e loc).cell x t = s.cell x t := by
  have lastLocation := last_located consistent location
  have bounded := Archetype.row_lt (consistent.inRow location)
  unfold cell
  rw [detach_lookup consistent location, if_neg other]
  by_cases isLast : x = (s.deref loc.archetype).lastEntity
  · have inner : loc.row + 1 < (s.deref loc.archetype).entities.length := by
      have notLast := (last_eq_iff consistent location).not.mp
        fun same => other (isLast.trans same)
      omega
    rw [if_pos isLast, isLast, lastLocation, Option.bind_some,
      Option.bind_some, detach_deref consistent location, if_pos rfl,
      Archetype.removeEntity_cell (consistent.archetypeOf location)
        (consistent.inRow location) t inner, if_pos rfl]
  · rw [if_neg isLast]
    cases xLocation : s.entityLocations.lookup x with
    | none => rfl
    | some xLoc =>
        rw [Option.bind_some, Option.bind_some,
          detach_deref consistent location]
        by_cases here : xLoc.archetype = loc.archetype
        · have xRow := consistent.inRow xLocation
          rw [here] at xRow
          have xBound := Archetype.row_lt xRow
          have notHole : xLoc.row ≠ loc.row := by
            intro same
            rw [same, consistent.inRow location] at xRow
            exact other (Option.some.inj xRow).symm
          have notEnd : xLoc.row ≠
              (s.deref loc.archetype).entities.length - 1 := by
            intro same
            rw [same, Archetype.lastEntity_eq (consistent.inRow location)]
              at xRow
            exact isLast (Option.some.inj xRow).symm
          rw [if_pos here, here,
            Archetype.removeEntity_cell (consistent.archetypeOf location)
              (consistent.inRow location) t (by omega), if_neg notHole]
        · rw [if_neg here]

/-- Detaching leaves the components of the others. -/
theorem detach_typesOf
    (consistent : s.Consistent registry)
    (location : s.entityLocations.lookup e = some loc)
    {x : Entity} (other : x ≠ e) :
    (s.detach e loc).typesOf x = s.typesOf x := by
  unfold typesOf
  rw [detach_lookup consistent location, if_neg other]
  by_cases isLast : x = (s.deref loc.archetype).lastEntity
  · rw [if_pos isLast, isLast, last_located consistent location,
      Option.map_some, Option.map_some, detach_componentIds consistent location]
  · rw [if_neg isLast]
    congr 1
    funext xLoc
    exact detach_componentIds consistent location _

end Detach

/-! ## Putting an entity in -/

section Attach

variable {p : Ptr} {e : Entity} {a' : Archetype}

/-- `s'` is `s` with `e` put into a new last row of the archetype at `p`, which
has become `a'`. -/
structure Attached (registry : ComponentRegistry) (s s' : ArchetypeStore)
    (p : Ptr) (e : Entity) (a' : Archetype) : Prop where
  length_eq : s'.heap.length = s.heap.length
  archetypes_eq : s'.archetypes = s.archetypes
  archetypeList_eq : s'.archetypeList = s.archetypeList
  emptyArchetype_eq : s'.emptyArchetype = s.emptyArchetype
  queryCache_eq : s'.queryCache = s.queryCache
  deref_eq : ∀ q, s'.deref q = if q = p then a' else s.deref q
  lookup_eq : ∀ x, s'.entityLocations.lookup x =
    if x = e then some ⟨p, (s.deref p).entities.length⟩
    else s.entityLocations.lookup x
  ids_eq : a'.componentIds = (s.deref p).componentIds
  entities_eq : a'.entities = (s.deref p).entities ++ [e]
  cell_eq : ∀ t r, r < (s.deref p).entities.length →
    a'.cell t r = (s.deref p).cell t r
  wellFormed : a'.WellFormed registry

/-- Attaching leaves the component sets. -/
theorem Attached.componentIds
    (attached : Attached registry s s' p e a') (q : Ptr) :
    (s'.deref q).componentIds = (s.deref q).componentIds := by
  rw [attached.deref_eq]
  by_cases same : q = p
  · rw [if_pos same, attached.ids_eq, same]
  · rw [if_neg same]

/-- Attaching an entity keeps the store consistent. -/
theorem Attached.consistent
    (attached : Attached registry s s' p e a')
    (consistent : s.Consistent registry) (listed : p ∈ s.archetypeList)
    (dead : s.entityLocations.lookup e = none) (notNull : e ≠ Entity.null) :
    s'.Consistent registry := by
  have idsEq := attached.componentIds
  refine ⟨?_, ?_, ?_, ?_, ?_, ?_, ?_, ?_, ?_⟩
  · rw [attached.archetypeList_eq, attached.length_eq]
    exact consistent.listedValid
  · rw [attached.archetypeList_eq]
    exact consistent.listedOnce
  · rw [attached.archetypeList_eq, attached.emptyArchetype_eq]
    exact consistent.emptyListed
  · rw [attached.emptyArchetype_eq, idsEq]
    exact consistent.emptyIds
  · intro ids q
    rw [attached.archetypes_eq, attached.archetypeList_eq, idsEq]
    exact consistent.keyed ids q
  · intro q member
    rw [attached.archetypeList_eq] at member
    rw [attached.deref_eq]
    by_cases same : q = p
    · rw [if_pos same]
      exact attached.wellFormed
    · rw [if_neg same]
      exact consistent.wellFormed q member
  · intro x q r
    rw [attached.lookup_eq, attached.archetypeList_eq, attached.deref_eq]
    by_cases here : q = p
    · subst here
      rw [if_pos rfl, attached.entities_eq, List.getElem?_append]
      by_cases isSelf : x = e
      · subst isSelf
        rw [if_pos rfl]
        by_cases before : r < (s.deref q).entities.length
        · rw [if_pos before]
          constructor
          · intro same
            rw [Option.some.injEq, EntityLocation.mk.injEq] at same
            omega
          · rintro ⟨_, found⟩
            have earlier := (consistent.located x q r).mpr ⟨listed, found⟩
            rw [dead] at earlier
            exact absurd earlier (by simp)
        · rw [if_neg before]
          constructor
          · intro same
            rw [Option.some.injEq, EntityLocation.mk.injEq] at same
            rw [← same.2, Nat.sub_self]
            exact ⟨listed, rfl⟩
          · rintro ⟨_, found⟩
            have inRange := (List.getElem?_eq_some_iff.mp found).1
            rw [List.length_singleton] at inRange
            rw [show r = (s.deref q).entities.length by omega]
      · rw [if_neg isSelf]
        by_cases before : r < (s.deref q).entities.length
        · rw [if_pos before]
          exact consistent.located x q r
        · rw [if_neg before]
          constructor
          · intro found
            exact absurd
              (Archetype.row_lt ((consistent.located x q r).mp found).2) before
          · rintro ⟨_, found⟩
            have member := List.mem_of_getElem? found
            exact absurd (List.mem_singleton.mp member) isSelf
    · rw [if_neg here]
      by_cases isSelf : x = e
      · subst isSelf
        rw [if_pos rfl]
        constructor
        · intro same
          rw [Option.some.injEq, EntityLocation.mk.injEq] at same
          exact absurd same.1.symm here
        · intro found
          have earlier := (consistent.located x q r).mpr found
          rw [dead] at earlier
          exact absurd earlier (by simp)
      · rw [if_neg isSelf]
        exact consistent.located x q r
  · rw [attached.lookup_eq, if_neg (Ne.symm notNull)]
    exact consistent.nullDead
  · rw [attached.queryCache_eq, attached.archetypeList_eq]
    exact consistent.cached.congr fun q _ => idsEq q

/-- Attaching wakes one entity. -/
theorem Attached.isAlive
    (attached : Attached registry s s' p e a') (x : Entity) :
    s'.isAlive x = (decide (x = e) || s.isAlive x) := by
  unfold ArchetypeStore.isAlive
  rw [attached.lookup_eq]
  by_cases isSelf : x = e
  · simp [isSelf]
  · simp [isSelf]

/-- The entity has the components of its archetype. -/
theorem Attached.typesOf
    (attached : Attached registry s s' p e a') (x : Entity) :
    s'.typesOf x =
      if x = e then some (s.deref p).componentIds else s.typesOf x := by
  unfold ArchetypeStore.typesOf
  rw [attached.lookup_eq]
  by_cases isSelf : x = e
  · rw [if_pos isSelf, if_pos isSelf, Option.map_some, attached.componentIds]
  · rw [if_neg isSelf, if_neg isSelf]
    congr 1
    funext loc
    exact attached.componentIds _

/-- The cells of the entity are in the last row. -/
theorem Attached.cell_self
    (attached : Attached registry s s' p e a') (t : ComponentTypeId) :
    s'.cell e t = a'.cell t (s.deref p).entities.length := by
  unfold ArchetypeStore.cell
  rw [attached.lookup_eq, if_pos rfl, Option.bind_some, attached.deref_eq,
    if_pos rfl]

/-- The cells of the others stay. -/
theorem Attached.cell_of_ne
    (attached : Attached registry s s' p e a')
    (consistent : s.Consistent registry)
    {x : Entity} (other : x ≠ e) (t : ComponentTypeId) :
    s'.cell x t = s.cell x t := by
  unfold ArchetypeStore.cell
  rw [attached.lookup_eq, if_neg other]
  cases location : s.entityLocations.lookup x with
  | none => rfl
  | some loc =>
      rw [Option.bind_some, Option.bind_some, attached.deref_eq]
      by_cases here : loc.archetype = p
      · have bounded := Archetype.row_lt (consistent.inRow location)
        rw [here] at bounded
        rw [if_pos here, here, attached.cell_eq t _ bounded]
      · rw [if_neg here]

/-- Appending a row for a dead entity. -/
theorem addTo_attached
    (consistent : s.Consistent registry) (listed : p ∈ s.archetypeList)
    (dead : s.entityLocations.lookup e = none) (tick : Nat) :
    Attached registry s (s.addTo p e tick) p e
      ((s.deref p).addEntity e tick).1 where
  length_eq := length_heap_modify _ _ _
  archetypes_eq := rfl
  archetypeList_eq := rfl
  emptyArchetype_eq := rfl
  queryCache_eq := rfl
  deref_eq q := by
    change (s.modify p _).deref q = _
    rw [deref_modify _ (consistent.listedValid p listed)]
  lookup_eq x := by
    change (s.entityLocations.insert e _).lookup x = _
    rw [AList.lookup_insert_if]
  ids_eq := rfl
  entities_eq := rfl
  cell_eq t r bounded := by
    rw [Archetype.addEntity_cell (consistent.wellFormed p listed),
      if_neg (Nat.ne_of_lt bounded)]
  wellFormed := by
    apply Archetype.addEntity_wellFormed (consistent.wellFormed p listed)
    intro member
    obtain ⟨r, found⟩ := List.mem_iff_getElem?.mp member
    have earlier := (consistent.located e p r).mpr ⟨listed, found⟩
    rw [dead] at earlier
    exact absurd earlier (by simp)

end Attach

/-! ## Moving an entity -/

section Relocate

variable {e : Entity} {loc : EntityLocation} {target : Ptr}

/-- The target archetype once it hosts the moved entity. -/
def hosted (registry : ComponentRegistry) (s : ArchetypeStore) (e : Entity)
    (loc : EntityLocation) (target : Ptr) (tick : Nat) : Archetype :=
  (s.deref loc.archetype).copySharedRow registry
    ((s.deref target).addEntity e tick).1 loc.row
    (s.deref target).entities.length

/-- The target of a move can take the entity. -/
theorem addEntity_other_wellFormed
    (consistent : s.Consistent registry)
    (location : s.entityLocations.lookup e = some loc)
    (listed : target ∈ s.archetypeList) (moves : loc.archetype ≠ target)
    (tick : Nat) :
    ((s.deref target).addEntity e tick).1.WellFormed registry := by
  apply Archetype.addEntity_wellFormed (consistent.wellFormed _ listed)
  intro member
  obtain ⟨r, found⟩ := List.mem_iff_getElem?.mp member
  have elsewhere := (consistent.located e target r).mpr ⟨listed, found⟩
  rw [location, Option.some.injEq] at elsewhere
  exact moves (congrArg EntityLocation.archetype elsewhere)

/-- A move takes the entity out of one archetype and puts it into another. -/
theorem relocate_attached
    (consistent : s.Consistent registry)
    (location : s.entityLocations.lookup e = some loc)
    (listed : target ∈ s.archetypeList) (moves : loc.archetype ≠ target)
    (tick : Nat) :
    Attached registry (s.detach e loc)
      (s.relocate registry e loc target tick).1 target e
      (hosted registry s e loc target tick) := by
  have targetValid := consistent.listedValid target listed
  have sourceValid := consistent.valid location
  have sourceWellFormed := consistent.archetypeOf location
  have targetWellFormed :=
    addEntity_other_wellFormed consistent location listed moves tick
  have detachedTarget : (s.detach e loc).deref target = s.deref target := by
    rw [detach_deref consistent location, if_neg (Ne.symm moves)]
  have fromBound := Archetype.row_lt (consistent.inRow location)
  have newBound : (s.deref target).entities.length <
      ((s.deref target).addEntity e tick).1.entities.length := by
    rw [Archetype.addEntity_entities, List.length_append]
    exact Nat.lt_succ_self _
  -- What the source's heap walk leaves at every address.
  have addedSource :
      (s.modify target fun a => (a.addEntity e tick).1).deref
        loc.archetype = s.deref loc.archetype :=
    deref_modify_of_ne s _ moves
  have copiedDeref : ∀ q,
      ((s.modify target fun a => (a.addEntity e tick).1).modify target
        fun a => (s.deref loc.archetype).copySharedRow registry a loc.row
          (s.deref target).entities.length).deref q =
        if q = target then hosted registry s e loc target tick
        else s.deref q := by
    intro q
    rw [deref_modify _ (by rw [length_heap_modify]; exact targetValid)]
    by_cases here : q = target
    · rw [if_pos here, if_pos here, deref_modify_self _ targetValid]
      rfl
    · rw [if_neg here, if_neg here, deref_modify_of_ne _ _ here]
  have movedSource :=
    (copiedDeref loc.archetype).trans (if_neg moves)
  refine ⟨?_, ?_, ?_, ?_, ?_, ?_, ?_, ?_, ?_, ?_, ?_⟩
  · unfold relocate moveEntityTo setLocation
    dsimp only
    rw [(fixMoved_heap _ _ _).1, length_heap_modify, length_heap_modify,
      length_heap_modify, length_heap_detach]
  · rw [detach_archetypes]
    exact (fixMoved_heap _ _ _).2.1
  · rw [detach_archetypeList]
    exact (fixMoved_heap _ _ _).2.2.1
  · rw [detach_emptyArchetype]
    exact (fixMoved_heap _ _ _).2.2.2.1
  · rw [detach_queryCache]
    exact (fixMoved_heap _ _ _).2.2.2.2
  · intro q
    unfold relocate moveEntityTo
    dsimp only
    change (ArchetypeStore.fixMoved _ _ _).deref q = _
    rw [fixMoved_deref, addedSource,
      deref_modify _ (by simpa using sourceValid), copiedDeref, copiedDeref,
      detach_deref consistent location]
    by_cases isSource : q = loc.archetype
    · subst isSource
      rw [if_pos rfl, if_neg moves, if_neg moves, if_pos rfl]
    · rw [if_neg isSource]
      by_cases isTarget : q = target
      · rw [if_pos isTarget, if_pos isTarget]
      · rw [if_neg isTarget, if_neg isTarget, if_neg isSource]
  · intro x
    unfold relocate moveEntityTo
    dsimp only
    rw [addedSource, movedSource, detachedTarget]
    change (AList.insert e _ (ArchetypeStore.fixMoved _ _ _).entityLocations).lookup
      x = _
    rw [AList.lookup_insert_if]
    by_cases isSelf : x = e
    · rw [if_pos isSelf, if_pos isSelf]
    · rw [if_neg isSelf, if_neg isSelf, detach_lookup consistent location,
        if_neg isSelf]
      refine swapped_lookup consistent location ?_ isSelf
      exact fun _ _ => rfl
  · rw [detachedTarget]
    rfl
  · rw [detachedTarget]
    rfl
  · intro t r bounded
    rw [detachedTarget] at bounded ⊢
    unfold hosted
    rw [Archetype.copySharedRow_cell sourceWellFormed targetWellFormed
        fromBound newBound,
      if_neg fun all => absurd all.1 (Nat.ne_of_lt bounded),
      Archetype.addEntity_cell (consistent.wellFormed _ listed),
      if_neg (Nat.ne_of_lt bounded)]
  · exact Archetype.copySharedRow_wellFormed sourceWellFormed targetWellFormed
      _ _

/-- A move keeps the store consistent. -/
theorem relocate_consistent
    (consistent : s.Consistent registry)
    (location : s.entityLocations.lookup e = some loc)
    (listed : target ∈ s.archetypeList) (moves : loc.archetype ≠ target)
    (tick : Nat) :
    (s.relocate registry e loc target tick).1.Consistent registry := by
  apply (relocate_attached consistent location listed moves tick).consistent
    (detach_consistent consistent location)
  · rw [detach_archetypeList]
    exact listed
  · rw [detach_lookup consistent location, if_pos rfl]
  · rintro rfl
    rw [consistent.nullDead] at location
    exact absurd location (by simp)

/-- A move ends in the last row of the target. -/
theorem relocate_location
    (consistent : s.Consistent registry)
    (location : s.entityLocations.lookup e = some loc)
    (listed : target ∈ s.archetypeList) (moves : loc.archetype ≠ target)
    (tick : Nat) :
    (s.relocate registry e loc target tick).1.entityLocations.lookup e =
      some ⟨target, (s.deref target).entities.length⟩ := by
  rw [(relocate_attached consistent location listed moves tick).lookup_eq,
    if_pos rfl, detach_deref consistent location, if_neg (Ne.symm moves)]

/-- A move leaves everybody alive. -/
theorem relocate_isAlive
    (consistent : s.Consistent registry)
    (location : s.entityLocations.lookup e = some loc)
    (listed : target ∈ s.archetypeList) (moves : loc.archetype ≠ target)
    (tick : Nat) (x : Entity) :
    (s.relocate registry e loc target tick).1.isAlive x = s.isAlive x := by
  rw [(relocate_attached consistent location listed moves tick).isAlive,
    detach_isAlive consistent location]
  by_cases isSelf : x = e
  · subst isSelf
    simp [isAlive_iff.mpr ⟨loc, location⟩]
  · simp [isSelf]

/-- A move changes the components of one entity. -/
theorem relocate_typesOf
    (consistent : s.Consistent registry)
    (location : s.entityLocations.lookup e = some loc)
    (listed : target ∈ s.archetypeList) (moves : loc.archetype ≠ target)
    (tick : Nat) (x : Entity) :
    (s.relocate registry e loc target tick).1.typesOf x =
      if x = e then some (s.deref target).componentIds else s.typesOf x := by
  rw [(relocate_attached consistent location listed moves tick).typesOf,
    detach_componentIds consistent location]
  by_cases isSelf : x = e
  · rw [if_pos isSelf, if_pos isSelf]
  · rw [if_neg isSelf, if_neg isSelf, detach_typesOf consistent location isSelf]

/-- A move changes no cell of another entity. -/
theorem relocate_cell_of_ne
    (consistent : s.Consistent registry)
    (location : s.entityLocations.lookup e = some loc)
    (listed : target ∈ s.archetypeList) (moves : loc.archetype ≠ target)
    (tick : Nat) {x : Entity} (other : x ≠ e) (t : ComponentTypeId) :
    (s.relocate registry e loc target tick).1.cell x t = s.cell x t := by
  rw [(relocate_attached consistent location listed moves tick).cell_of_ne
    (detach_consistent consistent location) other,
    detach_cell consistent location other]

/-- The moved entity keeps the bytes of the components both archetypes have, and
their versions where both track them; its other components are zero. -/
theorem relocate_cell_self
    (consistent : s.Consistent registry)
    (location : s.entityLocations.lookup e = some loc)
    (listed : target ∈ s.archetypeList) (moves : loc.archetype ≠ target)
    (tick : Nat) (t : ComponentTypeId) :
    (s.relocate registry e loc target tick).1.cell e t =
      if t ∈ (s.deref target).componentIds then
        some {
          bytes := ((s.cell e t).map Column.Cell.bytes).getD
            (List.replicate (registry.sizeOf t) 0)
          version := if ((s.deref target).column t).tracking then
              some (((s.cell e t).bind Column.Cell.version).getD tick)
            else none }
      else none := by
  have sourceWellFormed := consistent.archetypeOf location
  have targetWellFormed :=
    addEntity_other_wellFormed consistent location listed moves tick
  have fromBound := Archetype.row_lt (consistent.inRow location)
  have newBound : (s.deref target).entities.length <
      ((s.deref target).addEntity e tick).1.entities.length := by
    rw [Archetype.addEntity_entities, List.length_append]
    exact Nat.lt_succ_self _
  have addedCell := Archetype.addEntity_cell (e := e)
    (consistent.wellFormed _ listed) tick t (s.deref target).entities.length
  rw [if_pos rfl] at addedCell
  rw [(relocate_attached consistent location listed moves tick).cell_self,
    detach_deref consistent location, if_neg (Ne.symm moves)]
  unfold hosted
  rw [Archetype.copySharedRow_cell sourceWellFormed targetWellFormed
    fromBound newBound, cell_of_location location]
  by_cases member : t ∈ (s.deref target).componentIds
  · rw [if_pos member]
    have addedTracking :
        (((s.deref target).addEntity e tick).1.column t).tracking =
          ((s.deref target).column t).tracking := by
      rw [Archetype.addEntity_column (consistent.wellFormed _ listed) tick
        member, Column.addRow_tracking]
    by_cases shared : t ∈ (s.deref loc.archetype).componentIds
    · rw [if_pos ⟨rfl, shared, member⟩, Archetype.cell_of_mem shared,
        addedTracking]
      congr 1
      congr 1
      by_cases targetTracked : ((s.deref target).column t).tracking = true
      · rw [if_pos targetTracked, if_pos targetTracked]
        rw [if_pos member, if_pos targetTracked,
          Archetype.cell_of_mem (a := ((s.deref target).addEntity e tick).1)
            member] at addedCell
        have versionEq := congrArg Column.Cell.version
          (Option.some.inj addedCell)
        unfold Column.cellAt at versionEq
        rw [addedTracking, if_pos targetTracked] at versionEq
        dsimp only at versionEq
        by_cases sourceTracked :
            ((s.deref loc.archetype).column t).tracking = true
        · rw [if_pos sourceTracked]
          simp [Column.cellAt, sourceTracked]
        · rw [if_neg sourceTracked, versionEq]
          simp [Column.cellAt, sourceTracked]
      · rw [if_neg targetTracked, if_neg targetTracked]
    · rw [if_neg fun all => shared all.2.1, addedCell, if_pos member,
        Archetype.cell_of_not_mem shared]
      rfl
  · rw [if_neg member, if_neg fun all => member all.2.2, addedCell,
      if_neg member]

end Relocate

end ArchetypeStore
end VortarisECS
