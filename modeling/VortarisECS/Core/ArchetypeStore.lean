import VortarisECS.Core.Query

/-!
# The archetype store

The part of a world that says which row of which archetype holds each entity:
the archetypes on the heap, their two directories, the query cache and the
entity locations.  Archetypes are heap cells addressed by position; a deleted
archetype leaves the directories and its address is not used again.
-/

namespace VortarisECS

/-- Where an entity is: its archetype and its row there. -/
structure EntityLocation where
  archetype : Ptr
  row : Nat
  deriving DecidableEq, Repr

/-- The archetypes of a world: where they are allocated, which of them are listed,
and where each entity is. -/
structure ArchetypeStore where
  heap : List Archetype := []
  archetypes : AList fun _ : List ComponentTypeId => Ptr := ∅
  archetypeList : List Ptr := []
  emptyArchetype : Ptr := 0
  queryCache : QueryCache := {}
  entityLocations : AList fun _ : Entity => EntityLocation := ∅

namespace ArchetypeStore

/-- The archetype behind a pointer. -/
def deref (s : ArchetypeStore) (p : Ptr) : Archetype := (s.heap[p]?).getD {}

/-- Update the archetype at an address. -/
def modify (s : ArchetypeStore) (p : Ptr) (f : Archetype → Archetype) :
    ArchetypeStore :=
  { s with heap := s.heap.modify p f }

/-- Note down where an entity is. -/
def setLocation (s : ArchetypeStore) (e : Entity) (loc : EntityLocation) :
    ArchetypeStore :=
  { s with entityLocations := s.entityLocations.insert e loc }

/-- `_create_archetype`. -/
def createArchetype (registry : ComponentRegistry) (s : ArchetypeStore)
    (ids : List ComponentTypeId) : ArchetypeStore × Ptr :=
  let a : Archetype := {
    componentIds := ids
    signature := computeSignature ids
    columns := ids.map fun t =>
      Column.init (registry.sizeOf t)
        (((registry.schemaOf t).map ComponentSchema.alignment).getD 1) }
  let p := s.heap.length
  ({ s with
    heap := s.heap ++ [a]
    archetypes := s.archetypes.insert ids p
    archetypeList := s.archetypeList ++ [p]
    queryCache := s.queryCache.registerNewArchetype p a }, p)

/-- `_ensure_archetype`. -/
def ensureArchetype (registry : ComponentRegistry) (s : ArchetypeStore)
    (ids : List ComponentTypeId) : ArchetypeStore × Ptr :=
  match s.archetypes.lookup ids with
  | some p => (s, p)
  | none => s.createArchetype registry ids

/-- The store of a fresh world: the empty archetype hosts every entity with no
components yet. -/
def initial (registry : ComponentRegistry) : ArchetypeStore :=
  let (s, p) := createArchetype registry {} []
  { s with emptyArchetype := p }

/-- The entity swapped into a hole is found in its new row from now on. -/
def fixMoved (s : ArchetypeStore) (moved : Entity) (row : Nat) :
    ArchetypeStore :=
  if moved ≠ Entity.null then
    match s.entityLocations.lookup moved with
    | some loc => s.setLocation moved { loc with row := row }
    | none => s
  else s

/-- Append a row for an entity to an archetype and record its location. -/
def addTo (s : ArchetypeStore) (p : Ptr) (e : Entity) (tick : Nat) :
    ArchetypeStore :=
  (s.modify p fun a => (a.addEntity e tick).1).setLocation e
    ⟨p, (s.deref p).entities.length⟩

/-- Take an entity out of its row and forget its location, as every path that
destroys an entity does. -/
def detach (s : ArchetypeStore) (e : Entity) (loc : EntityLocation) :
    ArchetypeStore :=
  let moved := ((s.deref loc.archetype).removeEntity e).2
  let removed := s.modify loc.archetype fun a => (a.removeEntity e).1
  let erased :=
    { removed with entityLocations := removed.entityLocations.erase e }
  erased.fixMoved moved loc.row

/-- `_move_entity_to`, and the new row. -/
def moveEntityTo (registry : ComponentRegistry) (s : ArchetypeStore)
    (e : Entity) (source target : Ptr) (fromRow tick : Nat) :
    ArchetypeStore × Nat :=
  let newRow := (s.deref target).entities.length
  let added := s.modify target fun a => (a.addEntity e tick).1
  let copied := added.modify target fun a =>
    (added.deref source).copySharedRow registry a fromRow newRow
  let moved := ((copied.deref source).removeEntity e).2
  let removed := copied.modify source fun a => (a.removeEntity e).1
  (removed.fixMoved moved fromRow, newRow)

/-- Move an entity between archetypes and record its new location. -/
def relocate (registry : ComponentRegistry) (s : ArchetypeStore)
    (e : Entity) (loc : EntityLocation) (target : Ptr) (tick : Nat) :
    ArchetypeStore × Nat :=
  let (s', newRow) :=
    s.moveEntityTo registry e loc.archetype target loc.row tick
  (s'.setLocation e ⟨target, newRow⟩, newRow)

/-- A compaction frees every archetype without entities but the empty one. -/
def isVacant (s : ArchetypeStore) (p : Ptr) : Bool :=
  decide (p ≠ s.emptyArchetype ∧ (s.deref p).entities = [])

/-- Free the vacant archetypes. -/
def compact (s : ArchetypeStore) : ArchetypeStore :=
  let dead := s.archetypeList.filter s.isVacant
  { s with
    archetypes := dead.foldl
      (fun directory p => directory.erase (s.deref p).componentIds)
      s.archetypes
    queryCache := dead.foldl (fun qc p => qc.eraseArchetype p) s.queryCache
    archetypeList := s.archetypeList.filter fun p => !s.isVacant p }

/-- Rearrange the hash table of the locations: its iteration order is not
specified. -/
def rehash (s : ArchetypeStore) (order : List Entity) : ArchetypeStore :=
  { s with entityLocations := s.entityLocations.rearrange order }

/-! ## Addresses -/

@[simp] theorem length_heap_modify
    (s : ArchetypeStore) (p : Ptr) (f : Archetype → Archetype) :
    (s.modify p f).heap.length = s.heap.length :=
  List.length_modify f s.heap p

/-- Changing an archetype leaves the others. -/
theorem deref_modify
    {s : ArchetypeStore} {p : Ptr} (f : Archetype → Archetype)
    (valid : p < s.heap.length) (q : Ptr) :
    (s.modify p f).deref q = if q = p then f (s.deref p) else s.deref q := by
  unfold deref modify
  dsimp only
  rw [List.getElem?_modify]
  by_cases same : q = p
  · subst same
    simp [List.getElem?_eq_getElem valid]
  · simp [same, Ne.symm same]

theorem deref_modify_self
    {s : ArchetypeStore} {p : Ptr} (f : Archetype → Archetype)
    (valid : p < s.heap.length) :
    (s.modify p f).deref p = f (s.deref p) := by
  rw [deref_modify f valid, if_pos rfl]

theorem deref_modify_of_ne
    (s : ArchetypeStore) {p q : Ptr} (f : Archetype → Archetype)
    (distinct : q ≠ p) : (s.modify p f).deref q = s.deref q := by
  unfold deref modify
  dsimp only
  rw [List.getElem?_modify]
  simp [Ne.symm distinct]

/-- What an update keeps of every archetype, it keeps at every address. -/
theorem modify_keeps
    (s : ArchetypeStore) (p : Ptr) {f : Archetype → Archetype}
    (observe : Archetype → β) (keeps : ∀ a, observe (f a) = observe a)
    (q : Ptr) : observe ((s.modify p f).deref q) = observe (s.deref q) := by
  by_cases valid : p < s.heap.length
  · rw [deref_modify f valid]
    by_cases same : q = p
    · rw [if_pos same, keeps, same]
    · rw [if_neg same]
  · have unchanged : (s.modify p f).heap = s.heap :=
      List.modify_eq_self (Nat.le_of_not_lt valid)
    unfold deref
    rw [unchanged]

/-! ## Reading the store -/

/-- An entity is alive if it has a location. -/
def isAlive (s : ArchetypeStore) (e : Entity) : Bool :=
  (s.entityLocations.lookup e).isSome

/-- The component set of a live entity. -/
def typesOf (s : ArchetypeStore) (e : Entity) :
    Option (List ComponentTypeId) :=
  (s.entityLocations.lookup e).map fun loc =>
    (s.deref loc.archetype).componentIds

/-- What an entity's instance of a component holds. -/
def cell (s : ArchetypeStore) (e : Entity) (t : ComponentTypeId) :
    Option Column.Cell :=
  (s.entityLocations.lookup e).bind fun loc =>
    (s.deref loc.archetype).cell t loc.row

/-- The cell of an entity is the one in its row. -/
theorem cell_of_location
    {s : ArchetypeStore} {e : Entity} {loc : EntityLocation}
    (located : s.entityLocations.lookup e = some loc) (t : ComponentTypeId) :
    s.cell e t = (s.deref loc.archetype).cell t loc.row := by
  rw [cell, located]
  rfl

/-- The components of an entity are those of its archetype. -/
theorem typesOf_of_location
    {s : ArchetypeStore} {e : Entity} {loc : EntityLocation}
    (located : s.entityLocations.lookup e = some loc) :
    s.typesOf e = some (s.deref loc.archetype).componentIds := by
  rw [typesOf, located]
  rfl

/-- An entity is alive exactly if it has a location. -/
theorem isAlive_iff
    {s : ArchetypeStore} {e : Entity} :
    s.isAlive e = true ↔ ∃ loc, s.entityLocations.lookup e = some loc :=
  Option.isSome_iff_exists

/-! ## Consistent stores -/

/-- The redundant structures of a store agree. -/
structure Consistent (registry : ComponentRegistry) (s : ArchetypeStore) :
    Prop where
  listedValid : ∀ p ∈ s.archetypeList, p < s.heap.length
  listedOnce : s.archetypeList.Nodup
  emptyListed : s.emptyArchetype ∈ s.archetypeList
  emptyIds : (s.deref s.emptyArchetype).componentIds = []
  keyed : ∀ ids p, s.archetypes.lookup ids = some p ↔
    p ∈ s.archetypeList ∧ (s.deref p).componentIds = ids
  wellFormed : ∀ p ∈ s.archetypeList, (s.deref p).WellFormed registry
  located : ∀ e p r, s.entityLocations.lookup e = some ⟨p, r⟩ ↔
    p ∈ s.archetypeList ∧ (s.deref p).entities[r]? = some e
  nullDead : s.entityLocations.lookup Entity.null = none
  cached : s.queryCache.Accurate s.deref s.archetypeList

namespace Consistent

variable {registry : ComponentRegistry} {s : ArchetypeStore}

/-- The archetype of an entity is listed. -/
theorem listed
    (consistent : s.Consistent registry) {e : Entity} {loc : EntityLocation}
    (location : s.entityLocations.lookup e = some loc) :
    loc.archetype ∈ s.archetypeList :=
  ((consistent.located e loc.archetype loc.row).mp location).1

/-- An entity is in the row its location names. -/
theorem inRow
    (consistent : s.Consistent registry) {e : Entity} {loc : EntityLocation}
    (location : s.entityLocations.lookup e = some loc) :
    (s.deref loc.archetype).entities[loc.row]? = some e :=
  ((consistent.located e loc.archetype loc.row).mp location).2

/-- The archetype of an entity is allocated. -/
theorem valid
    (consistent : s.Consistent registry) {e : Entity} {loc : EntityLocation}
    (location : s.entityLocations.lookup e = some loc) :
    loc.archetype < s.heap.length :=
  consistent.listedValid _ (consistent.listed location)

/-- The archetype of an entity is well formed. -/
theorem archetypeOf
    (consistent : s.Consistent registry) {e : Entity} {loc : EntityLocation}
    (location : s.entityLocations.lookup e = some loc) :
    (s.deref loc.archetype).WellFormed registry :=
  consistent.wellFormed _ (consistent.listed location)

theorem emptyValid (consistent : s.Consistent registry) :
    s.emptyArchetype < s.heap.length :=
  consistent.listedValid _ consistent.emptyListed

/-- Two listed archetypes with one component set are the same archetype. -/
theorem ptr_unique
    (consistent : s.Consistent registry) {p q : Ptr}
    (listedP : p ∈ s.archetypeList) (listedQ : q ∈ s.archetypeList)
    (sameIds : (s.deref p).componentIds = (s.deref q).componentIds) :
    p = q := by
  have foundP := (consistent.keyed _ p).mpr ⟨listedP, sameIds⟩
  have foundQ := (consistent.keyed _ q).mpr ⟨listedQ, rfl⟩
  rw [foundP] at foundQ
  exact Option.some.inj foundQ

/-- A cell exists exactly for the components of the entity's archetype. -/
theorem cell_isSome_iff
    {e : Entity} {loc : EntityLocation}
    (location : s.entityLocations.lookup e = some loc) (t : ComponentTypeId) :
    (s.cell e t).isSome ↔ t ∈ (s.deref loc.archetype).componentIds := by
  rw [cell_of_location location, Archetype.cell_isSome,
    Archetype.hasComponent_iff]

end Consistent
end ArchetypeStore
end VortarisECS
