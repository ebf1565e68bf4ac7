import VortarisECS.Core.Flush
import VortarisECS.Core.SoundWorld

/-!
# The contents of a world

What a world is for, without archetypes, rows or locations: which entities are
alive, and the bytes of each of their components.  Every operation acts on the
contents as its name says.
-/

namespace VortarisECS

/-- The components of one entity, with their bytes. -/
abbrev Components := ComponentTypeId → Option (List UInt8)

/-- The components of every live entity; a dead one has none to speak of. -/
abbrev Contents := Entity → Option Components

namespace Components

/-- Put bytes into a component, or take the component away. -/
def put (components : Components) (t : ComponentTypeId)
    (bytes : Option (List UInt8)) : Components :=
  fun other => if other = t then bytes else components other

/-- The components of an entity moved to an archetype with the set `ids`: the
ones it had keep their bytes, the others are zero. -/
def hostedBy (registry : ComponentRegistry) (ids : List ComponentTypeId)
    (components : Components) : Components :=
  fun t =>
    if t ∈ ids then
      some ((components t).getD (List.replicate (registry.sizeOf t) 0))
    else none

/-- An entity that gains `t` in a move. -/
theorem hostedBy_put
    {registry : ComponentRegistry} {components : Components}
    {ids : List ComponentTypeId} {t : ComponentTypeId}
    (gains : ∀ u, u ∈ ids ↔ u = t ∨ (components u).isSome)
    (bytes : List UInt8) :
    (components.hostedBy registry ids).put t (some bytes) =
      components.put t (some bytes) := by
  funext u
  unfold put hostedBy
  by_cases here : u = t
  · rw [if_pos here, if_pos here]
  · rw [if_neg here, if_neg here]
    cases found : components u with
    | none =>
        refine if_neg fun member => ?_
        obtain same | isSome := (gains u).mp member
        · exact here same
        · rw [found] at isSome
          exact absurd isSome (by simp)
    | some old => exact if_pos ((gains u).mpr (Or.inr (by rw [found]; rfl)))

/-- An entity that loses `t` in a move. -/
theorem hostedBy_loses
    {registry : ComponentRegistry} {components : Components}
    {ids : List ComponentTypeId} {t : ComponentTypeId}
    (loses : ∀ u, u ∈ ids ↔ u ≠ t ∧ (components u).isSome) :
    components.hostedBy registry ids = components.put t none := by
  funext u
  unfold put hostedBy
  by_cases here : u = t
  · rw [if_pos here]
    exact if_neg fun member => ((loses u).mp member).1 here
  · rw [if_neg here]
    cases found : components u with
    | none =>
        refine if_neg fun member => ?_
        have isSome := ((loses u).mp member).2
        rw [found] at isSome
        exact absurd isSome (by simp)
    | some old => exact if_pos ((loses u).mpr ⟨here, by rw [found]; rfl⟩)

/-- Removing what is not there changes nothing. -/
theorem put_of_absent
    {components : Components} {t : ComponentTypeId}
    (absent : components t = none) : components.put t none = components := by
  funext u
  unfold put
  by_cases here : u = t
  · rw [if_pos here, here, absent]
  · rw [if_neg here]

end Components

namespace Contents

/-- Bring an entity without components to life. -/
def spawn (contents : Contents) (e : Entity) : Contents :=
  fun x => if x = e then some fun _ => none else contents x

/-- An entity is gone with everything it had. -/
def kill (contents : Contents) (e : Entity) : Contents :=
  fun x => if x = e then none else contents x

/-- Change the components of a live entity. -/
def adjust (contents : Contents) (e : Entity)
    (change : Components → Components) : Contents :=
  fun x => if x = e then (contents e).map change else contents x

/-- Put bytes into a component of a live entity, or take the component away. -/
def put (contents : Contents) (e : Entity) (t : ComponentTypeId)
    (bytes : Option (List UInt8)) : Contents :=
  contents.adjust e (·.put t bytes)

/-- An adjustment changes the components of its entity. -/
theorem adjust_self
    (contents : Contents) (e : Entity) (change : Components → Components) :
    contents.adjust e change e = (contents e).map change :=
  if_pos rfl

/-- It changes no other entity. -/
theorem adjust_of_ne
    (contents : Contents) {e x : Entity} (change : Components → Components)
    (other : x ≠ e) : contents.adjust e change x = contents x :=
  if_neg other

theorem kill_self (contents : Contents) (e : Entity) :
    contents.kill e e = none :=
  if_pos rfl

theorem kill_of_ne
    (contents : Contents) {e x : Entity} (other : x ≠ e) :
    contents.kill e x = contents x :=
  if_neg other

/-- To know the contents after a change of one entity, look at that entity. -/
theorem adjust_eq_iff
    {contents contents' : Contents} {e : Entity}
    {change : Components → Components}
    (elsewhere : ∀ x, x ≠ e → contents' x = contents x) :
    contents' = contents.adjust e change ↔
      contents' e = (contents e).map change := by
  constructor
  · rintro rfl
    exact adjust_self contents e change
  · intro atSelf
    funext x
    by_cases isSelf : x = e
    · rw [isSelf, atSelf, adjust_self]
    · rw [elsewhere x isSelf, adjust_of_ne contents change isSelf]

/-- Two adjustments of one entity are one. -/
theorem adjust_adjust
    (contents : Contents) (e : Entity) (first second : Components → Components) :
    (contents.adjust e first).adjust e second =
      contents.adjust e (second ∘ first) := by
  refine (adjust_eq_iff fun x other => ?_).mpr ?_
  · rw [adjust_of_ne _ _ other, adjust_of_ne _ _ other]
  · rw [adjust_self, adjust_self, Option.map_map]

/-- Only what the entity holds matters for an adjustment. -/
theorem adjust_congr
    {contents : Contents} {e : Entity} {first second : Components → Components}
    (same : ∀ components, contents e = some components →
      first components = second components) :
    contents.adjust e first = contents.adjust e second := by
  rw [adjust_eq_iff fun x other => adjust_of_ne contents first other,
    adjust_self]
  cases found : contents e with
  | none => rfl
  | some components => rw [Option.map_some, Option.map_some, same _ found]

/-- A dead entity cannot be adjusted. -/
theorem adjust_of_dead
    {contents : Contents} {e : Entity} (dead : contents e = none)
    (change : Components → Components) : contents.adjust e change = contents := by
  symm
  rw [adjust_eq_iff fun _ _ => rfl, dead]
  rfl

theorem adjust_id (contents : Contents) (e : Entity) :
    contents.adjust e id = contents := by
  symm
  rw [adjust_eq_iff fun _ _ => rfl, Option.map_id_fun]
  rfl

/-- To put what is there is to do nothing. -/
theorem put_held
    {contents : Contents} {e : Entity} {t : ComponentTypeId}
    {bytes : List UInt8} (found : (contents e).bind (· t) = some bytes) :
    contents.put e t (some bytes) = contents := by
  symm
  unfold put
  rw [adjust_eq_iff fun _ _ => rfl]
  obtain ⟨components, atSelf, there⟩ := Option.bind_eq_some_iff.mp found
  rw [atSelf, Option.map_some, Option.some.injEq]
  funext u
  unfold Components.put
  split
  · rename_i here
    rw [here, there]
  · rfl

/-- A dead entity cannot be killed. -/
theorem kill_of_dead
    {contents : Contents} {e : Entity} (dead : contents e = none) :
    contents.kill e = contents := by
  funext x
  by_cases isSelf : x = e
  · rw [isSelf, kill_self, dead]
  · exact kill_of_ne contents isSelf

end Contents

namespace World

/-- The bytes of an entity's component. -/
def bytesAt (w : World) (e : Entity) : Components :=
  fun t => (w.cell e t).map Column.Cell.bytes

/-- What a world holds. -/
def contents (w : World) : Contents :=
  fun e => if w.isAlive e then some (w.bytesAt e) else none

variable {registry : ComponentRegistry} {w w' : World}
variable {e : Entity} {t : ComponentTypeId} {loc : EntityLocation}

theorem contents_of_alive (alive : w.isAlive e = true) :
    w.contents e = some (w.bytesAt e) :=
  if_pos alive

theorem contents_of_dead (dead : w.isAlive e = false) :
    w.contents e = none :=
  if_neg (by rw [dead]; simp)

/-- The contents have the entities that are alive. -/
theorem contents_isSome (w : World) (e : Entity) :
    (w.contents e).isSome = w.isAlive e := by
  unfold contents
  cases w.isAlive e <;> rfl

/-- Worlds with the same entities and cells have the same contents. -/
theorem contents_eq_of
    (alive : ∀ x, w'.isAlive x = w.isAlive x)
    (cells : ∀ x u, w'.bytesAt x u = w.bytesAt x u) :
    w'.contents = w.contents := by
  funext x
  unfold contents
  rw [alive x, show w'.bytesAt x = w.bytesAt x from funext (cells x)]

/-- Worlds with one store have one contents. -/
theorem contents_congr (same : w'.store = w.store) :
    w'.contents = w.contents := by
  unfold contents bytesAt isAlive World.cell
  rw [same]

/-- The bytes in a cell are those that `get_raw` points to. -/
theorem bytesAt_eq_getRaw
    (consistent : w.store.Consistent registry) (e : Entity)
    (t : ComponentTypeId) : w.bytesAt e t = w.getRaw e t := by
  unfold bytesAt World.cell ArchetypeStore.cell getRaw
  cases location : w.store.entityLocations.lookup e with
  | none => rfl
  | some loc =>
      have real : e ≠ Entity.null := real_of_location consistent location
      rw [Option.bind_some]
      dsimp only
      by_cases present : (w.store.deref loc.archetype).hasComponent t = true
      · rw [if_pos ⟨real, present⟩,
          Archetype.cell_of_mem (Archetype.hasComponent_iff.mp present)]
        rfl
      · rw [if_neg fun both => present both.2,
          Archetype.cell_of_not_mem (Archetype.hasComponent_iff.not.mp present)]
        rfl

/-- A live entity has bytes for exactly the components of its archetype. -/
theorem bytesAt_isSome_iff
    (location : w.store.entityLocations.lookup e = some loc)
    (t : ComponentTypeId) :
    (w.bytesAt e t).isSome ↔
      t ∈ (w.store.deref loc.archetype).componentIds := by
  unfold bytesAt World.cell
  rw [Option.isSome_map, ArchetypeStore.Consistent.cell_isSome_iff location]

/-- What a cell holds has the size of the component. -/
theorem bytesAt_length
    (consistent : w.store.Consistent registry) {bytes : List UInt8}
    (found : w.bytesAt e t = some bytes) :
    bytes.length = registry.sizeOf t := by
  rw [bytesAt_eq_getRaw consistent] at found
  exact getRaw_length consistent found

/-! ## Elementary steps -/

/-- An entity without components is spawned. -/
theorem enterEmpty_contents
    (consistent : w.store.Consistent registry) (real : e ≠ Entity.null)
    (dead : w.store.entityLocations.lookup e = none) :
    (w.enterEmpty e).contents = w.contents.spawn e := by
  have attached := ArchetypeStore.addTo_attached consistent
    consistent.emptyListed dead w.changeTick
  funext x
  unfold contents Contents.spawn isAlive bytesAt World.cell
  rw [show (w.enterEmpty e).store.isAlive x =
    (decide (x = e) || w.store.isAlive x) from attached.isAlive x]
  by_cases isSelf : x = e
  · subst isSelf
    rw [if_pos rfl, decide_eq_true real, decide_eq_true rfl, Bool.true_or,
      Bool.and_true, if_pos rfl]
    congr 1
    funext u
    rw [show (w.enterEmpty x).store.cell x u = _ from attached.cell_self u,
      Archetype.cell_of_not_mem]
    · rfl
    · rw [attached.ids_eq, consistent.emptyIds]
      exact List.not_mem_nil
  · rw [if_neg isSelf, decide_eq_false isSelf, Bool.false_or]
    congr 2
    funext u
    rw [show (w.enterEmpty e).store.cell x u = _ from
      attached.cell_of_ne consistent isSelf u]

/-- An entity that leaves its row is killed. -/
theorem detach_contents
    (consistent : w.store.Consistent registry)
    (location : w.store.entityLocations.lookup e = some loc)
    (slots : EntitySlots) :
    ((w.setStore (w.store.detach e loc)).setSlots slots).contents =
      w.contents.kill e := by
  funext x
  unfold contents Contents.kill isAlive bytesAt World.cell
  rw [show ((w.setStore (w.store.detach e loc)).setSlots
      slots).store.isAlive x = (decide (x ≠ e) && w.store.isAlive x) from
    ArchetypeStore.detach_isAlive consistent location x]
  by_cases isSelf : x = e
  · rw [if_pos isSelf]
    simp [isSelf]
  · rw [if_neg isSelf, decide_eq_true isSelf, Bool.true_and]
    congr 2
    funext u
    rw [show ((w.setStore (w.store.detach e loc)).setSlots
        slots).store.cell x u = w.store.cell x u from
      ArchetypeStore.detach_cell consistent location isSelf u]

/-- A write changes one cell. -/
theorem writeComponent_bytesAt
    (consistent : w.store.Consistent registry)
    (location : w.store.entityLocations.lookup e = some loc)
    (present : t ∈ (w.store.deref loc.archetype).componentIds)
    {bytes : List UInt8} (sized : bytes.length = registry.sizeOf t)
    (x : Entity) (u : ComponentTypeId) :
    (w.writeComponent e loc t bytes).bytesAt x u =
      if x = e ∧ u = t then some bytes else w.bytesAt x u := by
  unfold bytesAt
  rw [writeComponent_cell consistent location present sized]
  by_cases here : x = e ∧ u = t
  · rw [if_pos here, if_pos here, Option.map_map]
    have isSome := (ArchetypeStore.Consistent.cell_isSome_iff location t).mpr
      present
    obtain ⟨c, found⟩ := Option.isSome_iff_exists.mp isSome
    rw [World.cell, found]
    rfl
  · rw [if_neg here, if_neg here]

/-- A write puts the bytes in place. -/
theorem writeComponent_contents
    (consistent : w.store.Consistent registry)
    (location : w.store.entityLocations.lookup e = some loc)
    (present : t ∈ (w.store.deref loc.archetype).componentIds)
    {bytes : List UInt8} (sized : bytes.length = registry.sizeOf t) :
    (w.writeComponent e loc t bytes).contents =
      w.contents.put e t (some bytes) := by
  have written := writeComponent_bytesAt consistent location present sized
  have alive := isAlive_of_location consistent location
  refine (Contents.adjust_eq_iff ?_).mpr ?_
  · intro x other
    unfold contents
    rw [writeComponent_isAlive]
    congr 2
    funext u
    rw [written, if_neg fun both => other both.1]
  · rw [contents_of_alive alive, contents_of_alive (by
      rw [writeComponent_isAlive]; exact alive), Option.map_some]
    congr 1
    funext u
    rw [written]
    simp [Components.put]

/-- A write through the pointer `get_raw` returns stores its bytes. -/
theorem writeRaw_contents
    (consistent : w.store.Consistent registry)
    {old : List UInt8} (found : w.getRaw e t = some old)
    (alive : w.isAlive e = true) (bytes : List UInt8) :
    (w.writeRaw e t bytes).contents = w.contents.put e t (some bytes) := by
  obtain ⟨loc, location⟩ := location_of_isAlive alive
  rw [← bytesAt_eq_getRaw consistent] at found
  have present : t ∈ (w.store.deref loc.archetype).componentIds :=
    (bytesAt_isSome_iff location t).mp (by rw [found]; rfl)
  unfold writeRaw
  rw [location]
  dsimp only
  rw [if_pos (Archetype.hasComponent_iff.mpr present)]
  have cells := setRow_cell consistent location present bytes
  have aliveSame : ∀ x, (w.modifyColumn loc t
      (·.setRow loc.row bytes)).isAlive x = w.isAlive x := fun x =>
    isAlive_congr (modifyColumn_entityLocations w loc t _) x
  refine (Contents.adjust_eq_iff fun x other => ?_).mpr ?_
  · unfold contents bytesAt
    rw [aliveSame]
    congr 2
    funext u
    rw [cells, if_neg fun both => other both.1]
  · rw [contents_of_alive alive, contents_of_alive ((aliveSame e).trans alive),
      Option.map_some]
    congr 1
    funext u
    unfold Components.put bytesAt
    rw [cells]
    by_cases here : u = t
    · rw [if_pos ⟨rfl, here⟩, if_pos here, Option.map_map]
      unfold bytesAt at found
      obtain ⟨c, cellFound, _⟩ := Option.map_eq_some_iff.mp found
      rw [cellFound]
      rfl
    · rw [if_neg fun both => here both.2, if_neg here]

/-- Tracking changes no bytes. -/
theorem ensureVersions_bytesAt
    (consistent : w.store.Consistent registry)
    (location : w.store.entityLocations.lookup e = some loc)
    (present : t ∈ (w.store.deref loc.archetype).componentIds)
    (tick : Nat) (x : Entity) (u : ComponentTypeId) :
    (w.modifyColumn loc t (·.ensureVersions tick)).bytesAt x u =
      w.bytesAt x u := by
  unfold bytesAt
  obtain same | ⟨_, stamped⟩ :=
    ensureVersions_cell consistent location present tick x u
  · rw [same]
  · rw [stamped, Option.map_map]
    rfl

/-- Marking changes no bytes. -/
theorem markRow_contents
    (consistent : w.store.Consistent registry)
    (location : w.store.entityLocations.lookup e = some loc)
    (present : t ∈ (w.store.deref loc.archetype).componentIds) :
    (w.markRow e loc t).contents = w.contents := by
  apply contents_eq_of
  · intro x
    exact isAlive_congr (markRow_entityLocations w e loc t) x
  · intro x u
    unfold bytesAt
    rw [markRow_cell consistent location present]
    by_cases here : x = e ∧ u = t
    · rw [if_pos here, here.1, here.2, Option.map_map]
      rfl
    · rw [if_neg here]
      exact ensureVersions_bytesAt consistent location present _ x u

/-- A move to another component set. -/
theorem moveToSet_contents
    (consistent : w.store.Consistent registry)
    (location : w.store.entityLocations.lookup e = some loc)
    {ids : List ComponentTypeId} (ascending : ids.Pairwise (· < ·))
    (registered : ∀ t ∈ ids, (registry.schemaOf t).isSome)
    (differs : (w.store.deref loc.archetype).componentIds ≠ ids) :
    (w.moveToSet registry e loc ids).1.contents =
      w.contents.adjust e (·.hostedBy registry ids) := by
  obtain ⟨ensuredConsistent, extends', listed, idsEq⟩ :=
    ArchetypeStore.ensureArchetype_spec consistent ascending registered
  have locationAfter :
      (w.store.ensureArchetype registry ids).1.entityLocations.lookup e =
        some loc := by
    rw [extends'.locations_eq]
    exact location
  have moves :
      loc.archetype ≠ (w.store.ensureArchetype registry ids).2 := by
    intro same
    rw [← same, extends'.deref_eq _ (consistent.valid location)] at idsEq
    exact differs idsEq
  have alive : ∀ x, (w.moveToSet registry e loc ids).1.isAlive x =
      w.isAlive x := by
    intro x
    have relocated := relocate_isAlive
      (w := w.setStore (w.store.ensureArchetype registry ids).1)
      ensuredConsistent locationAfter listed moves x
    refine relocated.trans ?_
    exact isAlive_congr extends'.locations_eq x
  have selfCell : ∀ u, (w.moveToSet registry e loc ids).1.cell e u = _ :=
    fun u => ArchetypeStore.relocate_cell_self ensuredConsistent locationAfter
      listed moves w.changeTick u
  have otherCell : ∀ x, x ≠ e → ∀ u,
      (w.moveToSet registry e loc ids).1.cell x u = w.cell x u := by
    intro x other u
    exact (ArchetypeStore.relocate_cell_of_ne ensuredConsistent locationAfter
      listed moves w.changeTick other u).trans (extends'.cell consistent x u)
  refine (Contents.adjust_eq_iff ?_).mpr ?_
  · intro x other
    unfold contents bytesAt
    rw [alive]
    congr 2
    funext u
    rw [otherCell x other]
  · have aliveSelf := isAlive_of_location consistent location
    rw [contents_of_alive aliveSelf,
      contents_of_alive ((alive e).trans aliveSelf), Option.map_some]
    congr 1
    funext u
    unfold bytesAt Components.hostedBy
    rw [selfCell, idsEq, extends'.cell consistent]
    by_cases member : u ∈ ids
    · rw [if_pos member, if_pos member]
      rfl
    · rw [if_neg member, if_neg member]
      rfl

/-! ## Operations -/

/-- A creation spawns its entity, unless the slots are used up. -/
theorem createEntity_contents
    (consistent : w.store.Consistent registry)
    (issuesDead : w.createEntity.2 ≠ Entity.null →
      w.isAlive w.createEntity.2 = false) :
    w.createEntity.1.state.contents =
      if w.createEntity.2 = Entity.null then w.contents
      else w.contents.spawn w.createEntity.2 := by
  cases allocates : w.slots.allocEntityId with
  | mk slots e =>
      simp only [createEntity, allocates] at issuesDead ⊢
      by_cases isNull : e = Entity.null
      · rw [if_pos isNull]
        dsimp only
        rw [if_pos isNull]
        exact contents_congr rfl
      · rw [if_neg isNull] at issuesDead ⊢
        dsimp only at issuesDead ⊢
        rw [if_neg isNull]
        have dead := lookup_eq_none_of_dead isNull (issuesDead isNull)
        have entered := enterEmpty_contents (w := w.setSlots slots) consistent
          isNull dead
        refine (contents_congr ?_).trans entered
        exact (agrees_invalidateCache _ : Agrees registry _ _).store_eq

/-- A destruction kills its entity. -/
theorem destroyEntity_contents
    (consistent : w.store.Consistent registry)
    (outside : w.inIteration = false) :
    (w.destroyEntity e).state.contents = w.contents.kill e := by
  unfold destroyEntity
  cases location : w.store.entityLocations.lookup e with
  | none =>
      have dead : w.isAlive e = false := by
        rw [isAlive, ArchetypeStore.isAlive, location]
        exact Bool.and_false _
      exact (Contents.kill_of_dead (contents_of_dead dead)).symm
  | some loc =>
      dsimp only
      rw [outside, if_neg Bool.false_ne_true]
      unfold leave
      dsimp only
      refine (contents_congr ?_).trans
        (detach_contents consistent location (w.slots.freeEntityId e))
      exact (agrees_invalidateCache _ : Agrees registry _ _).store_eq

/-- Adding a component puts its bytes; on a dead entity or an unknown type it
does nothing. -/
theorem addRaw_contents
    (consistent : w.store.Consistent registry)
    (immediate : w.deferMoves = false) (outside : w.inIteration = false)
    (data : Option (List UInt8)) :
    (w.addRaw registry e t data).state.contents =
      if (registry.schemaOf t).isSome then
        w.contents.put e t (some (componentBytes (registry.sizeOf t) data))
      else w.contents := by
  cases registered : registry.schemaOf t with
  | none =>
      rw [addRaw_unregistered data registered]
      rfl
  | some schema =>
  rw [show (some schema).isSome = true from rfl, if_pos rfl]
  cases alive : w.isAlive e with
  | false =>
      rw [addRaw_dead data alive, Contents.put,
        Contents.adjust_of_dead (contents_of_dead alive)]
      rfl
  | true =>
  obtain ⟨loc, location⟩ := location_of_isAlive alive
  have sizeEq := ComponentRegistry.sizeOf_of_schemaOf registered
  have sized : (componentBytes schema.size data).length =
      registry.sizeOf t := by
    rw [length_componentBytes, sizeEq]
  by_cases present : t ∈ (w.store.deref loc.archetype).componentIds
  · rw [addRaw_overwrites data alive registered location immediate present,
      sizeEq]
    exact writeComponent_contents consistent location present sized
  · obtain ⟨ascending, idsRegistered, differs⟩ := insertedIds_spec
      (consistent.archetypeOf location) present (by rw [registered]; rfl)
    obtain ⟨movedConsistent, newLocation, newIds⟩ := moveToSet_location
      consistent location ascending idsRegistered differs
    have newPresent : t ∈ sortIds
        ((w.store.deref loc.archetype).componentIds ++ [t]) := by
      rw [mem_sortIds]
      exact List.mem_append_right _ (List.mem_singleton_self t)
    have moved := moveToSet_contents consistent location ascending
      idsRegistered differs
    rw [← newIds] at newPresent
    rw [addRaw_moves data alive registered location immediate present outside]
    refine (contents_congr
      (agrees_invalidateCache _ : Agrees registry _ _).store_eq).trans ?_
    rw [writeComponent_contents movedConsistent newLocation newPresent sized,
      moved, sizeEq, Contents.put, Contents.adjust_adjust]
    apply Contents.adjust_congr
    intro components found
    rw [contents_of_alive alive, Option.some.injEq] at found
    subst found
    apply Components.hostedBy_put
    intro u
    rw [mem_sortIds, List.mem_append, List.mem_singleton,
      bytesAt_isSome_iff location, or_comm]

/-- Removing a component takes it away. -/
theorem removeComponent_contents
    (consistent : w.store.Consistent registry)
    (immediate : w.deferMoves = false) (outside : w.inIteration = false) :
    (w.removeComponent registry e t).state.contents =
      w.contents.put e t none := by
  cases alive : w.isAlive e with
  | false =>
      rw [removeComponent_dead alive,
        Contents.put, Contents.adjust_of_dead (contents_of_dead alive)]
      rfl
  | true =>
  obtain ⟨loc, location⟩ := location_of_isAlive alive
  have isSome := bytesAt_isSome_iff location
  by_cases present : t ∈ (w.store.deref loc.archetype).componentIds
  · obtain ⟨ascending, idsRegistered, differs⟩ := erasedIds_spec
      (consistent.archetypeOf location) present
    have nodup : (w.store.deref loc.archetype).componentIds.Nodup :=
      (consistent.archetypeOf location).ascending.imp fun less => ne_of_lt less
    have moved := moveToSet_contents consistent location ascending
      idsRegistered differs
    rw [removeComponent_moves alive location immediate present outside]
    refine (contents_congr
      (agrees_invalidateCache _ : Agrees registry _ _).store_eq).trans ?_
    rw [moved]
    apply Contents.adjust_congr
    intro components found
    rw [contents_of_alive alive, Option.some.injEq] at found
    subst found
    apply Components.hostedBy_loses
    intro u
    rw [nodup.mem_erase_iff, bytesAt_isSome_iff location]
  · rw [removeComponent_absent location immediate present]
    have unchanged : w.contents.put e t none = w.contents.adjust e id := by
      apply Contents.adjust_congr
      intro components found
      rw [contents_of_alive alive, Option.some.injEq] at found
      subst found
      apply Components.put_of_absent
      exact Option.not_isSome_iff_eq_none.mp ((isSome t).not.mpr present)
    rw [unchanged, Contents.adjust_id]
    rfl

end World
end VortarisECS
