import VortarisECS.Core.Reports
import VortarisECS.Core.TypedWalks
import VortarisECS.Core.WorldModes

/-!
# Enabled flags

Every row of an archetype has a flag that tells whether its entity is enabled.
A removal carries the flag of the entity it relocates along.  A row that is
added is enabled, also the one an entity is moved to.
-/

namespace VortarisECS

namespace Archetype

variable {registry : ComponentRegistry} {a : Archetype} {e : Entity}

/-- A row that does not exist has no flag. -/
theorem getEnabled_eq (a : Archetype) (row : Nat) :
    a.getEnabled row = (a.enabled[row]?).getD false := by
  unfold getEnabled
  by_cases inRange : row < a.enabled.length
  · rw [decide_eq_true inRange, Bool.true_and]
  · rw [decide_eq_false inRange,
      List.getElem?_eq_none (Nat.le_of_not_lt inRange)]
    rfl

/-- The flag of the last row moves into the hole with its entity. -/
theorem removeEntity_getEnabled
    (wellFormed : a.WellFormed registry) {r : Nat}
    (found : a.entities[r]? = some e) {j : Nat}
    (survives : j + 1 < a.entities.length) :
    (a.removeEntity e).1.getEnabled j =
      a.getEnabled (if j = r then a.entities.length - 1 else j) := by
  have parallel := wellFormed.enabledLength
  rw [getEnabled_eq, getEnabled_eq, removeEntity_eq wellFormed found]
  dsimp only
  rw [getElem?_swapRemove, parallel, if_pos survives]
  by_cases hole : j = r
  · rw [if_pos hole, if_pos hole, List.getLast?_eq_getElem?, parallel]
  · rw [if_neg hole, if_neg hole]

/-- A row that is added is enabled, and the others keep their flags. -/
theorem getEnabled_of_added
    {a' : Archetype} (added : a'.enabled = a.enabled ++ [true])
    (parallel : a.enabled.length = a.entities.length) :
    a'.getEnabled a.entities.length = true ∧
      ∀ row, row < a.entities.length →
        a'.getEnabled row = a.getEnabled row := by
  constructor
  · rw [getEnabled_eq, added, ← parallel, List.getElem?_concat_length]
    rfl
  · intro row inRange
    rw [getEnabled_eq, getEnabled_eq, added,
      List.getElem?_append_left (by omega)]

/-- The flags do not matter for being well formed. -/
theorem setEnabled_wellFormed
    (wellFormed : a.WellFormed registry) (row : Nat) (on : Bool) :
    (a.setEnabled row on).WellFormed registry where
  ascending := wellFormed.ascending
  registered := wellFormed.registered
  columnsLength := wellFormed.columnsLength
  columnSize := wellFormed.columnSize
  columnRows := wellFormed.columnRows
  enabledLength := by
    unfold setEnabled
    dsimp only
    split
    · rw [List.length_set]
      exact wellFormed.enabledLength
    · exact wellFormed.enabledLength
  inverse := wellFormed.inverse
  signed := wellFormed.signed

end Archetype

/-! ## Flags of a store -/

namespace ArchetypeStore

variable {registry : ComponentRegistry} {s s' : ArchetypeStore}
variable {e : Entity} {loc : EntityLocation}

/-- The flag in the row of an entity. -/
def isEnabled (s : ArchetypeStore) (e : Entity) : Bool :=
  match s.entityLocations.lookup e with
  | none => false
  | some loc => (s.deref loc.archetype).getEnabled loc.row

/-- The flag of an entity is the one in its row. -/
theorem isEnabled_of_location
    (location : s.entityLocations.lookup e = some loc) :
    s.isEnabled e = (s.deref loc.archetype).getEnabled loc.row := by
  unfold isEnabled
  rw [location]

/-- The other entities keep their flags, also the one that takes the row of the
entity that leaves. -/
theorem detach_isEnabled
    (consistent : s.Consistent registry)
    (location : s.entityLocations.lookup e = some loc)
    {x : Entity} (other : x ≠ e) :
    (s.detach e loc).isEnabled x = s.isEnabled x := by
  have lastLocation := last_located consistent location
  have wellFormed := consistent.archetypeOf location
  have inRow := consistent.inRow location
  have lookup := detach_lookup consistent location x
  rw [if_neg other] at lookup
  by_cases isLast : x = (s.deref loc.archetype).lastEntity
  · have inner : loc.row + 1 < (s.deref loc.archetype).entities.length := by
      have bounded := Archetype.row_lt inRow
      have notLast := (last_eq_iff consistent location).not.mp
        fun same => other (isLast.trans same)
      omega
    rw [if_pos isLast] at lookup
    rw [isEnabled_of_location lookup, detach_deref consistent location,
      if_pos rfl, Archetype.removeEntity_getEnabled wellFormed inRow inner,
      if_pos rfl, isLast, isEnabled_of_location lastLocation]
  · rw [if_neg isLast] at lookup
    cases xLocation : s.entityLocations.lookup x with
    | none =>
        rw [xLocation] at lookup
        unfold isEnabled
        rw [lookup, xLocation]
    | some xLoc =>
        rw [xLocation] at lookup
        rw [isEnabled_of_location lookup, isEnabled_of_location xLocation,
          detach_deref consistent location]
        by_cases here : xLoc.archetype = loc.archetype
        · have xRow := consistent.inRow xLocation
          rw [here] at xRow
          have xBound := Archetype.row_lt xRow
          have notHole : xLoc.row ≠ loc.row := by
            intro same
            rw [same, inRow] at xRow
            exact other (Option.some.inj xRow).symm
          have notEnd : xLoc.row ≠
              (s.deref loc.archetype).entities.length - 1 := by
            intro same
            rw [same, Archetype.lastEntity_eq inRow] at xRow
            exact isLast (Option.some.inj xRow).symm
          rw [if_pos here, here, Archetype.removeEntity_getEnabled wellFormed
            inRow (by omega), if_neg notHole]
        · rw [if_neg here]

/-- An entity that gets a new row is enabled there. -/
theorem Attached.isEnabled
    {p : Ptr} {a' : Archetype} (attached : Attached registry s s' p e a')
    (consistent : s.Consistent registry) (listed : p ∈ s.archetypeList)
    (added : a'.enabled = (s.deref p).enabled ++ [true]) (x : Entity) :
    s'.isEnabled x = if x = e then true else s.isEnabled x := by
  obtain ⟨fresh, old⟩ := Archetype.getEnabled_of_added added
    (consistent.wellFormed p listed).enabledLength
  have lookup := attached.lookup_eq x
  by_cases isSelf : x = e
  · rw [if_pos isSelf] at lookup
    rw [if_pos isSelf, isEnabled_of_location lookup, attached.deref_eq,
      if_pos rfl]
    exact fresh
  · rw [if_neg isSelf] at lookup ⊢
    cases location : s.entityLocations.lookup x with
    | none =>
        rw [location] at lookup
        unfold ArchetypeStore.isEnabled
        rw [lookup, location]
    | some loc =>
        rw [location] at lookup
        rw [isEnabled_of_location lookup, isEnabled_of_location location,
          attached.deref_eq]
        by_cases here : loc.archetype = p
        · have bounded := Archetype.row_lt (consistent.inRow location)
          rw [here] at bounded
          rw [if_pos here, here, old _ bounded]
        · rw [if_neg here]

/-- A moved entity is enabled, whatever its flag was. -/
theorem relocate_isEnabled
    (consistent : s.Consistent registry)
    (location : s.entityLocations.lookup e = some loc) {target : Ptr}
    (listed : target ∈ s.archetypeList) (moves : loc.archetype ≠ target)
    (tick : Nat) (x : Entity) :
    (s.relocate registry e loc target tick).1.isEnabled x =
      if x = e then true else s.isEnabled x := by
  have attached := relocate_attached consistent location listed moves tick
  have target' : (s.detach e loc).deref target = s.deref target := by
    rw [detach_deref consistent location, if_neg moves.symm]
  rw [attached.isEnabled (detach_consistent consistent location)
    (by rwa [detach_archetypeList]) (by rw [target']; rfl)]
  by_cases isSelf : x = e
  · rw [if_pos isSelf, if_pos isSelf]
  · rw [if_neg isSelf, if_neg isSelf, detach_isEnabled consistent location isSelf]

/-- A store with more archetypes has the same flags. -/
theorem Extends.isEnabled
    (extends' : Extends s s') (consistent : s.Consistent registry)
    (e : Entity) : s'.isEnabled e = s.isEnabled e := by
  unfold ArchetypeStore.isEnabled
  rw [extends'.locations_eq]
  cases location : s.entityLocations.lookup e with
  | none => rfl
  | some loc =>
      dsimp only
      rw [extends'.deref_eq _ (consistent.valid location)]

/-- Changing columns changes no flag. -/
theorem modify_isEnabled
    {p : Ptr} {f : Archetype → Archetype} (valid : p < s.heap.length)
    (same : (f (s.deref p)).enabled = (s.deref p).enabled) (e : Entity) :
    (s.modify p f).isEnabled e = s.isEnabled e := by
  have flags : ∀ q row, ((s.modify p f).deref q).getEnabled row =
      (s.deref q).getEnabled row := by
    intro q row
    rw [deref_modify f valid]
    split
    next here => rw [Archetype.getEnabled_eq, same, here, Archetype.getEnabled_eq]
    next => rfl
  unfold isEnabled
  change (match s.entityLocations.lookup e with
    | none => false
    | some loc => ((s.modify p f).deref loc.archetype).getEnabled loc.row) = _
  simp only [flags]

end ArchetypeStore

/-! ## Flags of a world -/

namespace World

variable {registry : ComponentRegistry} {w w' : World} {e x : Entity}
variable {loc : EntityLocation} {t : ComponentTypeId}

/-- The enabled flag in the row of an entity. -/
def isEnabled (w : World) (e : Entity) : Bool := w.store.isEnabled e

theorem isEnabled_of_store_eq (same : w'.store = w.store) (x : Entity) :
    w'.isEnabled x = w.isEnabled x := by
  unfold isEnabled
  rw [same]

theorem isAlive_invalidateCache (w : World) (e : Entity) :
    w.invalidateCache.isAlive e = w.isAlive e := by
  unfold invalidateCache
  split <;> rfl

theorem isEnabled_invalidateCache (w : World) (e : Entity) :
    w.invalidateCache.isEnabled e = w.isEnabled e := by
  unfold invalidateCache
  split <;> rfl

/-- Changing a column changes no flag. -/
theorem modifyColumn_isEnabled
    (consistent : w.store.Consistent registry)
    (location : w.store.entityLocations.lookup e = some loc)
    (f : Column → Column) (x : Entity) :
    (w.modifyColumn loc t f).isEnabled x = w.isEnabled x :=
  ArchetypeStore.modify_isEnabled (consistent.valid location) rfl x

theorem stampWrite_isEnabled
    (consistent : w.store.Consistent registry)
    (location : w.store.entityLocations.lookup e = some loc)
    (t : ComponentTypeId) (x : Entity) :
    (w.stampWrite e loc t).isEnabled x = w.isEnabled x := by
  unfold isEnabled
  rw [stampWrite_store]
  exact modifyColumn_isEnabled (w := w.bumpTick) consistent location _ x

/-- A write changes no flag. -/
theorem writeComponent_isEnabled
    (consistent : w.store.Consistent registry)
    (location : w.store.entityLocations.lookup e = some loc)
    (present : t ∈ (w.store.deref loc.archetype).componentIds)
    {bytes : List UInt8} (sized : bytes.length = registry.sizeOf t)
    (x : Entity) :
    (w.writeComponent e loc t bytes).isEnabled x = w.isEnabled x := by
  have overwritten := overwrite_consistent consistent location present sized
  unfold writeComponent
  rw [stampWrite_isEnabled overwritten location,
    modifyColumn_isEnabled consistent location]

/-- An entity that enters changes no other flag. -/
theorem enterEmpty_isEnabled
    (consistent : w.store.Consistent registry)
    (dead : w.store.entityLocations.lookup e = none) (other : x ≠ e) :
    (w.enterEmpty e).isEnabled x = w.isEnabled x := by
  have attached := ArchetypeStore.addTo_attached consistent
    consistent.emptyListed dead w.changeTick
  exact (attached.isEnabled consistent consistent.emptyListed rfl x).trans
    (if_neg other)

/-- An entity that leaves takes its flag along, and no other. -/
theorem leave_isEnabled
    (consistent : w.store.Consistent registry)
    (location : w.store.entityLocations.lookup e = some loc)
    (slots : EntitySlots) (other : x ≠ e) :
    (w.leave e loc slots).state.isEnabled x = w.isEnabled x :=
  (isEnabled_invalidateCache _ x).trans
    (ArchetypeStore.detach_isEnabled consistent location other)

/-- An entity that is moved is enabled afterwards, and no other flag changes. -/
theorem moveToSet_isEnabled
    (consistent : w.store.Consistent registry)
    (location : w.store.entityLocations.lookup e = some loc)
    {ids : List ComponentTypeId} (ascending : ids.Pairwise (· < ·))
    (registered : ∀ t ∈ ids, (registry.schemaOf t).isSome)
    (differs : (w.store.deref loc.archetype).componentIds ≠ ids) (x : Entity) :
    (w.moveToSet registry e loc ids).1.isEnabled x =
      if x = e then true else w.isEnabled x := by
  obtain ⟨ensuredConsistent, extends', listed, idsEq⟩ :=
    ArchetypeStore.ensureArchetype_spec consistent ascending registered
  have moves : loc.archetype ≠ (w.store.ensureArchetype registry ids).2 := by
    intro same
    rw [← same, extends'.deref_eq _ (consistent.valid location)] at idsEq
    exact differs idsEq
  refine (ArchetypeStore.relocate_isEnabled ensuredConsistent
    (by rw [extends'.locations_eq]; exact location) listed moves
    w.changeTick x).trans ?_
  rw [extends'.isEnabled consistent]
  rfl

/-! ## Who is enabled again -/

/-- The entities that move are enabled in their new rows; the others that stay
alive keep their flags. -/
structure Reenables (moves : Entity → Prop) (w w' : World) : Prop where
  moved : ∀ x, moves x → w'.isAlive x = true ∧ w'.isEnabled x = true
  stayed : ∀ x, ¬moves x → w.isAlive x = true → w'.isAlive x = true →
    w'.isEnabled x = w.isEnabled x

/-- Only which entities move matters. -/
theorem Reenables.congr
    {moves moves' : Entity → Prop} (reenables : Reenables moves w w')
    (same : ∀ x, moves' x ↔ moves x) : Reenables moves' w w' where
  moved x moving := reenables.moved x ((same x).mp moving)
  stayed x still := reenables.stayed x ((same x).not.mp still)

/-- Nobody moves. -/
theorem Reenables.none
    {moves : Entity → Prop} (still : ∀ x, ¬moves x)
    (same : ∀ x, w'.isEnabled x = w.isEnabled x) : Reenables moves w w' where
  moved x moving := absurd moving (still x)
  stayed x _ _ _ := same x

/-- One entity moves. -/
theorem Reenables.one
    {moves : Entity → Prop} (only : ∀ x, moves x ↔ x = e)
    (alive : w'.isAlive e = true)
    (flags : ∀ x, w'.isEnabled x = if x = e then true else w.isEnabled x) :
    Reenables moves w w' where
  moved x moving := by
    obtain rfl := (only x).mp moving
    exact ⟨alive, (flags x).trans (if_pos rfl)⟩
  stayed x still _ _ :=
    (flags x).trans (if_neg ((only x).not.mp still))

/-! ## Immediate changes -/

/-- What an entity has is what its archetype has. -/
theorem has_of_location
    (consistent : w.store.Consistent registry)
    (location : w.store.entityLocations.lookup e = some loc) :
    w.has e t = (w.store.deref loc.archetype).hasComponent t := by
  unfold «has»
  rw [location]
  dsimp only
  rw [decide_eq_true (real_of_location consistent location), Bool.true_and]

theorem deferOp_store (w : World) (e : Entity) (op : PendingComponentOp) :
    (w.deferOp e op).store = w.store := by
  unfold deferOp queueDeferredMove
  split <;> rfl

/-- An addition moves the entity, unless it has the component. -/
theorem addRaw_reenables
    (consistent : w.store.Consistent registry) (data : Option (List UInt8)) :
    Reenables (fun x => x = e ∧ w.isAlive e = true ∧
        (registry.schemaOf t).isSome ∧ w.deferMoves = false ∧
        w.inIteration = false ∧ w.has e t = false)
      w (w.addRaw registry e t data).state := by
  cases alive : w.isAlive e with
  | false =>
      rw [addRaw_dead data alive]
      exact .none (by simp) fun _ => rfl
  | true =>
  cases registered : registry.schemaOf t with
  | none =>
      rw [addRaw_unregistered data registered]
      exact .none (by simp) fun _ => rfl
  | some schema =>
  obtain ⟨loc, location⟩ := location_of_isAlive alive
  rw [has_of_location consistent location]
  have sized : ∀ data, (componentBytes schema.size data).length =
      registry.sizeOf t := fun data => by
    rw [length_componentBytes, ComponentRegistry.sizeOf_of_schemaOf registered]
  cases deferred : w.deferMoves with
  | true =>
      rw [addRaw_deferred data alive registered deferred]
      exact .none (by simp) (isEnabled_of_store_eq (deferOp_store w e _))
  | false =>
  cases present : (w.store.deref loc.archetype).hasComponent t with
  | true =>
      have member := Archetype.hasComponent_iff.mp present
      rw [addRaw_overwrites data alive registered location deferred member]
      exact .none (by simp)
        (writeComponent_isEnabled consistent location member (sized data))
  | false =>
  have absent : t ∉ (w.store.deref loc.archetype).componentIds :=
    Archetype.hasComponent_iff.not.mp (by rw [present]; exact Bool.false_ne_true)
  cases inside : w.inIteration with
  | true =>
      rw [addRaw_iterating data location deferred absent inside]
      exact .none (by simp) fun _ => rfl
  | false =>
      obtain ⟨ascending, idsRegistered, differs⟩ := insertedIds_spec
        (consistent.archetypeOf location) absent (by rw [registered]; rfl)
      obtain ⟨movedConsistent, newLocation, newIds⟩ := moveToSet_location
        consistent location ascending idsRegistered differs
      have moved := moveToSet_isEnabled consistent location ascending
        idsRegistered differs
      have newPresent : t ∈ sortIds
          ((w.store.deref loc.archetype).componentIds ++ [t]) := by
        rw [mem_sortIds]
        exact List.mem_append_right _ (List.mem_singleton_self t)
      rw [← newIds] at newPresent
      rw [addRaw_moves data alive registered location deferred absent inside]
      refine .one (e := e) (by simp) ?_ fun x => ?_
      · dsimp only
        rw [isAlive_invalidateCache, writeComponent_isAlive]
        exact isAlive_of_location movedConsistent newLocation
      · dsimp only
        rw [isEnabled_invalidateCache, writeComponent_isEnabled movedConsistent
          newLocation newPresent (sized data), moved]

/-- A removal moves the entity if it has the component. -/
theorem removeComponent_reenables (consistent : w.store.Consistent registry) :
    Reenables (fun x => x = e ∧ w.isAlive e = true ∧ w.deferMoves = false ∧
        w.inIteration = false ∧ w.has e t = true)
      w (w.removeComponent registry e t).state := by
  cases alive : w.isAlive e with
  | false =>
      rw [removeComponent_dead alive]
      exact .none (by simp) fun _ => rfl
  | true =>
  obtain ⟨loc, location⟩ := location_of_isAlive alive
  rw [has_of_location consistent location]
  cases deferred : w.deferMoves with
  | true =>
      rw [removeComponent_deferred alive deferred]
      exact .none (by simp) (isEnabled_of_store_eq (deferOp_store w e _))
  | false =>
  cases inside : w.inIteration with
  | true =>
      rw [removeComponent_iterating deferred inside]
      exact .none (by simp) fun _ => rfl
  | false =>
  cases present : (w.store.deref loc.archetype).hasComponent t with
  | false =>
      rw [removeComponent_absent location deferred
        (Archetype.hasComponent_iff.not.mp
          (by rw [present]; exact Bool.false_ne_true))]
      exact .none (by simp) fun _ => rfl
  | true =>
      have member := Archetype.hasComponent_iff.mp present
      obtain ⟨ascending, idsRegistered, differs⟩ := erasedIds_spec
        (consistent.archetypeOf location) member
      obtain ⟨movedConsistent, newLocation, _⟩ := moveToSet_location
        consistent location ascending idsRegistered differs
      rw [removeComponent_moves alive location deferred member inside]
      refine .one (e := e) (by simp) ?_ fun x => ?_
      · dsimp only
        rw [isAlive_invalidateCache]
        exact isAlive_of_location movedConsistent newLocation
      · dsimp only
        rw [isEnabled_invalidateCache, moveToSet_isEnabled consistent location
          ascending idsRegistered differs]

/-- A move to another archetype enables the entity, unless it is refused. -/
theorem moveEntity_reenables
    (consistent : w.store.Consistent registry) {target : Ptr}
    (listed : target ∈ w.store.archetypeList) :
    Reenables (fun x => x = e ∧ w.inIteration = false ∧
        ∃ loc, w.store.entityLocations.lookup e = some loc ∧
          loc.archetype ≠ target)
      w (w.moveEntity registry e target).state := by
  unfold moveEntity
  cases location : w.store.entityLocations.lookup e with
  | none => exact .none (by simp) fun _ => rfl
  | some loc =>
      have alive := isAlive_of_location consistent location
      dsimp only
      split
      next refused =>
          refine .none ?_ fun _ => rfl
          rintro x ⟨rfl, outside, _, found, moves⟩
          cases found
          simp [alive, outside, moves] at refused
      next proceeds =>
          rw [alive] at proceeds
          simp only [Bool.not_true, Bool.false_eq_true, false_or, not_or,
            Bool.not_eq_true] at proceeds
          obtain ⟨outside, moves⟩ := proceeds
          refine .one (e := e) (by simp [outside, moves]) ?_ fun x => ?_
          · dsimp only
            rw [isAlive_invalidateCache,
              relocate_isAlive consistent location listed moves]
            exact alive
          · dsimp only
            rw [isEnabled_invalidateCache]
            exact ArchetypeStore.relocate_isEnabled consistent location listed
              moves w.changeTick x

/-- Whoever is alive afterwards was alive before and has the same flag. -/
def SurvivorsKeep (w w' : World) : Prop :=
  ∀ x, w'.isAlive x = true →
    w.isAlive x = true ∧ w'.isEnabled x = w.isEnabled x

/-- Nothing happens, and everybody keeps the flag. -/
theorem SurvivorsKeep.refl (w : World) : SurvivorsKeep w w :=
  fun _ alive => ⟨alive, rfl⟩

/-- Where nobody moves, survivors keep their flags. -/
theorem SurvivorsKeep.reenables
    {moves : Entity → Prop} (keep : SurvivorsKeep w w')
    (still : ∀ x, ¬moves x) : Reenables moves w w' where
  moved x moving := absurd moving (still x)
  stayed x _ _ survives := (keep x survives).2

/-- Those who do not leave keep their flags. -/
theorem leave_survivorsKeep
    (consistent : w.store.Consistent registry)
    (location : w.store.entityLocations.lookup e = some loc)
    (slots : EntitySlots) : SurvivorsKeep w (w.leave e loc slots).state := by
  intro x survives
  unfold leave at survives
  dsimp only at survives
  rw [isAlive_invalidateCache, leave_isAlive consistent location] at survives
  exact ⟨survives.2, leave_isEnabled consistent location slots survives.1⟩

/-- A destruction moves no flag to another entity. -/
theorem destroyEntity_survivorsKeep
    (consistent : w.store.Consistent registry) (e : Entity) :
    SurvivorsKeep w (w.destroyEntity e).state := by
  unfold destroyEntity
  cases location : w.store.entityLocations.lookup e with
  | none => exact .refl w
  | some loc =>
      dsimp only
      split
      · exact .refl w
      · exact leave_survivorsKeep consistent location _

theorem destroyEntityPooled_survivorsKeep
    (consistent : w.store.Consistent registry) (e : Entity) :
    SurvivorsKeep w (w.destroyEntityPooled e).state := by
  unfold destroyEntityPooled
  cases location : w.store.entityLocations.lookup e with
  | none => exact .refl w
  | some loc =>
      dsimp only
      split
      · exact .refl w
      · exact leave_survivorsKeep consistent location _

/-! ## Flushed changes -/

/-- The operations take the entity to another component set. -/
def Reshapes (w : World) (e : Entity) (ops : List PendingComponentOp) : Prop :=
  w.isAlive e = true ∧ sortIds (finalSet (w.getEntityComponentTypes e) ops) ≠
    w.getEntityComponentTypes e

/-- The components of an entity are those of its archetype. -/
theorem types_of_location
    (consistent : w.store.Consistent registry)
    (location : w.store.entityLocations.lookup e = some loc) :
    w.getEntityComponentTypes e = (w.store.deref loc.archetype).componentIds := by
  unfold getEntityComponentTypes
  rw [isAlive_of_location consistent location,
    ArchetypeStore.typesOf_of_location location]
  rfl

/-- No operation, no other component set. -/
theorem not_reshapes_nil (consistent : w.store.Consistent registry) (e : Entity) :
    ¬w.Reshapes e [] := by
  rintro ⟨_, differs⟩
  exact differs (List.Pairwise.insertionSort_eq
    (((represents_contents consistent).typesAscending e).imp le_of_lt))

/-- The writing loop of a flush leaves the flags alone. -/
theorem commitWrites_isEnabled
    {last : AList fun _ : ComponentTypeId => Option (List UInt8)}
    (consistent : w.store.Consistent registry)
    (location : w.store.entityLocations.lookup e = some loc)
    (sized : DataSized registry last) {ts : List ComponentTypeId}
    (present : ∀ t ∈ ts, t ∈ (w.store.deref loc.archetype).componentIds)
    (x : Entity) :
    (Traced.forEach (commitWrite registry e loc last) w ts).state.isEnabled x =
      w.isEnabled x := by
  induction ts generalizing w with
  | nil => rfl
  | cons t ts inductionHypothesis =>
      have presentHead := present t List.mem_cons_self
      have presentTail : ∀ u ∈ ts,
          u ∈ (w.store.deref loc.archetype).componentIds :=
        fun u member => present u (List.mem_cons_of_mem t member)
      rw [Traced.forEach_cons, Traced.andThen_state]
      cases found : last.lookup t with
      | none =>
          rw [commitWrite_skips found]
          exact inductionHypothesis consistent location presentTail
      | some data =>
          rw [commitWrite_eq consistent location sized presentHead found]
          have bytesSized := length_componentBytes (registry.sizeOf t) data
          rw [inductionHypothesis
              (writeComponent_consistent consistent location presentHead
                bytesSized)
              (by rw [writeComponent_entityLocations]; exact location)
              (fun u member => by
                rw [writeComponent_componentIds]
                exact presentTail u member),
            writeComponent_isEnabled consistent location presentHead bytesSized]

/-- Committing an entity enables it if its component set changes. -/
theorem commitDeferredMove_isEnabled
    (stable : w.Stable registry) (e x : Entity) :
    (x = e ∧ w.Reshapes e ((w.pendingOps.lookup e).getD []) →
      (w.commitDeferredMove registry e).state.isEnabled x = true) ∧
    (¬(x = e ∧ w.Reshapes e ((w.pendingOps.lookup e).getD [])) →
      (w.commitDeferredMove registry e).state.isEnabled x = w.isEnabled x) := by
  have consistent := stable.consistent
  cases queued : w.pendingOps.lookup e with
  | none =>
      have same : w.commitDeferredMove registry e = .pure w := by
        unfold commitDeferredMove
        rw [queued]
        split
        next found => cases found
        next => rfl
      rw [same]
      exact ⟨fun both => absurd both.2 (not_reshapes_nil consistent e),
        fun _ => rfl⟩
  | some ops =>
  cases location : w.store.entityLocations.lookup e with
  | none =>
      have dead : w.isAlive e ≠ true := fun alive => by
        obtain ⟨loc, found⟩ := location_of_isAlive alive
        rw [location] at found
        cases found
      unfold commitDeferredMove
      rw [location]
      exact ⟨fun both => absurd both.2.1 dead, fun _ => rfl⟩
  | some loc =>
  have sized := lastAddData_sized (stable.pendingSound e ops queued)
  obtain ⟨ascending, registered⟩ := finalIds_spec
    (consistent.archetypeOf location) (stable.pendingSound e ops queued)
  unfold Reshapes
  rw [types_of_location consistent location,
    isAlive_of_location consistent location, Option.getD_some]
  unfold commitDeferredMove
  rw [location, queued]
  dsimp only
  split
  next structural =>
      obtain ⟨movedConsistent, newLocation, newIds⟩ := moveToSet_location
        consistent location ascending registered structural.symm
      dsimp only
      rw [isEnabled_invalidateCache, commitWrites_isEnabled movedConsistent
        newLocation sized (fun t member => by rw [newIds]; exact member),
        moveToSet_isEnabled consistent location ascending registered
          structural.symm]
      constructor
      · exact fun both => if_pos both.1
      · exact fun neither => if_neg fun isSelf =>
          neither ⟨isSelf, rfl, structural⟩
  next same =>
      refine ⟨fun both => absurd both.2.2 same, fun _ => ?_⟩
      rw [not_not] at same
      exact commitWrites_isEnabled consistent location sized
        (fun t member => by rw [same] at member; exact member) x

/-- A flush moves the entity: it is not to be destroyed, and its queued
operations take it to another component set. -/
def FlushMoves (w : World) (e : Entity) : Prop :=
  e ∉ w.pendingDestroy ∧ w.Reshapes e ((w.pendingOps.lookup e).getD [])

/-- What a flush does to an entity depends on the queues and on what the entity
has. -/
theorem flushMoves_congr
    (consistent : w.store.Consistent registry)
    (consistent' : w'.store.Consistent registry)
    (control : w'.control = w.control)
    (contents : w'.contents x = w.contents x) :
    w'.FlushMoves x ↔ w.FlushMoves x := by
  have types : w'.getEntityComponentTypes x = w.getEntityComponentTypes x :=
    types_eq_of_contents consistent consistent' fun t => by rw [contents]
  have alive : w'.isAlive x = w.isAlive x := by
    rw [← contents_isSome, ← contents_isSome, contents]
  have doomed : w'.pendingDestroy = w.pendingDestroy :=
    congrArg Control.pendingDestroy control
  have queued : w'.pendingOps = w.pendingOps :=
    congrArg Control.pendingOps control
  unfold FlushMoves Reshapes
  rw [types, alive, doomed, queued]

/-- The destructions at the end of a window move no flag. -/
theorem destroyLoop_survivorsKeep
    (stable : w.Stable registry) (entities : List Entity) :
    SurvivorsKeep w (Traced.forEach flushDestroy w entities).state := by
  induction entities generalizing w with
  | nil => exact .refl w
  | cons e entities inductionHypothesis =>
      rw [Traced.forEach_cons, Traced.andThen_state]
      intro x survives
      obtain ⟨alive, same⟩ :=
        inductionHypothesis (flushDestroy_stable stable e) x survives
      rw [same]
      revert alive
      unfold flushDestroy
      split
      · exact destroyEntity_survivorsKeep stable.consistent e x
      · exact fun alive => ⟨alive, rfl⟩

/-- The end of a window enables the entities it moves. -/
theorem flushMove_isEnabled
    (stable : w.Stable registry) (e x : Entity) :
    (x = e ∧ w.FlushMoves e →
      (w.flushMove registry e).state.isEnabled x = true) ∧
    (¬(x = e ∧ w.FlushMoves e) →
      (w.flushMove registry e).state.isEnabled x = w.isEnabled x) := by
  obtain ⟨moved, stayed⟩ := commitDeferredMove_isEnabled stable e x
  unfold flushMove
  split
  next doomed => exact ⟨fun both => absurd doomed both.2.1, fun _ => rfl⟩
  next spared =>
      exact ⟨fun both => moved ⟨both.1, both.2.2⟩,
        fun neither => stayed fun both => neither ⟨both.1, spared, both.2⟩⟩

/-- The moving loop enables the entities it moves. -/
theorem moveLoop_isEnabled
    (stable : w.Stable registry) {entities : List Entity}
    (once : entities.Nodup) (x : Entity) :
    (x ∈ entities ∧ w.FlushMoves x →
      (Traced.forEach (flushMove registry) w entities).state.isEnabled x =
        true) ∧
    (¬(x ∈ entities ∧ w.FlushMoves x) →
      (Traced.forEach (flushMove registry) w entities).state.isEnabled x =
        w.isEnabled x) := by
  induction entities generalizing w with
  | nil => exact ⟨fun both => absurd both.1 List.not_mem_nil, fun _ => rfl⟩
  | cons e entities inductionHypothesis =>
      rw [List.nodup_cons] at once
      have stable' := flushMove_stable stable e
      obtain ⟨moved, stayed⟩ := flushMove_isEnabled stable e x
      obtain ⟨later, rest⟩ := inductionHypothesis stable' once.2
      rw [Traced.forEach_cons, Traced.andThen_state]
      by_cases isHead : x = e
      · subst isHead
        rw [rest fun both => once.1 both.1]
        exact ⟨fun both => moved ⟨rfl, both.2⟩, fun neither =>
          stayed fun both => neither ⟨List.mem_cons_self, both.2⟩⟩
      · have contents : (w.flushMove registry e).state.contents x =
            w.contents x := by
          rw [flushMove_contents stable]
          split
          · rfl
          · exact Contents.adjust_of_ne _ _ isHead
        have same := flushMoves_congr stable.consistent stable'.consistent
          (flushMove_control registry w e) contents
        rw [same] at later rest
        rw [List.mem_cons, or_iff_right isHead]
        exact ⟨later, fun neither => (rest neither).trans
          (stayed fun both => isHead both.1)⟩

/-- The end of a deferred window moves the entities whose queued operations take
them to another component set. -/
theorem endDeferredMoves_reenables
    (stable : w.Stable registry) (listed : w.control.Listed) :
    Reenables (fun x => w.deferMoves = true ∧ w.FlushMoves x) w
      (w.endDeferredMoves registry).state := by
  cases deferred : w.deferMoves with
  | false =>
      have same : w.endDeferredMoves registry = .pure w := by
        unfold endDeferredMoves
        rw [deferred]
        rfl
      rw [same]
      exact .none (by simp) fun _ => rfl
  | true =>
  have once : w.deferredEntities.Nodup := listed.once
  obtain ⟨destroyedStable, destroyed⟩ :=
    closedDestroyLoop_spec stable listed.listed
  have keep := destroyLoop_survivorsKeep (w := { w with deferMoves := false })
    ⟨stable.consistent, stable.pendingSound, stable.poolReal⟩
    w.deferredEntities
  have control := forEach_control flushDestroy_control
    { w with deferMoves := false } w.deferredEntities
  unfold endDeferredMoves
  rw [deferred, if_neg (by simp)]
  dsimp only
  rw [Traced.mapState_state, Traced.andThen_state]
  generalize (Traced.forEach flushDestroy { w with deferMoves := false }
    w.deferredEntities).state = middle at *
  obtain ⟨_, movedContents⟩ := moveLoop_spec destroyedStable once
  have flags := moveLoop_isEnabled destroyedStable once
  generalize (Traced.forEach (flushMove registry) middle
    w.deferredEntities).state = last at *
  have finished : last.clearPending.releaseInvalidation.store = last.store := by
    unfold releaseInvalidation
    split <;> rfl
  have alive : ∀ x, last.clearPending.releaseInvalidation.isAlive x =
      last.isAlive x := fun x =>
    isAlive_congr (congrArg ArchetypeStore.entityLocations finished) x
  -- Entities that are not doomed are as they were when the moving loop begins.
  have spared : ∀ x, x ∉ w.pendingDestroy →
      (middle.FlushMoves x ↔ w.FlushMoves x) := fun x notDoomed => by
    have contents := destroyed x
    rw [if_neg fun both => notDoomed both.1] at contents
    exact flushMoves_congr (w := { w with deferMoves := false })
      stable.consistent destroyedStable.consistent control contents
  have aliveBefore : ∀ x, last.isAlive x = middle.isAlive x := fun x => by
    rw [← contents_isSome, ← contents_isSome, movedContents x]
    split
    · exact Option.isSome_map
    · rfl
  constructor
  · rintro x ⟨_, moves⟩
    have visited : x ∈ w.deferredEntities := by
      refine (listed.listed x).mpr (.inr (Option.isSome_iff_ne_none.mpr ?_))
      intro (noOps : w.pendingOps.lookup x = none)
      have reshapes := moves.2
      rw [noOps] at reshapes
      exact not_reshapes_nil stable.consistent x reshapes
    constructor
    · rw [alive, aliveBefore, ← contents_isSome, destroyed x,
        if_neg fun both => moves.1 both.1, contents_isSome]
      exact moves.2.1
    · rw [isEnabled_of_store_eq finished]
      exact (flags x).1 ⟨visited, (spared x moves.1).mpr moves⟩
  · intro x still _ survives
    rw [alive, aliveBefore] at survives
    rw [isEnabled_of_store_eq finished, (flags x).2 ?_, (keep x survives).2]
    · rfl
    · rintro ⟨_, moves⟩
      have doomedSame : middle.pendingDestroy = w.pendingDestroy :=
        congrArg Control.pendingDestroy control
      have notDoomed := moves.1
      rw [doomedSame] at notDoomed
      exact still ⟨rfl, (spared x notDoomed).mp moves⟩

end World
end VortarisECS
