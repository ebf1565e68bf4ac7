import VortarisECS.Core.WorldCells
import VortarisECS.Core.WorldSteps

/-!
# World operations as elementary steps

Every operation of a world is a sequence of elementary steps.
-/

namespace VortarisECS
namespace World

variable {registry : ComponentRegistry} {invariant : World → Prop}
variable {accept : Effect → Prop}

/-! ## Entities -/

/-- A creation takes steps of the world. -/
theorem createEntity_realizes :
    Realizes registry invariant accept fun w =>
      discardHandle w.createEntity := by
  intro w _ _
  cases allocates : w.slots.allocEntityId with
  | mk slots e =>
      simp only [discardHandle, createEntity, allocates]
      by_cases isNull : e = Entity.null
      · subst isNull
        rw [if_pos rfl]
        exact Steps.single (.exhaust allocates)
      · rw [if_neg isNull]
        have issued : Steps registry _ _ _ :=
          Steps.single (Step.issue (Or.inl allocates) isNull)
        exact issued.andAgrees (agrees_invalidateCache _)

/-- So does a creation of a given id. -/
theorem createEntityPreassigned_realizes (id : UInt64) :
    Realizes registry invariant accept fun w =>
      w.createEntityPreassigned id := by
  intro w _ _
  simp only [createEntityPreassigned]
  by_cases malformed : (⟨id⟩ : Entity).slot = 2 ^ 32 - 1
  · rw [if_pos malformed]
    exact Steps.refl w
  · rw [if_neg malformed]
    by_cases runaway : (⟨id⟩ : Entity).slot ≥ maxPreassignedSlot
    · rw [if_pos runaway]
      exact Steps.refl w
    · rw [if_neg runaway]
      have bounded : (⟨id⟩ : Entity).slot < maxPreassignedSlot := by omega
      cases alive : w.store.isAlive ⟨id⟩ with
      | true =>
          have grownAlive :
              (w.setSlots (w.slots.growTo
                ((⟨id⟩ : Entity).slot + 1))).store.isAlive ⟨id⟩ = true := alive
          rw [if_pos grownAlive]
          apply Steps.single
          apply Step.grow
          unfold maxPreassignedSlot at bounded
          omega
      | false =>
          have grownDead :
              ¬(w.setSlots (w.slots.growTo
                ((⟨id⟩ : Entity).slot + 1))).store.isAlive ⟨id⟩ = true :=
            Bool.eq_false_iff.mp alive
          rw [if_neg grownDead]
          have adopted : Steps registry _ _ _ :=
            Steps.single (Step.adopt bounded alive)
          exact adopted.andAgrees (agrees_invalidateCache _)

/-- Removals are announced. -/
theorem removedEvents_announce
    {e : Entity} {types : List ComponentTypeId} {seen : World} :
    ∀ effect ∈ removedEvents e types seen, effect.IsAnnouncement := by
  intro effect member
  obtain ⟨t, _, rfl⟩ := List.mem_map.mp member
  trivial

/-- An entity that leaves takes one step. -/
theorem leave_steps
    {w : World} {e : Entity} {loc : EntityLocation} {slots : EntitySlots}
    (location : w.store.entityLocations.lookup e = some loc)
    (releases : w.slots.Releases e slots) :
    Steps registry w (w.leave e loc slots).effects
      (w.leave e loc slots).state := by
  have left : Steps registry _ _ _ :=
    Steps.single (Step.leave location releases)
  exact left.andQuiet (agrees_invalidateCache _) removedEvents_announce

/-- A destruction takes steps of the world. -/
theorem destroyEntity_realizes (e : Entity) :
    Realizes registry invariant accept fun w => w.destroyEntity e := by
  intro w _ _
  dsimp only
  unfold destroyEntity
  cases location : w.store.entityLocations.lookup e with
  | none => exact Steps.refl w
  | some loc =>
      dsimp only
      split
      · exact Steps.refl w
      · exact leave_steps location (Or.inl rfl)

/-- So does a creation from the pool. -/
theorem createEntityPooled_realizes
    (inductiveOn : InductiveOn registry invariant accept) :
    Realizes registry invariant accept fun w =>
      discardHandle w.createEntityPooled := by
  intro w holds accepted
  cases pooled : w.slots.poolSlots with
  | nil =>
      simp only [discardHandle, createEntityPooled, pooled] at accepted ⊢
      exact createEntity_realizes w holds accepted
  | cons e rest =>
      have real := inductiveOn.poolReal w holds e
        (by rw [pooled]; exact List.mem_cons_self)
      simp only [discardHandle, createEntityPooled, pooled]
      have issues : w.slots.Issues e { w.slots with poolSlots := rest } :=
        Or.inr ⟨pooled, rfl⟩
      have issued : Steps registry _ _ _ :=
        Steps.single (Step.issue issues real)
      exact issued.andAgrees (agrees_invalidateCache _)

/-- So does a destruction into the pool. -/
theorem destroyEntityPooled_realizes (e : Entity) :
    Realizes registry invariant accept fun w => w.destroyEntityPooled e := by
  intro w _ _
  dsimp only
  unfold destroyEntityPooled
  cases location : w.store.entityLocations.lookup e with
  | none => exact Steps.refl w
  | some loc =>
      dsimp only
      split
      · exact Steps.refl w
      · exact leave_steps location (Or.inr rfl)

/-- A range of ids is a step of the allocator. -/
theorem setEntityRange_realizes (baseIndex : UInt32) :
    Realizes registry invariant accept fun w =>
      Traced.pure (w.setEntityRange baseIndex) :=
  fun w _ _ => Steps.single (.grow w _ baseIndex.toNat_lt)

/-! ## Components -/

/-- The archetype a set of components lives in, and the move of an entity into
it. -/
theorem moveToSet_steps
    {w : World} (consistent : w.store.Consistent registry)
    {e : Entity} {loc : EntityLocation}
    (location : w.store.entityLocations.lookup e = some loc)
    {ids : List ComponentTypeId} (ascending : ids.Pairwise (· < ·))
    (registered : ∀ t ∈ ids, (registry.schemaOf t).isSome)
    (differs : (w.store.deref loc.archetype).componentIds ≠ ids) :
    Steps registry w [.moved e] (w.moveToSet registry e loc ids).1 := by
  obtain ⟨ensuredConsistent, extends', listed, idsEq⟩ :=
    ArchetypeStore.ensureArchetype_spec consistent ascending registered
  have ensured : Steps registry _ _ _ :=
    Steps.single (Step.ensure w ascending registered)
  have locationAfter :
      (w.store.ensureArchetype registry ids).1.entityLocations.lookup e =
        some loc := by
    rw [extends'.locations_eq]
    exact location
  have moves :
      loc.archetype ≠ (w.store.ensureArchetype registry ids).2 := by
    intro same
    rw [← same, extends'.deref_eq _ (consistent.valid location)] at idsEq
    exact differs idsEq
  exact ensured.tail (Step.relocate locationAfter listed moves)

/-- Where a moved entity is found. -/
theorem moveToSet_location
    {w : World} (consistent : w.store.Consistent registry)
    {e : Entity} {loc : EntityLocation}
    (location : w.store.entityLocations.lookup e = some loc)
    {ids : List ComponentTypeId} (ascending : ids.Pairwise (· < ·))
    (registered : ∀ t ∈ ids, (registry.schemaOf t).isSome)
    (differs : (w.store.deref loc.archetype).componentIds ≠ ids) :
    (w.moveToSet registry e loc ids).1.store.Consistent registry ∧
    (w.moveToSet registry e loc ids).1.store.entityLocations.lookup e =
      some (w.moveToSet registry e loc ids).2 ∧
    ((w.moveToSet registry e loc ids).1.store.deref
      (w.moveToSet registry e loc ids).2.archetype).componentIds = ids := by
  obtain ⟨ensuredConsistent, extends', listed, idsEq⟩ :=
    ArchetypeStore.ensureArchetype_spec consistent ascending registered
  have locationAfter :
      (w.store.ensureArchetype registry ids).1.entityLocations.lookup e =
        some loc := by
    rw [extends'.locations_eq]
    exact location
  have moves :
      loc.archetype ≠ (w.store.ensureArchetype registry ids).2 := by
    intro same
    rw [← same, extends'.deref_eq _ (consistent.valid location)] at idsEq
    exact differs idsEq
  refine ⟨ArchetypeStore.relocate_consistent ensuredConsistent locationAfter
      listed moves w.changeTick,
    ArchetypeStore.relocate_location ensuredConsistent locationAfter listed
      moves w.changeTick, ?_⟩
  have types := ArchetypeStore.relocate_typesOf ensuredConsistent locationAfter
    listed moves w.changeTick e
  have newLocation := ArchetypeStore.relocate_location ensuredConsistent
    locationAfter listed moves w.changeTick
  rw [if_pos rfl, ArchetypeStore.typesOf_of_location newLocation, idsEq,
    Option.some.injEq] at types
  exact types

/-- The bytes of a component have its size. -/
@[simp] theorem length_componentBytes (size : Nat)
    (data : Option (List UInt8)) :
    (componentBytes size data).length = size := by
  cases data with
  | none => exact List.length_replicate
  | some bytes => exact length_copyBytes size bytes

/-- The component set after an addition is an ascending set of registered
components. -/
theorem insertedIds_spec
    {a : Archetype} (wellFormed : a.WellFormed registry)
    {t : ComponentTypeId} (absent : t ∉ a.componentIds)
    (registered : (registry.schemaOf t).isSome) :
    (sortIds (a.componentIds ++ [t])).Pairwise (· < ·) ∧
    (∀ other ∈ sortIds (a.componentIds ++ [t]),
      (registry.schemaOf other).isSome) ∧
    a.componentIds ≠ sortIds (a.componentIds ++ [t]) := by
  have nodup : a.componentIds.Nodup :=
    wellFormed.ascending.imp fun less => ne_of_lt less
  refine ⟨sortIds_ascending ?_, ?_, ?_⟩
  · rw [List.nodup_append]
    refine ⟨nodup, List.nodup_singleton t, ?_⟩
    intro other member new isNew same
    rw [List.mem_singleton] at isNew
    subst isNew same
    exact absent member
  · intro other member
    rw [mem_sortIds, List.mem_append, List.mem_singleton] at member
    obtain member | rfl := member
    · exact wellFormed.registered other member
    · exact registered
  · intro same
    rw [same, mem_sortIds] at absent
    exact absent (List.mem_append_right _ (List.mem_singleton_self t))

/-- The component set after a removal. -/
theorem erasedIds_spec
    {a : Archetype} (wellFormed : a.WellFormed registry)
    {t : ComponentTypeId} (present : t ∈ a.componentIds) :
    (a.componentIds.erase t).Pairwise (· < ·) ∧
    (∀ other ∈ a.componentIds.erase t, (registry.schemaOf other).isSome) ∧
    a.componentIds ≠ a.componentIds.erase t := by
  have nodup : a.componentIds.Nodup :=
    wellFormed.ascending.imp fun less => ne_of_lt less
  refine ⟨wellFormed.ascending.sublist List.erase_sublist, ?_, ?_⟩
  · exact fun other member =>
      wellFormed.registered other (List.mem_of_mem_erase member)
  · intro same
    rw [same] at present
    exact absurd rfl (nodup.mem_erase_iff.mp present).1

/-! ### Cases of the component operations -/

section Cases

variable {w : World} {e : Entity} {t : ComponentTypeId}
variable {loc : EntityLocation} {schema : ComponentSchema}

/-- An entity with a location is alive. -/
theorem isAlive_of_location
    (consistent : w.store.Consistent registry)
    (location : w.store.entityLocations.lookup e = some loc) :
    w.isAlive e = true := by
  have real : e ≠ Entity.null := by
    rintro rfl
    rw [consistent.nullDead] at location
    exact absurd location (by simp)
  rw [isAlive, decide_eq_true real, Bool.true_and]
  exact ArchetypeStore.isAlive_iff.mpr ⟨loc, location⟩

/-- An entity that is alive has a location. -/
theorem location_of_isAlive (alive : w.isAlive e = true) :
    ∃ loc, w.store.entityLocations.lookup e = some loc := by
  rw [isAlive, Bool.and_eq_true] at alive
  exact ArchetypeStore.isAlive_iff.mp alive.2

/-- A dead entity gets no component. -/
theorem addRaw_dead (data : Option (List UInt8))
    (dead : w.isAlive e = false) :
    w.addRaw registry e t data = .pure w := by
  unfold addRaw
  rw [dead]
  rfl

/-- A component must be registered. -/
theorem addRaw_unregistered (data : Option (List UInt8))
    (unregistered : registry.schemaOf t = none) :
    w.addRaw registry e t data = .pure w := by
  unfold addRaw
  rw [unregistered]
  split <;> rfl

/-- An addition in a window is queued. -/
theorem addRaw_deferred (data : Option (List UInt8))
    (alive : w.isAlive e = true)
    (registered : registry.schemaOf t = some schema)
    (deferred : w.deferMoves = true) :
    w.addRaw registry e t data = .pure (w.deferOp e {
      type := t
      add := true
      data := match data with
        | some bytes => copyBytes schema.size bytes
        | none => [] }) := by
  obtain ⟨loc, location⟩ := location_of_isAlive alive
  unfold addRaw
  simp only [alive, registered, location, deferred]
  rfl

/-- A component that is there is overwritten. -/
theorem addRaw_overwrites (data : Option (List UInt8))
    (alive : w.isAlive e = true)
    (registered : registry.schemaOf t = some schema)
    (location : w.store.entityLocations.lookup e = some loc)
    (immediate : w.deferMoves = false)
    (present : t ∈ (w.store.deref loc.archetype).componentIds) :
    w.addRaw registry e t data =
      let written := w.writeComponent e loc t (componentBytes schema.size data)
      ⟨written, [.wrote e t, .dispatched .changed e t "" written]⟩ := by
  unfold addRaw
  simp only [alive, registered, location, immediate,
    Archetype.hasComponent_iff.mpr present]
  rfl

/-- An entity that gets a new component is moved. -/
theorem addRaw_moves (data : Option (List UInt8))
    (alive : w.isAlive e = true)
    (registered : registry.schemaOf t = some schema)
    (location : w.store.entityLocations.lookup e = some loc)
    (immediate : w.deferMoves = false)
    (absent : t ∉ (w.store.deref loc.archetype).componentIds)
    (outside : w.inIteration = false) :
    w.addRaw registry e t data =
      let moved := w.moveToSet registry e loc
        (sortIds ((w.store.deref loc.archetype).componentIds ++ [t]))
      let written := moved.1.writeComponent e moved.2 t
        (componentBytes schema.size data)
      ⟨written.invalidateCache,
        [.moved e, .wrote e t, .dispatched .added e t "" written]⟩ := by
  have absent' : (w.store.deref loc.archetype).hasComponent t = false :=
    Bool.eq_false_iff.mpr (Archetype.hasComponent_iff.not.mpr absent)
  unfold addRaw
  simp only [alive, registered, location, immediate, absent', outside]
  rfl

/-- It is not moved in a walk. -/
theorem addRaw_iterating (data : Option (List UInt8))
    (location : w.store.entityLocations.lookup e = some loc)
    (immediate : w.deferMoves = false)
    (absent : t ∉ (w.store.deref loc.archetype).componentIds)
    (iterating : w.inIteration = true) :
    w.addRaw registry e t data = .pure w := by
  have absent' : (w.store.deref loc.archetype).hasComponent t = false :=
    Bool.eq_false_iff.mpr (Archetype.hasComponent_iff.not.mpr absent)
  unfold addRaw
  cases registry.schemaOf t with
  | none => simp
  | some schema => simp [location, immediate, absent', iterating]

/-- A dead entity has no component to remove. -/
theorem removeComponent_dead (dead : w.isAlive e = false) :
    w.removeComponent registry e t = .pure w := by
  unfold removeComponent
  rw [dead]
  rfl

/-- A removal in a window is queued. -/
theorem removeComponent_deferred
    (alive : w.isAlive e = true) (deferred : w.deferMoves = true) :
    w.removeComponent registry e t =
      .pure (w.deferOp e { type := t, add := false }) := by
  unfold removeComponent
  simp only [alive, deferred]
  rfl

/-- A component that is not there is not removed. -/
theorem removeComponent_absent
    (location : w.store.entityLocations.lookup e = some loc)
    (immediate : w.deferMoves = false)
    (absent : t ∉ (w.store.deref loc.archetype).componentIds) :
    w.removeComponent registry e t = .pure w := by
  have absent' : (w.store.deref loc.archetype).hasComponent t = false :=
    Bool.eq_false_iff.mpr (Archetype.hasComponent_iff.not.mpr absent)
  unfold removeComponent
  simp only [location, immediate, absent']
  split <;> rfl

/-- Nothing is removed in a walk. -/
theorem removeComponent_iterating
    (immediate : w.deferMoves = false) (iterating : w.inIteration = true) :
    w.removeComponent registry e t = .pure w := by
  unfold removeComponent
  simp only [immediate, iterating]
  split
  · rfl
  · simp only [Bool.false_eq_true, if_false]
    split
    · rfl
    · split <;> rfl

/-- An entity that loses a component is moved. -/
theorem removeComponent_moves
    (alive : w.isAlive e = true)
    (location : w.store.entityLocations.lookup e = some loc)
    (immediate : w.deferMoves = false)
    (present : t ∈ (w.store.deref loc.archetype).componentIds)
    (outside : w.inIteration = false) :
    w.removeComponent registry e t =
      let moved := w.moveToSet registry e loc
        ((w.store.deref loc.archetype).componentIds.erase t)
      ⟨moved.1.invalidateCache,
        [.moved e, .dispatched .removed e t "" moved.1]⟩ := by
  unfold removeComponent
  simp only [alive, location, immediate,
    Archetype.hasComponent_iff.mpr present, outside]
  rfl

end Cases

/-- An addition takes steps of the world. -/
theorem addRaw_realizes
    (inductiveOn : InductiveOn registry invariant accept)
    (e : Entity) (t : ComponentTypeId) (data : Option (List UInt8)) :
    Realizes registry invariant accept fun w =>
      w.addRaw registry e t data := by
  intro w holds _
  have consistent := inductiveOn.consistent w holds
  dsimp only
  cases alive : w.isAlive e with
  | false =>
      rw [addRaw_dead data alive]
      exact Steps.refl w
  | true =>
  cases registered : registry.schemaOf t with
  | none =>
      rw [addRaw_unregistered data registered]
      exact Steps.refl w
  | some schema =>
  obtain ⟨loc, location⟩ := location_of_isAlive alive
  have sizeEq := ComponentRegistry.sizeOf_of_schemaOf registered
  have sized : (componentBytes schema.size data).length = registry.sizeOf t := by
    rw [length_componentBytes, sizeEq]
  cases deferred : w.deferMoves with
  | true =>
      rw [addRaw_deferred data alive registered deferred]
      apply Steps.agrees
      apply agrees_deferOp
      refine fun _ => ⟨by rw [registered]; rfl, ?_⟩
      cases data with
      | none => exact Or.inl rfl
      | some bytes =>
          exact Or.inr ((length_copyBytes _ _).trans sizeEq.symm)
  | false =>
  by_cases present : t ∈ (w.store.deref loc.archetype).componentIds
  · rw [addRaw_overwrites data alive registered location deferred present]
    have written : Steps registry _ _ _ :=
      Steps.single (Step.write location present sized)
    exact written.andQuiet (Agrees.refl _) (by simp [Effect.IsAnnouncement])
  · cases iterating : w.inIteration with
    | true =>
        rw [addRaw_iterating data location deferred present iterating]
        exact Steps.refl w
    | false =>
        obtain ⟨ascending, idsRegistered, differs⟩ := insertedIds_spec
          (consistent.archetypeOf location) present
          (by rw [registered]; rfl)
        obtain ⟨_, newLocation, newIds⟩ := moveToSet_location consistent location
          ascending idsRegistered differs
        have newPresent : t ∈ sortIds
            ((w.store.deref loc.archetype).componentIds ++ [t]) := by
          rw [mem_sortIds]
          exact List.mem_append_right _ (List.mem_singleton_self t)
        rw [← newIds] at newPresent
        rw [addRaw_moves data alive registered location deferred present
          iterating]
        have moved := moveToSet_steps consistent location ascending
          idsRegistered differs
        have written := moved.tail (Step.write newLocation newPresent sized)
        exact written.andQuiet (agrees_invalidateCache _)
          (by simp [Effect.IsAnnouncement])

/-- So does a removal. -/
theorem removeComponent_realizes
    (inductiveOn : InductiveOn registry invariant accept)
    (e : Entity) (t : ComponentTypeId) :
    Realizes registry invariant accept fun w =>
      w.removeComponent registry e t := by
  intro w holds _
  have consistent := inductiveOn.consistent w holds
  dsimp only
  cases alive : w.isAlive e with
  | false =>
      rw [removeComponent_dead alive]
      exact Steps.refl w
  | true =>
  obtain ⟨loc, location⟩ := location_of_isAlive alive
  cases deferred : w.deferMoves with
  | true =>
      rw [removeComponent_deferred alive deferred]
      exact Steps.agrees (agrees_deferOp w e fun isAdd => absurd isAdd (by simp))
  | false =>
  by_cases present : t ∈ (w.store.deref loc.archetype).componentIds
  · cases iterating : w.inIteration with
    | true =>
        rw [removeComponent_iterating deferred iterating]
        exact Steps.refl w
    | false =>
        obtain ⟨ascending, idsRegistered, differs⟩ := erasedIds_spec
          (consistent.archetypeOf location) present
        rw [removeComponent_moves alive location deferred present iterating]
        have moved := moveToSet_steps consistent location ascending
          idsRegistered differs
        exact moved.andQuiet (agrees_invalidateCache _)
          (by simp [Effect.IsAnnouncement])
  · rw [removeComponent_absent location deferred present]
    exact Steps.refl w

/-- So does a mark. -/
theorem markChanged_realizes
    (e : Entity) (t : ComponentTypeId) (field : String) :
    Realizes registry invariant accept fun w => w.markChanged e t field := by
  intro w _ _
  dsimp only
  unfold markChanged
  by_cases dead : (!w.isAlive e) = true
  · rw [if_pos dead]
    exact Steps.refl w
  · rw [if_neg dead]
    cases location : w.store.entityLocations.lookup e with
    | none => exact Steps.refl w
    | some loc =>
        dsimp only
        by_cases absent :
            (!(w.store.deref loc.archetype).hasComponent t) = true
        · rw [if_pos absent]
          exact Steps.refl w
        · rw [if_neg absent]
          have present : t ∈ (w.store.deref loc.archetype).componentIds := by
            simpa using absent
          have marked : Steps registry _ _ _ :=
            Steps.single (Step.mark location present)
          exact marked.andQuiet (Agrees.refl _) (by simp [Effect.IsAnnouncement])

/-- Bytes of the right size are a step of the world. -/
theorem writeRaw_realizes
    (e : Entity) (t : ComponentTypeId) {bytes : List UInt8}
    (sized : bytes.length = registry.sizeOf t) :
    Realizes registry invariant accept fun w =>
      Traced.pure (w.writeRaw e t bytes) := by
  intro w _ _
  dsimp only
  unfold writeRaw
  cases location : w.store.entityLocations.lookup e with
  | none => exact Steps.refl w
  | some loc =>
      dsimp only
      by_cases present : (w.store.deref loc.archetype).hasComponent t = true
      · rw [if_pos present]
        exact Steps.single (Step.rawWrite location
          (Archetype.hasComponent_iff.mp present) sized)
      · rw [if_neg present]
        exact Steps.refl w

/-- What `get_raw` points to has the size of the component. -/
theorem getRaw_length
    {w : World} (consistent : w.store.Consistent registry)
    {e : Entity} {t : ComponentTypeId} {raw : List UInt8}
    (found : w.getRaw e t = some raw) : raw.length = registry.sizeOf t := by
  unfold getRaw at found
  cases location : w.store.entityLocations.lookup e with
  | none =>
      rw [location] at found
      exact absurd found (by simp)
  | some loc =>
      rw [location] at found
      dsimp only at found
      split at found
      · rename_i both
        have present := Archetype.hasComponent_iff.mp both.2
        rw [← Option.some.inj found, ← columnAt_elemSize consistent location
          present]
        exact (columnAt_hasRows consistent location present).length_row
          (Archetype.row_lt (consistent.inRow location))
      · exact absurd found (by simp)

/-- Setting a field takes steps of the world. -/
theorem setField_realizes
    (inductiveOn : InductiveOn registry invariant accept)
    (e : Entity) (t : ComponentTypeId) (name : String) (value : List UInt8) :
    Realizes registry invariant accept fun w =>
      w.setField registry e t name value := by
  intro w holds accepted
  dsimp only at accepted ⊢
  unfold setField at accepted ⊢
  split
  · rename_i fd raw _ found
    have sized : (overlay raw fd.offset
        (value.take fd.storageSize)).length = registry.sizeOf t := by
      rw [length_overlay]
      exact getRaw_length (inductiveOn.consistent w holds) found
    have writes : Realizes registry invariant accept fun w =>
        Traced.pure (w.writeRaw e t _) := writeRaw_realizes e t sized
    have written := writes w holds (Traced.accepted_pure _ _)
    have writtenHolds := written.keeps inductiveOn holds
      (fun _ member => absurd member (by simp [Traced.pure]))
    have marks : Realizes registry invariant accept fun w =>
        w.markChanged e t name := markChanged_realizes e t name
    exact written.trans (marks _ writtenHolds (by simpa [*] using accepted))
  · exact Steps.refl w

/-- The internal transition, to any listed archetype. -/
theorem moveEntity_steps
    {w : World} (e : Entity) {target : Ptr}
    (listed : target ∈ w.store.archetypeList) :
    Steps registry w (w.moveEntity registry e target).effects
      (w.moveEntity registry e target).state := by
  unfold moveEntity
  cases location : w.store.entityLocations.lookup e with
  | none => exact Steps.refl w
  | some loc =>
      dsimp only
      split
      · exact Steps.refl w
      · rename_i proceeds
        have moves : loc.archetype ≠ target := fun same =>
          proceeds (Or.inr (Or.inr same))
        have moved : Steps registry _ _ _ :=
          Steps.single (Step.relocate location listed moves)
        exact moved.andAgrees (agrees_invalidateCache _)

end World
end VortarisECS
