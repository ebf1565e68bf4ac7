import VortarisECS.Core.Runs

/-!
# Worlds that differ in stored bytes

What an operation does to the entities, to their component sets and to the order
of rows, and which events it dispatches, does not depend on the bytes stored in
components, nor on the bytes it is given.
-/

namespace VortarisECS

variable {registry : ComponentRegistry}

/-! ## The shape of a store -/

/-- An archetype without its columns. -/
def Archetype.shape (a : Archetype) : Archetype := { a with columns := [] }

@[simp] theorem Archetype.shape_shape (a : Archetype) :
    a.shape.shape = a.shape := rfl

/-- Removing a row does the same to the shape. -/
theorem Archetype.removeEntity_shape (a : Archetype) (e : Entity) :
    (a.removeEntity e).1.shape = (a.shape.removeEntity e).1 ∧
      (a.removeEntity e).2 = (a.shape.removeEntity e).2 := by
  unfold removeEntity shape
  dsimp only
  cases a.entityToRow.lookup e with
  | none => exact ⟨rfl, rfl⟩
  | some row =>
      dsimp only
      split
      · exact ⟨rfl, rfl⟩
      · exact ⟨rfl, rfl⟩

namespace ArchetypeStore

/-- A store without the columns of its archetypes. -/
def shape (s : ArchetypeStore) : ArchetypeStore :=
  { s with heap := s.heap.map Archetype.shape }

variable {s s' : ArchetypeStore}

/-- The shapes of two stores agree if only bytes and versions differ. -/
theorem shape_eq_iff :
    s.shape = s'.shape ↔
      s.heap.map Archetype.shape = s'.heap.map Archetype.shape ∧
      s.archetypes = s'.archetypes ∧ s.archetypeList = s'.archetypeList ∧
      s.emptyArchetype = s'.emptyArchetype ∧ s.queryCache = s'.queryCache ∧
      s.entityLocations = s'.entityLocations := by
  unfold shape
  rw [ArchetypeStore.mk.injEq]

/-- The shape of an archetype behind a pointer. -/
theorem shape_deref (s : ArchetypeStore) (p : Ptr) :
    s.shape.deref p = (s.deref p).shape := by
  unfold deref shape
  dsimp only
  rw [List.getElem?_map]
  cases s.heap[p]? with
  | none => rfl
  | some a => rfl

/-- Alike stores have the same components in each archetype. -/
theorem componentIds_of_shape (same : s.shape = s'.shape) (p : Ptr) :
    (s.deref p).componentIds = (s'.deref p).componentIds := by
  change (s.deref p).shape.componentIds = (s'.deref p).shape.componentIds
  rw [← shape_deref, ← shape_deref, same]

/-- Alike stores have the same entities in each archetype. -/
theorem entities_of_shape (same : s.shape = s'.shape) (p : Ptr) :
    (s.deref p).entities = (s'.deref p).entities := by
  change (s.deref p).shape.entities = (s'.deref p).shape.entities
  rw [← shape_deref, ← shape_deref, same]

/-- What is done to an archetype can be done to its shape. -/
theorem shape_modify
    {f g : Archetype → Archetype} (natural : ∀ a, (f a).shape = g a.shape)
    (s : ArchetypeStore) (p : Ptr) :
    (s.modify p f).shape = s.shape.modify p g := by
  have heaps : (s.heap.modify p f).map Archetype.shape =
      (s.heap.map Archetype.shape).modify p g := by
    apply List.ext_getElem?
    intro i
    rw [List.getElem?_map, List.getElem?_modify, List.getElem?_modify,
      List.getElem?_map]
    cases s.heap[i]? with
    | none => rfl
    | some a =>
        simp only [Option.map_eq_map, Option.map_some]
        split
        · rw [natural]
        · rfl
  unfold modify shape
  dsimp only
  rw [heaps]

/-- A change of columns alone is not seen. -/
theorem shape_modify_columns
    {f : Archetype → Archetype} (columns : ∀ a, (f a).shape = a.shape)
    (s : ArchetypeStore) (p : Ptr) : (s.modify p f).shape = s.shape := by
  rw [shape_modify (g := id) columns]
  unfold modify
  rw [List.modify_id]

theorem shape_fixMoved (s : ArchetypeStore) (moved : Entity) (row : Nat) :
    (s.fixMoved moved row).shape = s.shape.fixMoved moved row := by
  unfold fixMoved
  split
  · rw [show s.shape.entityLocations = s.entityLocations from rfl]
    split
    · rfl
    · rfl
  · rfl

/-- The tick an entity is added at does not show in the shape. -/
theorem shape_addTo (s : ArchetypeStore) (p : Ptr) (e : Entity) (tick tick' : Nat) :
    (s.addTo p e tick).shape = s.shape.addTo p e tick' := by
  have modified := shape_modify (f := fun a => (a.addEntity e tick).1)
    (g := fun a => (a.addEntity e tick').1) (fun _ => rfl) s p
  unfold addTo
  rw [shape_deref]
  change (s.modify p _).shape.setLocation e _ = _
  rw [modified]
  rfl

theorem shape_detach (s : ArchetypeStore) (e : Entity) (loc : EntityLocation) :
    (s.detach e loc).shape = s.shape.detach e loc := by
  have modified := shape_modify (f := fun a => (a.removeEntity e).1)
    (g := fun a => (a.removeEntity e).1)
    (fun a => (a.removeEntity_shape e).1) s loc.archetype
  unfold detach
  dsimp only
  rw [shape_fixMoved, shape_deref,
    ← ((s.deref loc.archetype).removeEntity_shape e).2, ← modified]
  rfl

/-- Alike stores create the same archetype at the same place. -/
theorem shape_createArchetype
    (same : s.shape = s'.shape) (ids : List ComponentTypeId) :
    (s.createArchetype registry ids).1.shape =
        (s'.createArchetype registry ids).1.shape ∧
      (s.createArchetype registry ids).2 = (s'.createArchetype registry ids).2 := by
  obtain ⟨heaps, directories, lists, empties, caches, locations⟩ :=
    shape_eq_iff.mp same
  have lengths : s.heap.length = s'.heap.length := by
    simpa only [List.length_map] using congrArg List.length heaps
  unfold createArchetype shape
  dsimp only
  rw [List.map_append, List.map_append, heaps, lengths, directories, lists,
    empties, caches, locations]
  exact ⟨rfl, rfl⟩

variable (registry) in
/-- Alike stores find or create the same archetype. -/
theorem shape_ensureArchetype
    (same : s.shape = s'.shape) (ids : List ComponentTypeId) :
    (s.ensureArchetype registry ids).1.shape =
        (s'.ensureArchetype registry ids).1.shape ∧
      (s.ensureArchetype registry ids).2 = (s'.ensureArchetype registry ids).2 := by
  obtain ⟨_, directories, _⟩ := shape_eq_iff.mp same
  unfold ensureArchetype
  rw [directories]
  split
  · exact ⟨same, rfl⟩
  · exact shape_createArchetype same ids

variable (registry) in
/-- A move of an entity between archetypes, columns left aside. -/
theorem shape_relocate
    (s : ArchetypeStore) (e : Entity) (loc : EntityLocation) (target : Ptr)
    (tick : Nat) :
    let added := s.shape.modify target fun a => (a.addEntity e 0).1
    let newRow := (s.shape.deref target).entities.length
    (s.relocate registry e loc target tick).1.shape =
        (((added.modify loc.archetype fun a => (a.removeEntity e).1).fixMoved
          ((added.deref loc.archetype).removeEntity e).2 loc.row).setLocation e
            ⟨target, newRow⟩) ∧
      (s.relocate registry e loc target tick).2 = newRow := by
  have added := shape_modify (f := fun a => (a.addEntity e tick).1)
    (g := fun a => (a.addEntity e 0).1) (fun _ => rfl) s target
  unfold relocate moveEntityTo
  dsimp only
  rw [shape_deref]
  refine ⟨?_, rfl⟩
  have copied := shape_modify_columns
    (f := fun a => ((s.modify target fun a => (a.addEntity e tick).1).deref
      loc.archetype).copySharedRow registry a loc.row
        (s.deref target).entities.length) (fun _ => rfl)
    (s.modify target fun a => (a.addEntity e tick).1) target
  generalize (s.modify target fun a => (a.addEntity e tick).1).modify target
    (fun a => ((s.modify target fun a => (a.addEntity e tick).1).deref
      loc.archetype).copySharedRow registry a loc.row
        (s.deref target).entities.length) = withRow at copied ⊢
  have removed := shape_modify (f := fun a => (a.removeEntity e).1)
    (g := fun a => (a.removeEntity e).1)
    (fun a => (a.removeEntity_shape e).1) withRow loc.archetype
  rw [copied, added] at removed
  have moved := ((withRow.deref loc.archetype).removeEntity_shape e).2
  rw [← shape_deref, copied, added] at moved
  change (fixMoved _ _ _).shape.setLocation e _ = _
  rw [shape_fixMoved, removed, moved]
  rfl

variable (registry) in
/-- Alike stores move an entity to the same row, whatever the ticks. -/
theorem shape_relocate_congr
    (same : s.shape = s'.shape) (e : Entity) (loc : EntityLocation)
    (target : Ptr) (tick tick' : Nat) :
    (s.relocate registry e loc target tick).1.shape =
        (s'.relocate registry e loc target tick').1.shape ∧
      (s.relocate registry e loc target tick).2 =
        (s'.relocate registry e loc target tick').2 := by
  obtain ⟨shapes, rows⟩ := shape_relocate registry s e loc target
    tick
  obtain ⟨shapes', rows'⟩ := shape_relocate registry s' e loc target
    tick'
  rw [shapes, shapes', rows, rows', same]
  exact ⟨rfl, rfl⟩

/-- Alike stores free the same archetypes. -/
theorem shape_compact (same : s.shape = s'.shape) :
    s.compact.shape = s'.compact.shape := by
  obtain ⟨heaps, directories, lists, empties, caches, locations⟩ :=
    shape_eq_iff.mp same
  have ids : ∀ p, (s.deref p).componentIds = (s'.deref p).componentIds :=
    componentIds_of_shape same
  have vacant : ∀ p, s.isVacant p = s'.isVacant p := by
    intro p
    unfold isVacant
    rw [entities_of_shape same, empties]
  unfold compact shape
  dsimp only
  simp only [funext vacant, ids, heaps, directories, lists, empties, caches,
    locations]

end ArchetypeStore

/-! ## Alike worlds -/

namespace World

/-- The queued operations of an entity without their data. -/
def pendingTypes (w : World) (e : Entity) :
    Option (List (ComponentTypeId × Bool)) :=
  (w.pendingOps.lookup e).map (·.map fun op => (op.type, op.add))

/-- The worlds agree in all but stored bytes, clocks, caches and the log. -/
structure Alike (w v : World) : Prop where
  store : w.store.shape = v.store.shape
  slots : w.slots = v.slots
  iterationDepth : w.iterationDepth = v.iterationDepth
  deferMoves : w.deferMoves = v.deferMoves
  deferredEntities : w.deferredEntities = v.deferredEntities
  deferredSet : w.deferredSet = v.deferredSet
  pendingTypes : ∀ e, w.pendingTypes e = v.pendingTypes e
  pendingDestroy : w.pendingDestroy = v.pendingDestroy
  customCommands : w.customCommands = v.customCommands

variable {w v u : World}

namespace Alike

/-- A world is like itself. -/
theorem refl (w : World) : w.Alike w :=
  ⟨rfl, rfl, rfl, rfl, rfl, rfl, fun _ => rfl, rfl, rfl⟩

theorem symm (alike : w.Alike v) : v.Alike w :=
  ⟨alike.store.symm, alike.slots.symm, alike.iterationDepth.symm,
    alike.deferMoves.symm, alike.deferredEntities.symm, alike.deferredSet.symm,
    fun e => (alike.pendingTypes e).symm, alike.pendingDestroy.symm,
    alike.customCommands.symm⟩

/-- Likeness carries over a third world. -/
theorem trans (first : w.Alike v) (second : v.Alike u) : w.Alike u :=
  ⟨first.store.trans second.store, first.slots.trans second.slots,
    first.iterationDepth.trans second.iterationDepth,
    first.deferMoves.trans second.deferMoves,
    first.deferredEntities.trans second.deferredEntities,
    first.deferredSet.trans second.deferredSet,
    fun e => (first.pendingTypes e).trans (second.pendingTypes e),
    first.pendingDestroy.trans second.pendingDestroy,
    first.customCommands.trans second.customCommands⟩

theorem inIteration (alike : w.Alike v) : w.inIteration = v.inIteration := by
  unfold World.inIteration
  rw [alike.iterationDepth]

/-- Alike worlds have every entity in the same row. -/
theorem locations (alike : w.Alike v) :
    w.store.entityLocations = v.store.entityLocations :=
  (ArchetypeStore.shape_eq_iff.mp alike.store).2.2.2.2.2

/-- Alike worlds have the same entities. -/
theorem isAlive (alike : w.Alike v) (e : Entity) : w.isAlive e = v.isAlive e := by
  unfold World.isAlive ArchetypeStore.isAlive
  rw [alike.locations]

theorem componentIds (alike : w.Alike v) (p : Ptr) :
    (w.store.deref p).componentIds = (v.store.deref p).componentIds :=
  ArchetypeStore.componentIds_of_shape alike.store p

theorem hasComponent (alike : w.Alike v) (p : Ptr) (t : ComponentTypeId) :
    (w.store.deref p).hasComponent t = (v.store.deref p).hasComponent t := by
  unfold Archetype.hasComponent
  rw [alike.componentIds]

/-- Alike worlds have the same components of every entity. -/
theorem types (alike : w.Alike v) (e : Entity) :
    w.getEntityComponentTypes e = v.getEntityComponentTypes e := by
  unfold getEntityComponentTypes ArchetypeStore.typesOf
  rw [alike.isAlive, alike.locations]
  simp only [alike.componentIds]

/-- Both worlds get stores of the same shape. -/
theorem setStore (alike : w.Alike v) {s s' : ArchetypeStore}
    (same : s.shape = s'.shape) : (w.setStore s).Alike (v.setStore s') :=
  { alike with store := same }

theorem setSlots (alike : w.Alike v) {slots slots' : EntitySlots}
    (same : slots = slots') : (w.setSlots slots).Alike (v.setSlots slots') :=
  { alike with slots := same }

end Alike

/-! ## Parts that only touch bytes, clocks and caches -/

/-- What a column holds does not show. -/
theorem alike_modifyColumn
    (w : World) (loc : EntityLocation) (t : ComponentTypeId)
    (f : Column → Column) : w.Alike (w.modifyColumn loc t f) :=
  { Alike.refl w with
    store := (ArchetypeStore.shape_modify_columns
      (f := fun a => a.setColumn t (f (a.column t))) (fun _ => rfl) _ _).symm }

theorem alike_bumpTick (w : World) : w.Alike w.bumpTick := { Alike.refl w with }

theorem alike_invalidateCache (w : World) : w.Alike w.invalidateCache := by
  unfold invalidateCache
  split
  · exact { Alike.refl w with }
  · exact { Alike.refl w with }

/-- The change log does not show. -/
theorem alike_logChange
    (w : World) (e : Entity) (t : ComponentTypeId) (tick : Nat) :
    w.Alike (w.logChange e t tick) := by
  unfold logChange
  dsimp only
  split
  · exact { Alike.refl w with }
  · exact { Alike.refl w with }

theorem alike_stampWrite
    (w : World) (e : Entity) (loc : EntityLocation) (t : ComponentTypeId) :
    w.Alike (w.stampWrite e loc t) := by
  have marked := (alike_bumpTick w).trans (alike_modifyColumn w.bumpTick loc t
    (·.markChanged loc.row w.bumpTick.changeTick))
  unfold stampWrite
  dsimp only
  split
  · exact marked.trans (alike_logChange _ _ _ _)
  · exact marked

/-- A write does not show. -/
theorem alike_writeComponent
    (w : World) (e : Entity) (loc : EntityLocation) (t : ComponentTypeId)
    (bytes : List UInt8) : w.Alike (w.writeComponent e loc t bytes) :=
  (alike_modifyColumn w loc t _).trans (alike_stampWrite _ e loc t)

theorem alike_markRow
    (w : World) (e : Entity) (loc : EntityLocation) (t : ComponentTypeId) :
    w.Alike (w.markRow e loc t) := by
  have tracked := alike_modifyColumn w loc t (·.ensureVersions w.changeTick)
  exact (tracked.trans (alike_bumpTick _)).trans
    ((alike_modifyColumn _ loc t _).trans (alike_logChange _ _ _ _))

/-- Bytes written behind the world's back do not show. -/
theorem alike_writeRaw
    (w : World) (e : Entity) (t : ComponentTypeId) (bytes : List UInt8) :
    w.Alike (w.writeRaw e t bytes) := by
  unfold writeRaw
  split
  · exact .refl w
  · split
    · exact alike_modifyColumn w _ t _
    · exact .refl w

theorem alike_releaseInvalidation (w : World) :
    w.Alike w.releaseInvalidation := by
  unfold releaseInvalidation
  split
  · exact { Alike.refl w with }
  · exact .refl w

end World

/-! ## Alike steps -/

/-- Two effects that differ at most in bytes, and in alike worlds. -/
def Effect.Alike : Effect → Effect → Prop
  | .dispatched type e t name seen, .dispatched type' e' t' name' seen' =>
      (type = type' ∧ e = e' ∧ t = t' ∧ name = name') ∧ seen.Alike seen'
  | .issued e _, .issued e' _ => e = e'
  | .adopted e _, .adopted e' _ => e = e'
  | .wrote e t, .wrote e' t' => e = e' ∧ t = t'
  | .moved e, .moved e' => e = e'
  | .ranCustomCommand id _, .ranCustomCommand id' _ => id = id'
  | _, _ => False

/-- Two steps that end in alike worlds with alike effects. -/
structure StepAlike (step step' : Traced Effect World) : Prop where
  state : step.state.Alike step'.state
  effects : List.Forall₂ Effect.Alike step.effects step'.effects

namespace StepAlike

variable {w v : World}

/-- A step without effects keeps the likeness of its worlds. -/
theorem pure (alike : w.Alike v) : StepAlike (.pure w) (.pure v) :=
  ⟨alike, .nil⟩

/-- Steps that go on alike are alike. -/
theorem andThen
    {step step' : Traced Effect World} {next next' : World → Traced Effect World}
    (first : StepAlike step step')
    (second : step.state.Alike step'.state →
      StepAlike (next step.state) (next' step'.state)) :
    StepAlike (step.andThen next) (step'.andThen next') :=
  ⟨(second first.state).state,
    List.rel_append first.effects (second first.state).effects⟩

/-- Steps after which the same is done. -/
theorem followedBy
    {step step' later later' : Traced Effect World}
    (first : StepAlike step step') (second : StepAlike later later') :
    StepAlike (step.andThen fun _ => later) (step'.andThen fun _ => later') :=
  ⟨second.state, List.rel_append first.effects second.effects⟩

theorem mapState
    {step step' : Traced Effect World} {change change' : World → World}
    (first : StepAlike step step')
    (changed : (change step.state).Alike (change' step'.state)) :
    StepAlike (step.mapState change) (step'.mapState change') :=
  ⟨changed, first.effects⟩

/-- Steps over related items. -/
theorem forEach
    (related : α → α → Prop) {step step' : World → α → Traced Effect World}
    (each : ∀ {w v item item'}, w.Alike v → related item item' →
      StepAlike (step w item) (step' v item'))
    {items items' : List α} (same : List.Forall₂ related items items')
    (alike : w.Alike v) :
    StepAlike (Traced.forEach step w items) (Traced.forEach step' v items') := by
  induction same generalizing w v with
  | nil => exact pure alike
  | cons head _ inductionHypothesis =>
      exact (each alike head).andThen inductionHypothesis

/-- The same items, one after the other, in alike worlds. -/
theorem forEachSame
    {step step' : World → α → Traced Effect World}
    (each : ∀ {w v} item, w.Alike v → StepAlike (step w item) (step' v item))
    (items : List α) (alike : w.Alike v) :
    StepAlike (Traced.forEach step w items) (Traced.forEach step' v items) := by
  induction items generalizing w v with
  | nil => exact pure alike
  | cons item items inductionHypothesis =>
      exact (each item alike).andThen inductionHypothesis

end StepAlike

end VortarisECS
