import VortarisECS.Core.Runs
import Mathlib.Logic.Relation

/-!
# The allocator on its own

Whatever an operation does to the rest of a world, it changes the allocator by
allocating, freeing, growing, adopting and pooling only.  So slots keep their
bounds and their number never shrinks, also where ids alias.
-/

namespace VortarisECS

/-- One change of the allocator. -/
inductive SlotStep : EntitySlots → EntitySlots → Prop
  | alloc (slots : EntitySlots) : SlotStep slots slots.allocEntityId.1
  | free (slots : EntitySlots) (e : Entity) :
      SlotStep slots (slots.freeEntityId e)
  | grow (slots : EntitySlots) {count : Nat} (bounded : count < 2 ^ 32) :
      SlotStep slots (slots.growTo count)
  | adopt (slots : EntitySlots) {e : Entity}
      (bounded : e.slot < maxPreassignedSlot) : SlotStep slots (slots.adopt e)
  | pool (slots : EntitySlots) (ids : List Entity) :
      SlotStep slots { slots with poolSlots := ids }

/-- Any number of steps of the allocator. -/
abbrev SlotSteps := Relation.ReflTransGen SlotStep

theorem SlotSteps.of_eq
    {slots slots' : EntitySlots} (same : slots' = slots) :
    SlotSteps slots slots' :=
  same ▸ .refl

namespace EntitySlots

variable {slots slots' : EntitySlots}

/-- Slots and generations are 32-bit numbers, and free slots exist. -/
structure Bounded (slots : EntitySlots) : Prop where
  length : slots.slotGenerations.length < 2 ^ 32
  generation : ∀ slot, slots.generationOf slot < 2 ^ 32
  free : ∀ slot ∈ slots.freeSlots, slot < slots.slotGenerations.length

/-- A few more slots can be numbered. -/
theorem Bounded.growTo (bounded : slots.Bounded) {count : Nat}
    (small : count < 2 ^ 32) : (slots.growTo count).Bounded where
  length := by
    rw [length_growTo]
    exact Nat.max_lt.mpr ⟨bounded.length, small⟩
  generation slot := by
    rw [generationOf_growTo]
    exact bounded.generation slot
  free slot member := by
    rw [length_growTo]
    exact lt_max_of_lt_left (bounded.free slot member)

/-- Setting a generation keeps the bounds. -/
theorem Bounded.setGeneration
    (bounded : slots.Bounded) {slot generation : Nat}
    (inRange : slot < slots.slotGenerations.length)
    (small : generation < 2 ^ 32) :
    Bounded { slots with
      slotGenerations := slots.slotGenerations.set slot generation } where
  length := by
    rw [List.length_set]
    exact bounded.length
  generation other := by
    rw [generationOf_set inRange]
    split
    · exact small
    · exact bounded.generation other
  free other member := by
    rw [List.length_set]
    exact bounded.free other member

/-- One more slot. -/
theorem growTo_succ (slots : EntitySlots) :
    slots.growTo (slots.slotGenerations.length + 1) =
      { slots with slotGenerations := slots.slotGenerations ++ [0] } := by
  simp [growTo]

/-- Changes of the allocator keep its bounds and take no slot away. -/
theorem Bounded.step
    (bounded : slots.Bounded) (step : SlotStep slots slots') :
    slots'.Bounded ∧
      slots.slotGenerations.length ≤ slots'.slotGenerations.length := by
  cases step with
  | alloc =>
      unfold allocEntityId
      split
      · split
        · exact ⟨bounded, le_rfl⟩
        · rename_i notFull
          unfold maxSlots at notFull
          dsimp only
          rw [← growTo_succ]
          exact ⟨bounded.growTo (by omega), by simp⟩
      · rename_i idx rest freeEq
        refine ⟨⟨bounded.length, bounded.generation, fun slot member => ?_⟩,
          le_rfl⟩
        apply bounded.free slot
        rw [freeEq]
        exact List.mem_cons_of_mem idx member
  | free e =>
      unfold freeEntityId
      split
      · exact ⟨bounded, le_rfl⟩
      · rename_i inRange
        rw [not_le] at inRange
        split
        · exact ⟨bounded, le_rfl⟩
        · split
          · exact ⟨bounded.setGeneration inRange (by decide),
              (List.length_set ..).ge⟩
          · rename_i notLast
            have generation := e.generation_lt
            have set := bounded.setGeneration inRange
              (show e.generation + 1 < 2 ^ 32 by omega)
            refine ⟨⟨set.length, set.generation, fun slot member => ?_⟩,
              (List.length_set ..).ge⟩
            obtain rfl | old := List.mem_cons.mp member
            · rw [List.length_set]
              exact inRange
            · exact set.free slot old
  | grow small =>
      refine ⟨bounded.growTo small, ?_⟩
      rw [length_growTo]
      exact le_max_left _ _
  | @adopt e small =>
      have small' : e.slot + 1 < 2 ^ 32 := by
        unfold maxPreassignedSlot at small
        omega
      have inRange : e.slot <
          (slots.growTo (e.slot + 1)).slotGenerations.length := by
        rw [length_growTo]
        exact lt_max_of_lt_right (Nat.lt_succ_self _)
      refine ⟨(bounded.growTo small').setGeneration inRange e.generation_lt, ?_⟩
      unfold EntitySlots.adopt
      dsimp only
      rw [List.length_set, length_growTo]
      exact le_max_left _ _
  | pool ids => exact ⟨⟨bounded.length, bounded.generation, bounded.free⟩, le_rfl⟩

/-- Steps keep the slots numbered and give none back. -/
theorem Bounded.steps
    (bounded : slots.Bounded) (steps : SlotSteps slots slots') :
    slots'.Bounded ∧
      slots.slotGenerations.length ≤ slots'.slotGenerations.length := by
  induction steps with
  | refl => exact ⟨bounded, le_rfl⟩
  | tail _ step inductionHypothesis =>
      obtain ⟨next, longer⟩ := inductionHypothesis.1.step step
      exact ⟨next, inductionHypothesis.2.trans longer⟩

/-- An allocated id has the front free slot or, without one, a new slot. -/
theorem Bounded.allocEntityId_slot
    (bounded : slots.Bounded)
    (issued : slots.allocEntityId.2 ≠ Entity.null) :
    slots.allocEntityId.2.slot =
      slots.freeSlots.head?.getD slots.slotGenerations.length := by
  unfold allocEntityId at issued ⊢
  cases freeEq : slots.freeSlots with
  | nil =>
      rw [freeEq] at issued
      dsimp only at issued ⊢
      by_cases full : slots.slotGenerations.length ≥ maxSlots
      · rw [if_pos full] at issued
        exact absurd rfl issued
      · rw [if_neg full]
        unfold maxSlots at full
        have added : (slots.slotGenerations ++
            [0])[slots.slotGenerations.length]? = some 0 := by simp
        unfold generationOf
        dsimp only
        rw [added]
        exact Entity.slot_ofSlot (by omega) (by decide)
  | cons idx rest =>
      have inRange := bounded.free idx (freeEq ▸ List.mem_cons_self)
      have small := bounded.length
      exact Entity.slot_ofSlot (by omega) (bounded.generation idx)

end EntitySlots

namespace World

variable {registry : ComponentRegistry} {w : World}

/-- An operation changes the allocator by its steps only. -/
def Allocates (op : World → Traced Effect World) : Prop :=
  ∀ w, SlotSteps w.slots (op w).state.slots

/-! ## Operations that leave the allocator alone -/

@[simp] theorem slots_invalidateCache (w : World) :
    w.invalidateCache.slots = w.slots :=
  (agrees_invalidateCache w : Agrees {} _ _).slots_eq

@[simp] theorem slots_writeComponent
    (w : World) (e : Entity) (loc : EntityLocation) (t : ComponentTypeId)
    (bytes : List UInt8) : (w.writeComponent e loc t bytes).slots = w.slots :=
  (writeComponent_frame w e loc t bytes).1

@[simp] theorem slots_markRow
    (w : World) (e : Entity) (loc : EntityLocation) (t : ComponentTypeId) :
    (w.markRow e loc t).slots = w.slots :=
  (markRow_frame w e loc t).1

@[simp] theorem slots_moveToSet
    (w : World) (e : Entity) (loc : EntityLocation)
    (ids : List ComponentTypeId) :
    (w.moveToSet registry e loc ids).1.slots = w.slots := rfl

@[simp] theorem slots_queueDeferredMove (w : World) (e : Entity) :
    (w.queueDeferredMove e).slots = w.slots := by
  unfold queueDeferredMove
  split <;> rfl

@[simp] theorem slots_deferOp
    (w : World) (e : Entity) (op : PendingComponentOp) :
    (w.deferOp e op).slots = w.slots :=
  slots_queueDeferredMove _ e

/-- An addition allocates nothing. -/
theorem addRaw_slots
    (w : World) (e : Entity) (t : ComponentTypeId)
    (data : Option (List UInt8)) :
    (w.addRaw registry e t data).state.slots = w.slots := by
  unfold addRaw
  split
  · rfl
  · split
    · split
      · exact slots_deferOp _ _ _
      · dsimp only
        split
        · exact slots_writeComponent _ _ _ _ _
        · split
          · rfl
          · exact (slots_invalidateCache _).trans
              (slots_writeComponent _ _ _ _ _)
    · rfl

/-- Neither does a removal. -/
theorem removeComponent_slots
    (w : World) (e : Entity) (t : ComponentTypeId) :
    (w.removeComponent registry e t).state.slots = w.slots := by
  unfold removeComponent
  split
  · rfl
  · split
    · exact slots_deferOp _ _ _
    · split
      · rfl
      · dsimp only
        split
        · rfl
        · split
          · rfl
          · exact slots_invalidateCache _

theorem markChanged_slots
    (w : World) (e : Entity) (t : ComponentTypeId) (field : String) :
    (w.markChanged e t field).state.slots = w.slots := by
  unfold markChanged
  split
  · rfl
  · split
    · rfl
    · split
      · rfl
      · exact slots_markRow _ _ _ _

theorem writeRaw_slots
    (w : World) (e : Entity) (t : ComponentTypeId) (bytes : List UInt8) :
    (w.writeRaw e t bytes).slots = w.slots := by
  unfold writeRaw
  split
  · rfl
  · split <;> rfl

/-- Neither does setting a field. -/
theorem setField_slots
    (w : World) (e : Entity) (t : ComponentTypeId) (name : String)
    (value : List UInt8) :
    (w.setField registry e t name value).state.slots = w.slots := by
  unfold setField
  split
  · exact (markChanged_slots _ _ _ _).trans (writeRaw_slots _ _ _ _)
  · rfl

/-- A loop over operations that change the allocator by its steps. -/
theorem Allocates.forEach
    {step : World → α → Traced Effect World}
    (each : ∀ item, Allocates fun w => step w item) (items : List α) :
    Allocates fun w => Traced.forEach step w items := by
  induction items with
  | nil => exact fun w => .refl
  | cons item items inductionHypothesis =>
      exact fun w => (each item w).trans (inductionHypothesis _)

theorem commitWrites_slots
    (e : Entity) (loc : EntityLocation)
    (last : AList fun _ : ComponentTypeId => Option (List UInt8))
    (w : World) (types : List ComponentTypeId) :
    (Traced.forEach (commitWrite registry e loc last) w types).state.slots =
      w.slots := by
  induction types generalizing w with
  | nil => rfl
  | cons t types inductionHypothesis =>
      rw [Traced.forEach_cons, Traced.andThen_state, inductionHypothesis]
      unfold commitWrite
      split
      · rfl
      · exact slots_writeComponent _ _ _ _ _

/-- Neither does a commit. -/
theorem commitDeferredMove_slots (w : World) (e : Entity) :
    (w.commitDeferredMove registry e).state.slots = w.slots := by
  unfold commitDeferredMove
  split
  · dsimp only
    split
    · exact (slots_invalidateCache _).trans (commitWrites_slots _ _ _ _ _)
    · exact commitWrites_slots _ _ _ _ _
  · rfl

/-! ## Operations that allocate or free -/

/-- The handle of a creation comes from the allocator. -/
theorem createEntity_handle (w : World) :
    w.createEntity.2 = w.slots.allocEntityId.2 := by
  unfold createEntity
  dsimp only
  split <;> rfl

/-- A creation takes an id. -/
theorem createEntity_allocates :
    Allocates fun w => discardHandle w.createEntity := by
  intro w
  have step := SlotStep.alloc w.slots
  unfold discardHandle createEntity
  dsimp only
  split
  · exact .single step
  · dsimp only
    rw [slots_invalidateCache]
    exact .single step

/-- So does a creation of a given id. -/
theorem createEntityPreassigned_allocates (id : UInt64) :
    Allocates fun w => w.createEntityPreassigned id := by
  intro w
  unfold createEntityPreassigned
  dsimp only
  split
  · exact .refl
  · split
    · exact .refl
    · rename_i near
      rw [not_le] at near
      split
      · have small : (⟨id⟩ : Entity).slot + 1 < 2 ^ 32 := by
          unfold maxPreassignedSlot at near
          omega
        exact .single (.grow w.slots small)
      · dsimp only
        rw [slots_invalidateCache]
        exact .single (.adopt w.slots near)

/-- So does a creation from the pool. -/
theorem createEntityPooled_allocates :
    Allocates fun w => discardHandle w.createEntityPooled := by
  intro w
  unfold discardHandle createEntityPooled
  dsimp only
  split
  · dsimp only
    rw [slots_invalidateCache]
    exact .single (.pool w.slots _)
  · exact createEntity_allocates w

/-- A destruction frees an id. -/
theorem destroyEntity_allocates (e : Entity) :
    Allocates fun w => w.destroyEntity e := by
  intro w
  unfold destroyEntity
  dsimp only
  split
  · exact .refl
  · split
    · exact .refl
    · unfold leave
      dsimp only
      rw [slots_invalidateCache]
      exact .single (.free w.slots e)

/-- Or it puts it into the pool. -/
theorem destroyEntityPooled_allocates (e : Entity) :
    Allocates fun w => w.destroyEntityPooled e := by
  intro w
  unfold destroyEntityPooled
  dsimp only
  split
  · exact .refl
  · split
    · exact .refl
    · unfold leave
      dsimp only
      rw [slots_invalidateCache]
      exact .single (.pool w.slots _)

/-- A clear frees the ids of all entities. -/
theorem clear_allocates : Allocates clear := by
  have entities : ∀ (es : List Entity) (v : World),
      SlotSteps v.slots (es.foldl clearEntity v).slots := by
    intro es
    induction es with
    | nil => exact fun v => .refl
    | cons e es inductionHypothesis =>
        intro v
        refine Relation.ReflTransGen.trans ?_ (inductionHypothesis _)
        unfold clearEntity
        split
        · exact .refl
        · exact .single (.free v.slots e)
  intro w
  unfold clear
  split
  · exact .refl
  · dsimp only
    rw [slots_invalidateCache]
    exact entities _ w

/-! ## The flush -/

/-- A destruction at the end of a window frees an id. -/
theorem flushDestroy_allocates (e : Entity) :
    Allocates fun w => w.flushDestroy e := by
  intro w
  unfold flushDestroy
  dsimp only
  split
  · exact destroyEntity_allocates e w
  · exact .refl

variable (registry) in
theorem flushMove_allocates (e : Entity) :
    Allocates fun w => w.flushMove registry e := by
  intro w
  unfold flushMove
  dsimp only
  split
  · exact .refl
  · exact .of_eq (commitDeferredMove_slots w e)

theorem slots_releaseInvalidation (w : World) :
    w.releaseInvalidation.slots = w.slots :=
  (agrees_releaseInvalidation w : Agrees {} _ _).slots_eq

/-- The end of a window frees the ids of those that are pending. -/
theorem endDeferredMoves_allocates :
    Allocates fun w => w.endDeferredMoves registry := by
  intro w
  unfold endDeferredMoves
  dsimp only
  split
  · exact .refl
  · rw [Traced.mapState_state, slots_releaseInvalidation, Traced.andThen_state]
    have destroyed := Allocates.forEach flushDestroy_allocates
      w.deferredEntities { w with deferMoves := false }
    have moved := Allocates.forEach (flushMove_allocates registry)
      w.deferredEntities
    exact destroyed.trans (moved _)

/-- A command allocates or frees at most one id. -/
theorem executeCommand_allocates (command : Command) :
    Allocates fun w => w.executeCommand registry command := by
  intro w
  cases command with
  | addComponent e t data => exact .of_eq (addRaw_slots ..)
  | removeComponent e t => exact .of_eq (removeComponent_slots ..)
  | addEntity e =>
      dsimp only [executeCommand]
      split
      · exact createEntityPreassigned_allocates e.id w
      · exact .refl
  | removeEntity e =>
      dsimp only [executeCommand]
      unfold destroyEntityDeferred
      split
      · split
        · exact .of_eq (slots_queueDeferredMove _ _)
        · exact .refl
      · exact destroyEntity_allocates e w
  | custom id data =>
      dsimp only [executeCommand]
      unfold runCustomCommand
      split <;> exact .refl

/-- A buffer takes steps of the allocator. -/
theorem executeBuffer_allocates (ops : List Command) :
    Allocates fun w => w.executeBuffer registry ops := by
  intro w
  unfold executeBuffer
  dsimp only
  split
  · exact .refl
  · split
    · exact .refl
    · rw [Traced.mapState_state,
        (agrees_endSuppress _ : Agrees {} _ _).slots_eq, Traced.andThen_state]
      exact (Allocates.forEach executeCommand_allocates ops
        w.beginSuppress.beginDeferredMoves).trans (endDeferredMoves_allocates _)

end World

/-- Every operation changes the allocator by its steps only. -/
theorem WorldOp.apply_allocates
    {registry : ComponentRegistry} (op : WorldOp) :
    World.Allocates fun w => op.apply registry w := by
  intro w
  cases op with
  | createEntity => exact World.createEntity_allocates w
  | createEntityPreassigned id =>
      exact World.createEntityPreassigned_allocates id w
  | createEntityPooled => exact World.createEntityPooled_allocates w
  | destroyEntity e => exact World.destroyEntity_allocates e w
  | destroyEntityPooled e => exact World.destroyEntityPooled_allocates e w
  | setEntityRange base => exact .single (.grow w.slots base.toNat_lt)
  | addRaw e t data => exact .of_eq (World.addRaw_slots ..)
  | removeComponent e t => exact .of_eq (World.removeComponent_slots ..)
  | markChanged e t field => exact .of_eq (World.markChanged_slots ..)
  | setField e t name value => exact .of_eq (World.setField_slots ..)
  | executeBuffer ops => exact World.executeBuffer_allocates ops w
  | compact => exact .refl
  | clear => exact World.clear_allocates w
  | rehash order => exact .refl

end VortarisECS
