import VortarisECS.Core.FlushEquivalence
import VortarisECS.Core.RowOrder
import VortarisECS.Core.SlotSteps
import VortarisECS.Core.WorldModes
import VortarisECS.Library.Pairing
import VortarisECS.Serialization.EntityRecord

/-!
# Merging a world into another

A merge copies every entity of the source world, as its archetypes list them.
The copies are made on the target world itself, which `copy_entity_to` takes for
a clone of the entity within its own world: they never keep their ids.
-/

namespace VortarisECS
namespace EntitySlots

/-- The ids the next `count` allocations hand out. -/
def issues : Nat → EntitySlots → List Entity
  | 0, _ => []
  | count + 1, slots =>
      slots.allocEntityId.2 :: issues count slots.allocEntityId.1

/-- As many ids as creations. -/
theorem length_issues (count : Nat) (slots : EntitySlots) :
    (slots.issues count).length = count := by
  induction count generalizing slots with
  | zero => rfl
  | succ count inductionHypothesis =>
      rw [issues, List.length_cons, inductionHypothesis]

/-- Fewer creations hand out the first of the ids. -/
theorem take_issues {first count : Nat} (fewer : first ≤ count)
    (slots : EntitySlots) :
    (slots.issues count).take first = slots.issues first := by
  induction first generalizing count slots with
  | zero => rfl
  | succ first inductionHypothesis =>
      obtain ⟨count, rfl⟩ : ∃ fewer, count = fewer + 1 :=
        ⟨count - 1, by omega⟩
      rw [issues, issues, List.take_succ_cons,
        inductionHypothesis (Nat.le_of_succ_le_succ fewer)]

end EntitySlots

namespace World

variable (registry : ComponentRegistry)

/-- The component types of an entity with their bytes. -/
def componentData (w : World) (e : Entity) :
    List (ComponentTypeId × List UInt8) :=
  (w.getEntityComponentTypes e).filterMap fun t =>
    match registry.schemaOf t, w.getRaw e t with
    | some schema, some raw => some (t, copyBytes schema.size raw)
    | _, _ => none

/-- The entity `copy_entity_to` copies to, where `same` says that it was called
on the target world itself. -/
def copyTarget (same : Bool) (target : World) (e : Entity) :
    Traced Effect World × Entity :=
  if same then target.createEntity
  else
    let preassigned := target.createEntityPreassigned e.id
    let handle := target.preassignedHandle e.id
    if handle = Entity.null then
      let created := preassigned.state.createEntity
      (preassigned.andThen fun _ => created.1, created.2)
    else (preassigned, handle)

/-- `VECSWorld::copy_entity_to`, with the copy if there is one.  It reads the
source world only. -/
def copyEntityTo (same : Bool) (source target : World) (e : Entity) :
    Traced Effect World × Option Entity :=
  if !source.isAlive e then (.pure target, none)
  else
    let comps := source.componentData registry e
    let (created, copy) := target.copyTarget same e
    if copy = Entity.null then (created, none)
    else if same then
      (created.andThen fun w =>
        (comps.foldl (fun w comp =>
          w.queueCommand (.addComponent copy comp.1 comp.2))
            w).flushCommandBuffers registry, some copy)
    else
      (created.andThen fun w =>
        Traced.forEach (fun w comp =>
          w.addRaw registry copy comp.1 (some comp.2)) w comps, some copy)

/-- A merge under way: the target world and the mapping so far. -/
structure Merging where
  target : World
  mapping : AList fun _ : UInt64 => UInt64 := ∅

/-- One entity of the loop of `merge_world`, which calls `copy_entity_to` on the
target world. -/
def mergeEntity (source : World) (merging : Merging) (e : Entity) :
    Traced Effect Merging :=
  let (copied, copy) := copyEntityTo registry true source merging.target e
  ⟨{ target := copied.state
     mapping :=
      match copy with
      | none => merging.mapping
      | some copy => merging.mapping.insert e.id copy.id },
    copied.effects⟩

/-- The entities of a world in the order of its archetypes. -/
def entityList (w : World) : List Entity :=
  w.store.listing w.store.archetypeList

/-- `VECSWorld::merge_world`, for a source that is another world. -/
def mergeWorld (source target : World) : Traced Effect Merging :=
  Traced.forEach (mergeEntity registry source) { target := target }
    source.entityList

/-! ## What a merge promises -/

/-- The mapping is defined on the live entities of the source, maps them one to
one to ids that were free, and to their own ids where they could be created with
these; the copies have the components of their originals, and nothing else in
the target has changed. -/
structure CopiesAll (source target : World) (merged : Merging) : Prop where
  defined : ∀ e : Entity,
    (merged.mapping.lookup e.id).isSome ↔ source.isAlive e = true
  injective : ∀ (e e' : Entity) id, merged.mapping.lookup e.id = some id →
    merged.mapping.lookup e'.id = some id → e = e'
  free : ∀ (e : Entity) id, merged.mapping.lookup e.id = some id →
    target.isAlive ⟨id⟩ = false
  copied : ∀ (e : Entity) id, merged.mapping.lookup e.id = some id →
    merged.target.contents ⟨id⟩ = source.contents e
  kept : ∀ x, target.isAlive x = true →
    merged.target.contents x = target.contents x
  keepsId : ∀ i (e : Entity), source.entityList[i]? = some e →
    (Traced.forEach (mergeEntity registry source) { target := target }
      (source.entityList.take i)).state.target.isAlive e = false →
    idRefused e.id = false → merged.mapping.lookup e.id = some e.id

/-! ## When it keeps the promise -/

/-- The ids that are handed out are real, free and different, and the one for an
entity is its own unless it is taken by then, or refused. -/
structure IssuesSourceIds (source target : World) : Prop where
  free : ∀ x ∈ target.slots.issues source.entityList.length,
    x ≠ Entity.null ∧ target.isAlive x = false
  once : (target.slots.issues source.entityList.length).Nodup
  keeps : ∀ i e, source.entityList[i]? = some e →
    target.isAlive e = true ∨ e ∈ target.slots.issues i ∨
    idRefused e.id = true ∨
    (target.slots.issues source.entityList.length)[i]? = some e

variable {registry} {source target w w' w'' : World} {e : Entity}

/-! ## What a flush of additions leaves alone -/

/-- The allocator and the command buffer are as before. -/
structure SameFrame (w w' : World) : Prop where
  slots : w'.slots = w.slots
  buffer : w'.commandBuffer = w.commandBuffer

theorem SameFrame.refl (w : World) : SameFrame w w := ⟨rfl, rfl⟩

/-- Two steps leave the frame alone. -/
theorem SameFrame.trans
    (first : SameFrame w w') (second : SameFrame w' w'') : SameFrame w w'' :=
  ⟨second.slots.trans first.slots, second.buffer.trans first.buffer⟩

/-- Many steps leave the frame alone. -/
theorem sameFrame_forEach
    {step : World → α → Traced Effect World}
    (each : ∀ w item, SameFrame w (step w item).state)
    (w : World) (items : List α) :
    SameFrame w (Traced.forEach step w items).state := by
  induction items generalizing w with
  | nil => exact .refl w
  | cons item items inductionHypothesis =>
      exact (each w item).trans (inductionHypothesis _)

theorem commandBuffer_invalidateCache (w : World) :
    w.invalidateCache.commandBuffer = w.commandBuffer := by
  unfold invalidateCache
  split <;> rfl

theorem commandBuffer_logChange (w : World) (e : Entity) (t : ComponentTypeId)
    (tick : Nat) : (w.logChange e t tick).commandBuffer = w.commandBuffer := by
  unfold logChange
  dsimp only
  split <;> rfl

theorem commandBuffer_writeComponent (w : World) (e : Entity)
    (loc : EntityLocation) (t : ComponentTypeId) (bytes : List UInt8) :
    (w.writeComponent e loc t bytes).commandBuffer = w.commandBuffer := by
  unfold writeComponent stampWrite
  dsimp only
  split
  · exact commandBuffer_logChange _ _ _ _
  · rfl

theorem sameFrame_queueDeferredMove (w : World) (e : Entity) :
    SameFrame w (w.queueDeferredMove e) := by
  unfold queueDeferredMove
  split <;> exact ⟨rfl, rfl⟩

/-- Queueing an operation leaves the frame alone. -/
theorem sameFrame_deferOp (w : World) (e : Entity) (op : PendingComponentOp) :
    SameFrame w (w.deferOp e op) := by
  have queued : SameFrame w { w with
      pendingOps := w.pendingOps.insert e
        ((w.pendingOps.lookup e).getD [] ++ [op]) } := ⟨rfl, rfl⟩
  exact queued.trans (sameFrame_queueDeferredMove _ e)

theorem sameFrame_commitWrite
    (e : Entity) (loc : EntityLocation)
    (last : AList fun _ : ComponentTypeId => Option (List UInt8))
    (w : World) (t : ComponentTypeId) :
    SameFrame w (commitWrite registry e loc last w t).state := by
  unfold commitWrite
  split
  · exact .refl w
  · exact ⟨slots_writeComponent _ _ _ _ _,
      commandBuffer_writeComponent _ _ _ _ _⟩

/-- So does a commit. -/
theorem sameFrame_commitDeferredMove (w : World) (e : Entity) :
    SameFrame w (w.commitDeferredMove registry e).state := by
  refine ⟨commitDeferredMove_slots w e, ?_⟩
  unfold commitDeferredMove
  split
  · dsimp only
    split
    · exact (commandBuffer_invalidateCache _).trans
        (sameFrame_forEach (sameFrame_commitWrite e _ _) _ _).buffer
    · exact (sameFrame_forEach (sameFrame_commitWrite e _ _) _ _).buffer
  · rfl

/-- A flush that destroys nothing. -/
theorem sameFrame_endDeferredMoves (spared : w.pendingDestroy = []) :
    SameFrame w (w.endDeferredMoves registry).state := by
  have destroysNothing : ∀ entities, Traced.forEach flushDestroy
      { w with deferMoves := false } entities =
        .pure { w with deferMoves := false } := by
    intro entities
    induction entities with
    | nil => rfl
    | cons e entities inductionHypothesis =>
        have skipped : flushDestroy { w with deferMoves := false } e =
            .pure { w with deferMoves := false } := by
          unfold flushDestroy
          rw [spared, if_neg List.not_mem_nil]
        rw [Traced.forEach_cons, skipped, Traced.pure_andThen,
          inductionHypothesis]
  unfold endDeferredMoves
  split
  · exact .refl w
  · dsimp only
    rw [destroysNothing, Traced.pure_andThen, Traced.mapState_state]
    have closed : SameFrame w { w with deferMoves := false } := ⟨rfl, rfl⟩
    have moves : ∀ v e, SameFrame v (flushMove registry v e).state := by
      intro v e
      unfold flushMove
      split
      · exact .refl v
      · exact sameFrame_commitDeferredMove v e
    have finished : ∀ v : World,
        SameFrame v v.clearPending.releaseInvalidation := by
      intro v
      unfold releaseInvalidation
      split <;> exact ⟨rfl, rfl⟩
    exact (closed.trans (sameFrame_forEach moves _ w.deferredEntities)).trans
      (finished _)

/-- Additions in a window only queue. -/
theorem addRaw_queued
    (deferred : w.deferMoves = true) (e : Entity) (t : ComponentTypeId)
    (data : Option (List UInt8)) :
    SameFrame w (w.addRaw registry e t data).state ∧
    (w.addRaw registry e t data).state.deferMoves = true ∧
    (w.addRaw registry e t data).state.pendingDestroy = w.pendingDestroy := by
  unfold addRaw
  rw [deferred]
  split
  · exact ⟨.refl w, deferred, rfl⟩
  · split
    · rw [if_pos rfl]
      obtain ⟨-, destroyEq, deferEq, -⟩ := queueDeferredMove_queues
        { w with
          pendingOps := w.pendingOps.insert e
            ((w.pendingOps.lookup e).getD [] ++ [_]) } e
      exact ⟨sameFrame_deferOp w e _, deferEq.trans deferred, destroyEq⟩
    · exact ⟨.refl w, deferred, rfl⟩

/-- The additions of a copy are queued, and nothing else happens. -/
theorem addCommands_queued
    (deferred : w.deferMoves = true) (e : Entity)
    (comps : List (ComponentTypeId × List UInt8)) :
    let queued := Traced.forEach (executeCommand registry) w
      (comps.map fun comp => .addComponent e comp.1 comp.2)
    SameFrame w queued.state ∧
    queued.state.pendingDestroy = w.pendingDestroy := by
  induction comps generalizing w with
  | nil => exact ⟨.refl w, rfl⟩
  | cons comp comps inductionHypothesis =>
      obtain ⟨frame, stillDeferred, destroyEq⟩ := addRaw_queued
         deferred e comp.1 (commandData comp.2)
      obtain ⟨laterFrame, laterDestroy⟩ := inductionHypothesis stillDeferred
      exact ⟨frame.trans laterFrame, laterDestroy.trans destroyEq⟩

variable (registry) in
/-- An idle world executes additions without touching the allocator. -/
theorem addBuffer_sameFrame
    (idle : w.Idle) (e : Entity)
    (comps : List (ComponentTypeId × List UInt8)) :
    SameFrame w (w.executeBuffer registry
      (comps.map fun comp => .addComponent e comp.1 comp.2)).state := by
  unfold executeBuffer
  split
  · exact .refl w
  · split
    · exact .refl w
    · obtain ⟨frame, destroyEq⟩ := addCommands_queued 
        (w := w.beginSuppress.beginDeferredMoves) rfl e comps
      have opened : SameFrame w w.beginSuppress.beginDeferredMoves :=
        ⟨rfl, rfl⟩
      have closed : ∀ v : World, SameFrame v v.endSuppress := by
        intro v
        unfold endSuppress releaseInvalidation
        split
        · split <;> exact ⟨rfl, rfl⟩
        · exact .refl v
      exact ((opened.trans frame).trans (sameFrame_endDeferredMoves
        (destroyEq.trans idle.pendingDestroy))).trans (closed _)

/-! ## What is copied -/

/-- The data of an entity are its components. -/
theorem mem_componentData
    (consistent : source.store.Consistent registry)
    {comp : ComponentTypeId × List UInt8}
    (member : comp ∈ source.componentData registry e) :
    (registry.schemaOf comp.1).isSome ∧
    comp.2.length = registry.sizeOf comp.1 ∧
    source.bytesAt e comp.1 = some comp.2 := by
  obtain ⟨t, -, found⟩ := List.mem_filterMap.mp member
  cases registered : registry.schemaOf t with
  | none =>
      rw [registered] at found
      exact absurd found (by simp)
  | some schema =>
  cases raw : source.getRaw e t with
  | none =>
      rw [registered, raw] at found
      exact absurd found (by simp)
  | some bytes =>
      rw [registered, raw] at found
      obtain rfl := Option.some.inj found
      have sized : bytes.length = schema.size :=
        (getRaw_length consistent raw).trans
          (ComponentRegistry.sizeOf_of_schemaOf registered)
      dsimp only
      rw [copyBytes_of_length sized, bytesAt_eq_getRaw consistent]
      exact ⟨by rw [registered]; rfl, getRaw_length consistent raw, raw⟩

/-- All components of a live entity are among its data. -/
theorem componentData_complete
    (consistent : source.store.Consistent registry)
    (alive : source.isAlive e = true) {t : ComponentTypeId}
    {bytes : List UInt8} (has : source.bytesAt e t = some bytes) :
    t ∈ (source.componentData registry e).map Prod.fst := by
  obtain ⟨loc, location⟩ := location_of_isAlive alive
  have isType : t ∈ (source.store.deref loc.archetype).componentIds :=
    (bytesAt_isSome_iff location t).mp (by rw [has]; rfl)
  have registered := (consistent.archetypeOf location).registered t isType
  obtain ⟨schema, found⟩ := Option.isSome_iff_exists.mp registered
  rw [bytesAt_eq_getRaw consistent] at has
  refine List.mem_map.mpr ⟨(t, copyBytes schema.size bytes), ?_, rfl⟩
  unfold componentData getEntityComponentTypes
  rw [if_pos alive, ArchetypeStore.typesOf_of_location location,
    Option.getD_some]
  refine List.mem_filterMap.mpr ⟨t, isType, ?_⟩
  rw [found, has]

/-- The data of a component that was put, and what was there otherwise. -/
theorem putData_apply
    {components : Components} {comps : List (ComponentTypeId × List UInt8)}
    (same : ∀ comp ∈ comps, components comp.1 = some comp.2)
    (base : Components) (t : ComponentTypeId) :
    comps.foldl (fun had comp => had.put comp.1 (some comp.2)) base t =
      if t ∈ comps.map Prod.fst then components t else base t := by
  induction comps generalizing base with
  | nil => rfl
  | cons comp comps inductionHypothesis =>
      rw [List.foldl_cons, inductionHypothesis fun later member =>
        same later (List.mem_cons_of_mem comp member)]
      unfold Components.put
      simp only [List.map_cons, List.mem_cons]
      by_cases inLater : t ∈ comps.map Prod.fst
      · rw [if_pos inLater, if_pos (Or.inr inLater)]
      · rw [if_neg inLater]
        by_cases here : t = comp.1
        · rw [if_pos here, if_pos (Or.inl here), here,
            same comp List.mem_cons_self]
        · rw [if_neg here, if_neg (not_or.mpr ⟨here, inLater⟩)]

/-- The data of an entity put into a new one make its components. -/
theorem putComponentData
    (consistent : source.store.Consistent registry)
    (alive : source.isAlive e = true) :
    (source.componentData registry e).foldl
        (fun (had : Components) comp => had.put comp.1 (some comp.2))
        (fun _ => none) =
      source.bytesAt e := by
  funext t
  rw [putData_apply fun comp member =>
    (mem_componentData consistent member).2.2]
  split
  · rfl
  · rename_i absent
    cases has : source.bytesAt e t with
    | none => rfl
    | some bytes =>
        exact absurd (componentData_complete consistent alive has) absent

/-- The bytes of a command are written as they are. -/
theorem componentBytes_commandData
    {bytes : List UInt8} {size : Nat} (sized : bytes.length = size) :
    componentBytes size (commandData bytes) = bytes := by
  unfold commandData
  cases bytes with
  | nil =>
      rw [← sized]
      rfl
  | cons byte bytes => exact copyBytes_of_length sized

/-- Additions put their data in place. -/
theorem executeData_contents
    {comps : List (ComponentTypeId × List UInt8)}
    (sound : ∀ comp ∈ comps, (registry.schemaOf comp.1).isSome ∧
      comp.2.length = registry.sizeOf comp.1)
    (contents : Contents) (copy : Entity) :
    (comps.map fun comp => Command.addComponent copy comp.1 comp.2).foldl
        (Contents.execute registry) contents =
      contents.adjust copy fun base =>
        comps.foldl (fun had comp => had.put comp.1 (some comp.2)) base := by
  induction comps generalizing contents with
  | nil => exact (Contents.adjust_id contents copy).symm
  | cons comp comps inductionHypothesis =>
      obtain ⟨registered, sized⟩ := sound comp List.mem_cons_self
      rw [List.map_cons, List.foldl_cons, inductionHypothesis fun later member =>
        sound later (List.mem_cons_of_mem comp member)]
      unfold Contents.execute
      dsimp only
      rw [if_pos registered, componentBytes_commandData sized, Contents.put,
        Contents.adjust_adjust]
      rfl

/-! ## One copy -/

/-- The commands of a copy are appended to the buffer. -/
theorem queueCommands_eq (w : World) (copy : Entity)
    (comps : List (ComponentTypeId × List UInt8)) :
    comps.foldl (fun w comp =>
        w.queueCommand (.addComponent copy comp.1 comp.2)) w =
      { w with
        commandBuffer := w.commandBuffer ++
          comps.map fun comp => .addComponent copy comp.1 comp.2 } := by
  induction comps generalizing w with
  | nil =>
      rw [List.map_nil, List.append_nil]
      rfl
  | cons comp comps inductionHypothesis =>
      rw [List.foldl_cons, inductionHypothesis]
      unfold queueCommand
      dsimp only
      rw [List.map_cons, List.append_assoc]
      rfl

/-- Additions queued in an idle world with an empty buffer and flushed. -/
theorem flushAdditions_eq
    (idle : w.Idle) (empty : w.commandBuffer = []) (copy : Entity)
    (comps : List (ComponentTypeId × List UInt8)) :
    (comps.foldl (fun w comp =>
        w.queueCommand (.addComponent copy comp.1 comp.2))
          w).flushCommandBuffers registry =
      w.executeBuffer registry
        (comps.map fun comp => .addComponent copy comp.1 comp.2) := by
  have same : ∀ buffer : List Command,
      { ({ w with commandBuffer := buffer } : World) with
        commandBuffer := [] } = w := by
    intro buffer
    cases w
    cases empty
    rfl
  have outside : ∀ buffer : List Command,
      ({ w with commandBuffer := buffer } : World).inIteration = false :=
    fun _ => idle.outside
  rw [queueCommands_eq, empty, List.nil_append]
  unfold flushCommandBuffers
  rw [outside, if_neg Bool.false_ne_true, same]

/-- A world that may be merged into. -/
structure TakesCopies (w : World) : Prop where
  idle : w.Idle
  empty : w.commandBuffer = []

/-- A world that takes copies still does after a creation. -/
theorem createEntity_takesCopies (takes : w.TakesCopies) :
    w.createEntity.1.state.TakesCopies ∧
    w.createEntity.1.state.slots = w.slots.allocEntityId.1 := by
  refine ⟨⟨(createEntity_control w).trans takes.idle, ?_⟩, ?_⟩
  · unfold createEntity
    dsimp only
    split
    · exact takes.empty
    · exact (commandBuffer_invalidateCache _).trans takes.empty
  · unfold createEntity
    dsimp only
    split
    · rfl
    · exact slots_invalidateCache _

/-- On the target world itself a copy is made of a new entity. -/
theorem copyEntityTo_onTarget
    (alive : source.isAlive e = true) (target : World) :
    copyEntityTo registry true source target e =
      if target.createEntity.2 = Entity.null then (target.createEntity.1, none)
      else
        (target.createEntity.1.andThen fun w =>
          ((source.componentData registry e).foldl (fun w comp =>
            w.queueCommand (.addComponent target.createEntity.2 comp.1 comp.2))
              w).flushCommandBuffers registry,
          some target.createEntity.2) := by
  unfold copyEntityTo copyTarget
  rw [alive]
  rfl

variable (registry) in
/-- The copy of a live entity has the next id of the allocator. -/
theorem copyEntityTo_frame
    (alive : source.isAlive e = true) (takes : target.TakesCopies) :
    let copied := copyEntityTo registry true source target e
    let next := target.slots.allocEntityId
    copied.2 = (if next.2 = Entity.null then none else some next.2) ∧
    copied.1.state.TakesCopies ∧ copied.1.state.slots = next.1 := by
  obtain ⟨createdTakes, createdSlots⟩ := createEntity_takesCopies takes
  rw [copyEntityTo_onTarget alive]
  dsimp only
  rw [← createEntity_handle]
  by_cases isNull : target.createEntity.2 = Entity.null
  · rw [if_pos isNull, if_pos isNull]
    exact ⟨rfl, createdTakes, createdSlots⟩
  · rw [if_neg isNull, if_neg isNull]
    refine ⟨rfl, ?_⟩
    rw [Traced.andThen_state,
      flushAdditions_eq createdTakes.idle createdTakes.empty]
    have frame := addBuffer_sameFrame registry createdTakes.idle
      target.createEntity.2 (source.componentData registry e)
    exact ⟨⟨executeBuffer_idle createdTakes.idle _,
      frame.buffer.trans createdTakes.empty⟩, frame.slots.trans createdSlots⟩

/-- A copy that gets a free id has the components of its original. -/
theorem copyEntityTo_contents
    (consistent : source.store.Consistent registry)
    (alive : source.isAlive e = true) (takes : target.TakesCopies)
    (stable : target.Stable registry)
    (real : target.slots.allocEntityId.2 ≠ Entity.null)
    (dead : target.isAlive target.slots.allocEntityId.2 = false) :
    let copied := (copyEntityTo registry true source target e).1.state
    copied.Stable registry ∧
    ∀ x, copied.contents x =
      if x = target.slots.allocEntityId.2 then source.contents e
      else target.contents x := by
  obtain ⟨createdTakes, -⟩ := createEntity_takesCopies takes
  rw [← createEntity_handle] at real dead ⊢
  have created := createEntity_contents stable.consistent fun _ => dead
  rw [if_neg real] at created
  have createdStable : target.createEntity.1.state.Stable registry := by
    refine createEntity_realizes.keeps (stable_inductiveOn registry) target
      stable ?_
    rw [createEntity_handle] at dead
    unfold discardHandle createEntity
    dsimp only
    split
    · exact Traced.accepted_pure _ _
    · intro effect member
      obtain rfl := List.mem_singleton.mp member
      exact dead
  have sound := fun comp
      (member : comp ∈ source.componentData registry e) =>
    mem_componentData consistent member
  have structural : ∀ command ∈ (source.componentData registry e).map fun comp =>
      Command.addComponent target.createEntity.2 comp.1 comp.2,
      command.Structural := by
    intro command member
    obtain ⟨comp, -, rfl⟩ := List.mem_map.mp member
    trivial
  obtain ⟨copiedStable, copiedContents, -⟩ := executeBuffer_spec createdStable
    createdTakes.idle structural
  rw [copyEntityTo_onTarget alive, if_neg real]
  dsimp only
  rw [Traced.andThen_state,
    flushAdditions_eq createdTakes.idle createdTakes.empty]
  refine ⟨copiedStable, fun x => ?_⟩
  rw [copiedContents, executeData_contents fun comp member =>
    ⟨(sound comp member).1, (sound comp member).2.1⟩, created]
  by_cases isCopy : x = target.createEntity.2
  · rw [if_pos isCopy, isCopy, Contents.adjust_self, Contents.spawn,
      if_pos rfl, Option.map_some, putComponentData consistent alive,
      contents_of_alive alive]
  · rw [if_neg isCopy, Contents.adjust_of_ne _ _ isCopy, Contents.spawn,
      if_neg isCopy]

/-! ## The loop -/

/-- What the mapping says after a pair. -/
def mappedTo (copy : Entity) : Option UInt64 :=
  if copy = Entity.null then none else some copy.id

variable (registry) in
/-- The mapping follows the allocator. -/
theorem mergeLoop_frame
    {merging : Merging} (takes : merging.target.TakesCopies)
    {entities : List Entity}
    (alive : ∀ e ∈ entities, source.isAlive e = true)
    (once : entities.Nodup)
    (unmapped : ∀ e ∈ entities, merging.mapping.lookup e.id = none) :
    let merged := (Traced.forEach (mergeEntity registry source) merging
      entities).state
    merged.target.TakesCopies ∧
    ∀ e : Entity, merged.mapping.lookup e.id =
      match (entities.zip
        (merging.target.slots.issues entities.length)).lookup e with
      | some copy => mappedTo copy
      | none => merging.mapping.lookup e.id := by
  induction entities generalizing merging with
  | nil => exact ⟨takes, fun _ => rfl⟩
  | cons e entities inductionHypothesis =>
      rw [List.nodup_cons] at once
      obtain ⟨copy, nextTakes, nextSlots⟩ := copyEntityTo_frame registry
        (alive e List.mem_cons_self) takes
      have nextMapping : ∀ x : Entity,
          (mergeEntity registry source merging e).state.mapping.lookup x.id =
            if x = e then
              (mappedTo merging.target.slots.allocEntityId.2).or
                (merging.mapping.lookup x.id)
            else merging.mapping.lookup x.id := by
        intro x
        have sameId : x.id = e.id ↔ x = e :=
          ⟨fun same => congrArg Entity.mk same, congrArg Entity.id⟩
        unfold mergeEntity mappedTo
        dsimp only
        rw [copy]
        split
        · rename_i isNull
          split at isNull
          · rename_i null
            rw [if_pos null]
            simp
          · exact absurd isNull (by simp)
        · rename_i issued
          split at issued
          · exact absurd issued (by simp)
          · rename_i real
            rw [← Option.some.inj issued, if_neg real, AList.lookup_insert_if]
            simp only [sameId, Option.some_or]
      obtain ⟨lastTakes, lastMapping⟩ := inductionHypothesis nextTakes
        (fun later member => alive later (List.mem_cons_of_mem e member)) once.2
        fun later member => by
          have other : later ≠ e := fun same => once.1 (same ▸ member)
          rw [nextMapping, if_neg other]
          exact unmapped later (List.mem_cons_of_mem e member)
      refine ⟨lastTakes, fun x => ?_⟩
      rw [Traced.forEach_cons, Traced.andThen_state, lastMapping]
      change (match (entities.zip (EntitySlots.issues entities.length
          (copyEntityTo registry true source merging.target
            e).1.state.slots)).lookup x with
        | some copy => mappedTo copy
        | none => _) = _
      rw [nextSlots, List.length_cons, EntitySlots.issues, List.zip_cons_cons,
        List.lookup_cons, nextMapping]
      by_cases isHead : x = e
      · subst isHead
        rw [beq_self_eq_true, if_pos rfl, unmapped x List.mem_cons_self,
          Option.or_none]
        rw [List.lookup_zip_of_not_mem once.1]
      · rw [beq_false_of_ne isHead, if_neg isHead]

/-- Copies with different free ids have the components of their originals, and
nothing else changes. -/
theorem mergeLoop_contents
    (consistent : source.store.Consistent registry) {merging : Merging}
    (takes : merging.target.TakesCopies)
    (stable : merging.target.Stable registry) {entities : List Entity}
    (alive : ∀ e ∈ entities, source.isAlive e = true)
    (free : ∀ x ∈ merging.target.slots.issues entities.length,
      x ≠ Entity.null ∧ merging.target.isAlive x = false)
    (once : (merging.target.slots.issues entities.length).Nodup) :
    let merged := (Traced.forEach (mergeEntity registry source) merging
      entities).state
    merged.target.Stable registry ∧
    ∀ x, merged.target.contents x =
      match ((merging.target.slots.issues entities.length).zip
        entities).lookup x with
      | some e => source.contents e
      | none => merging.target.contents x := by
  induction entities generalizing merging with
  | nil => exact ⟨stable, fun _ => rfl⟩
  | cons e entities inductionHypothesis =>
      rw [List.length_cons, EntitySlots.issues] at free once ⊢
      rw [List.nodup_cons] at once
      obtain ⟨real, dead⟩ := free _ List.mem_cons_self
      have isLive := alive e List.mem_cons_self
      obtain ⟨-, nextTakes, nextSlots⟩ := copyEntityTo_frame registry isLive
        takes
      obtain ⟨nextStable, nextContents⟩ := copyEntityTo_contents consistent
        isLive takes stable real dead
      obtain ⟨lastStable, lastContents⟩ := inductionHypothesis
        (show (mergeEntity registry source merging e).state.target.TakesCopies
          from nextTakes) nextStable
        (fun later member => alive later (List.mem_cons_of_mem e member))
        (by
          intro x member
          change x ∈ EntitySlots.issues entities.length
            (copyEntityTo registry true source merging.target
              e).1.state.slots at member
          rw [nextSlots] at member
          obtain ⟨xReal, xDead⟩ := free x (List.mem_cons_of_mem _ member)
          refine ⟨xReal, ?_⟩
          have other : x ≠ merging.target.slots.allocEntityId.2 :=
            fun same => once.1 (same ▸ member)
          change (copyEntityTo registry true source merging.target
            e).1.state.isAlive x = false
          rw [← contents_isSome, nextContents, if_neg other, contents_isSome,
            xDead])
        (by
          change (EntitySlots.issues entities.length
            (copyEntityTo registry true source merging.target
              e).1.state.slots).Nodup
          rw [nextSlots]
          exact once.2)
      refine ⟨lastStable, fun x => ?_⟩
      rw [Traced.forEach_cons, Traced.andThen_state, lastContents]
      change (match ((EntitySlots.issues entities.length
          (copyEntityTo registry true source merging.target
            e).1.state.slots).zip entities).lookup x with
        | some e => source.contents e
        | none => (copyEntityTo registry true source merging.target
            e).1.state.contents x) = _
      rw [nextSlots, List.zip_cons_cons, List.lookup_cons, nextContents]
      by_cases isHead : x = merging.target.slots.allocEntityId.2
      · rw [isHead, beq_self_eq_true, if_pos rfl,
          List.lookup_zip_of_not_mem once.1]
      · rw [beq_false_of_ne isHead, if_neg isHead]

/-! ## The whole merge -/

/-- The list of entities has every live one once. -/
theorem entityList_spec (consistent : source.store.Consistent registry) :
    source.entityList.Nodup ∧
    ∀ e, e ∈ source.entityList ↔ source.isAlive e = true := by
  refine ⟨ArchetypeStore.listing_nodup consistent (List.Perm.refl _),
    fun e => ?_⟩
  unfold entityList
  rw [ArchetypeStore.mem_listing_iff consistent (List.Perm.refl _),
    ArchetypeStore.isAlive_iff]
  constructor
  · rintro ⟨loc, location⟩
    exact isAlive_of_location consistent location
  · exact location_of_isAlive

/-- Each entity is mapped to the id that was next. -/
theorem mergeWorld_mapping
    (consistent : source.store.Consistent registry)
    (takes : target.TakesCopies) (e : Entity) :
    (mergeWorld registry source target).state.mapping.lookup e.id =
      ((source.entityList.zip (target.slots.issues
        source.entityList.length)).lookup e).bind mappedTo := by
  obtain ⟨once, listed⟩ := entityList_spec consistent
  obtain ⟨-, mapping⟩ := mergeLoop_frame registry
    (show ({ target := target } : Merging).target.TakesCopies from takes)
    (fun e member => (listed e).mp member) once fun _ _ => rfl
  unfold mergeWorld
  rw [mapping]
  cases (source.entityList.zip (target.slots.issues
    source.entityList.length)).lookup e <;> rfl

/-- The copies of the first entities, if the ids they get are free. -/
theorem mergeWorld_contents
    (consistent : source.store.Consistent registry)
    (takes : target.TakesCopies) (stable : target.Stable registry)
    (free : ∀ x ∈ target.slots.issues source.entityList.length,
      x ≠ Entity.null ∧ target.isAlive x = false)
    (once : (target.slots.issues source.entityList.length).Nodup)
    {count : Nat} (fewer : count ≤ source.entityList.length) (x : Entity) :
    (Traced.forEach (mergeEntity registry source) { target := target }
        (source.entityList.take count)).state.target.contents x =
      match ((target.slots.issues count).zip
        (source.entityList.take count)).lookup x with
      | some e => source.contents e
      | none => target.contents x := by
  obtain ⟨-, listed⟩ := entityList_spec consistent
  have length : (source.entityList.take count).length = count := by
    rw [List.length_take, min_eq_left fewer]
  have firsts := EntitySlots.take_issues fewer target.slots
  have spec := mergeLoop_contents consistent
    (show ({ target := target } : Merging).target.TakesCopies from takes)
    stable
    (fun e member => (listed e).mp (List.mem_of_mem_take member))
    (by
      rw [length, ← firsts]
      exact fun x member => free x (List.mem_of_mem_take member))
    (by
      rw [length, ← firsts]
      exact once.sublist (List.take_sublist _ _))
  rw [length] at spec
  exact spec.2 x

/-- A real copy is mapped to its id. -/
theorem mappedTo_of_real {copy : Entity} (real : copy ≠ Entity.null) :
    mappedTo copy = some copy.id :=
  if_neg real

section Outcome

variable (consistent : source.store.Consistent registry)
variable (takes : target.TakesCopies)

include consistent takes

/-- Dead entities are not mapped. -/
theorem mergeWorld_unmapped (dead : source.isAlive e = false) :
    (mergeWorld registry source target).state.mapping.lookup e.id = none := by
  rw [mergeWorld_mapping consistent takes, List.lookup_zip_of_not_mem]
  · rfl
  · rw [(entityList_spec consistent).2, dead]
    exact Bool.false_ne_true

/-- The entity at a position is mapped to the id at this position. -/
theorem mergeWorld_mapped
    {i : Nat} {copy : Entity} (atEntity : source.entityList[i]? = some e)
    (atCopy : (target.slots.issues source.entityList.length)[i]? = some copy) :
    (mergeWorld registry source target).state.mapping.lookup e.id =
      mappedTo copy := by
  rw [mergeWorld_mapping consistent takes, List.lookup_zip_of_getElem?
    (entityList_spec consistent).1 atEntity atCopy]
  rfl

omit takes in
/-- A live entity has a position, and an id is handed out for it. -/
theorem exists_copy (alive : source.isAlive e = true) (target : World) :
    ∃ (i : Nat) (copy : Entity), source.entityList[i]? = some e ∧
      (target.slots.issues source.entityList.length)[i]? = some copy := by
  obtain ⟨i, atEntity⟩ := List.mem_iff_getElem?.mp
    (((entityList_spec consistent).2 e).mpr alive)
  have inside : i < (target.slots.issues source.entityList.length).length := by
    rw [EntitySlots.length_issues]
    exact (List.getElem?_eq_some_iff.mp atEntity).1
  exact ⟨i, _, atEntity, List.getElem?_eq_getElem inside⟩

omit takes in
/-- Every id that is handed out is handed out for a live entity. -/
theorem exists_original
    {i : Nat} {copy : Entity}
    (atCopy : (target.slots.issues source.entityList.length)[i]? = some copy) :
    ∃ e, source.entityList[i]? = some e ∧ source.isAlive e = true := by
  have inside := (List.getElem?_eq_some_iff.mp atCopy).1
  rw [EntitySlots.length_issues] at inside
  refine ⟨source.entityList[i], List.getElem?_eq_getElem inside, ?_⟩
  exact ((entityList_spec consistent).2 _).mp (List.getElem_mem inside)

/-- A merge that keeps its promise hands out different free ids. -/
theorem CopiesAll.issues
    (copies : CopiesAll registry source target
      (mergeWorld registry source target).state) :
    (∀ x ∈ target.slots.issues source.entityList.length,
      x ≠ Entity.null ∧ target.isAlive x = false) ∧
    (target.slots.issues source.entityList.length).Nodup := by
  have mapped : ∀ (i : Nat) (copy : Entity),
      (target.slots.issues source.entityList.length)[i]? = some copy →
      ∃ e : Entity, source.entityList[i]? = some e ∧ copy ≠ Entity.null ∧
        (mergeWorld registry source target).state.mapping.lookup e.id =
          some copy.id := by
    intro i copy atCopy
    obtain ⟨e, atEntity, alive⟩ := exists_original consistent atCopy
    have value := mergeWorld_mapped consistent takes atEntity atCopy
    have isSome := (copies.defined e).mpr alive
    have real : copy ≠ Entity.null := by
      rintro rfl
      rw [value] at isSome
      exact absurd isSome (by decide)
    exact ⟨e, atEntity, real, value.trans (mappedTo_of_real real)⟩
  constructor
  · intro x member
    obtain ⟨i, atCopy⟩ := List.mem_iff_getElem?.mp member
    obtain ⟨e, _, real, value⟩ := mapped i x atCopy
    exact ⟨real, copies.free e x.id value⟩
  · rw [List.nodup_iff_getElem?_ne_getElem?]
    intro i j less inside same
    have atCopy := List.getElem?_eq_getElem inside
    obtain ⟨e, atEntity, _, value⟩ := mapped j _ atCopy
    obtain ⟨e', atEntity', _, value'⟩ := mapped i _ (same.trans atCopy)
    obtain rfl := copies.injective e e' _ value value'
    have once := (entityList_spec consistent).1
    rw [List.nodup_iff_getElem?_ne_getElem?] at once
    exact once i j less (List.getElem?_eq_some_iff.mp atEntity).1
      (atEntity'.trans atEntity.symm)

end Outcome

/-- When an entity is copied, its own id is taken if it was taken before the
merge or a copy has got it since. -/
theorem mergeWorld_dead_iff
    (consistent : source.store.Consistent registry)
    (takes : target.TakesCopies) (stable : target.Stable registry)
    (free : ∀ x ∈ target.slots.issues source.entityList.length,
      x ≠ Entity.null ∧ target.isAlive x = false)
    (once : (target.slots.issues source.entityList.length).Nodup)
    {i : Nat} (atEntity : source.entityList[i]? = some e) :
    (Traced.forEach (mergeEntity registry source) { target := target }
        (source.entityList.take i)).state.target.isAlive e = false ↔
      e ∉ target.slots.issues i ∧ target.isAlive e = false := by
  have inside := (List.getElem?_eq_some_iff.mp atEntity).1
  rw [← contents_isSome, mergeWorld_contents consistent takes stable free once
    inside.le]
  cases found : ((target.slots.issues i).zip
      (source.entityList.take i)).lookup e with
  | none =>
      dsimp only
      rw [contents_isSome]
      refine (and_iff_right fun member => ?_).symm
      obtain ⟨j, atCopy⟩ := List.mem_iff_getElem?.mp member
      have within := (List.getElem?_eq_some_iff.mp atCopy).1
      rw [EntitySlots.length_issues] at within
      have firstOnce : (target.slots.issues i).Nodup := by
        rw [← EntitySlots.take_issues inside.le]
        exact once.sublist (List.take_sublist _ _)
      have atOriginal : (source.entityList.take i)[j]? =
          some (source.entityList.get ⟨j, within.trans inside⟩) := by
        rw [List.getElem?_take_of_lt within, List.getElem?_eq_getElem,
          List.get_eq_getElem]
      rw [List.lookup_zip_of_getElem? firstOnce atCopy atOriginal] at found
      exact absurd found (Option.some_ne_none _)
  | some original =>
      obtain ⟨j, atCopy, atOriginal⟩ := List.getElem?_of_lookup_zip found
      have alive : source.isAlive original = true :=
        ((entityList_spec consistent).2 original).mp (List.mem_of_mem_take
          (List.mem_of_getElem? atOriginal))
      dsimp only
      rw [contents_isSome, alive]
      exact iff_of_false (by simp)
        fun both => both.1 (List.mem_of_getElem? atCopy)

/-- A merge that hands out the right ids keeps its promise. -/
theorem IssuesSourceIds.copiesAll
    (consistent : source.store.Consistent registry)
    (takes : target.TakesCopies) (stable : target.Stable registry)
    (issues : source.IssuesSourceIds target) :
    CopiesAll registry source target
      (mergeWorld registry source target).state := by
  obtain ⟨free, once, keeps⟩ := issues
  have mapped : ∀ (e : Entity) id,
      (mergeWorld registry source target).state.mapping.lookup e.id = some id →
      ∃ (i : Nat) (copy : Entity), source.entityList[i]? = some e ∧
        (target.slots.issues source.entityList.length)[i]? = some copy ∧
        copy.id = id := by
    intro e id value
    cases alive : source.isAlive e with
    | false =>
        rw [mergeWorld_unmapped consistent takes alive] at value
        exact absurd value.symm (Option.some_ne_none _)
    | true =>
        obtain ⟨i, copy, atEntity, atCopy⟩ := exists_copy consistent alive target
        have real := (free copy (List.mem_of_getElem? atCopy)).1
        rw [mergeWorld_mapped consistent takes atEntity atCopy,
          mappedTo_of_real real] at value
        exact ⟨i, copy, atEntity, atCopy, Option.some.inj value⟩
  have contents := mergeWorld_contents consistent takes stable free once le_rfl
  rw [List.take_length] at contents
  refine ⟨?_, ?_, ?_, ?_, ?_, ?_⟩
  · intro e
    cases alive : source.isAlive e with
    | false =>
        rw [mergeWorld_unmapped consistent takes alive]
        simp
    | true =>
        obtain ⟨i, copy, atEntity, atCopy⟩ := exists_copy consistent alive target
        rw [mergeWorld_mapped consistent takes atEntity atCopy,
          mappedTo_of_real (free copy (List.mem_of_getElem? atCopy)).1]
        exact iff_of_true rfl rfl
  · intro e e' id value value'
    obtain ⟨i, copy, atEntity, atCopy, rfl⟩ := mapped e id value
    obtain ⟨j, copy', atEntity', atCopy', sameId⟩ := mapped e' _ value'
    obtain rfl : copy' = copy := congrArg Entity.mk sameId
    have first := List.lookup_zip_of_getElem? once atCopy atEntity
    have second := List.lookup_zip_of_getElem? once atCopy' atEntity'
    exact Option.some.inj (first.symm.trans second)
  · intro e id value
    obtain ⟨i, copy, _, atCopy, rfl⟩ := mapped e id value
    exact (free copy (List.mem_of_getElem? atCopy)).2
  · intro e id value
    obtain ⟨i, copy, atEntity, atCopy, rfl⟩ := mapped e id value
    refine (contents copy).trans ?_
    rw [List.lookup_zip_of_getElem? once atCopy atEntity]
  · intro x alive
    refine (contents x).trans ?_
    rw [List.lookup_zip_of_not_mem fun member => ?_]
    rw [(free x member).2] at alive
    exact absurd alive Bool.false_ne_true
  · intro i e atEntity dead accepted
    obtain ⟨notIssued, notAlive⟩ := (mergeWorld_dead_iff consistent takes stable
      free once atEntity).mp dead
    obtain alive | issued | refused | atCopy := keeps i e atEntity
    · exact absurd (alive.symm.trans notAlive) (by simp)
    · exact absurd issued notIssued
    · exact absurd (refused.symm.trans accepted) (by simp)
    · rw [mergeWorld_mapped consistent takes atEntity atCopy,
        mappedTo_of_real (free e (List.mem_of_getElem? atCopy)).1]

/-- A merge keeps its promise exactly if the ids that are handed out are free
and different, and for an entity whose own id is free, this id. -/
theorem copiesAll_iff
    (consistent : source.store.Consistent registry)
    (takes : target.TakesCopies) (stable : target.Stable registry) :
    CopiesAll registry source target
        (mergeWorld registry source target).state ↔
      source.IssuesSourceIds target := by
  refine ⟨fun copies => ?_,
    IssuesSourceIds.copiesAll consistent takes stable⟩
  obtain ⟨free, once⟩ := copies.issues consistent takes
  refine ⟨free, once, fun i e atEntity => ?_⟩
  by_cases unfit : target.isAlive e = true ∨ e ∈ target.slots.issues i ∨
      idRefused e.id = true
  · obtain alive | issued | refused := unfit
    · exact Or.inl alive
    · exact Or.inr (Or.inl issued)
    · exact Or.inr (Or.inr (Or.inl refused))
  · rw [not_or, not_or, Bool.not_eq_true, Bool.not_eq_true] at unfit
    obtain ⟨notAlive, notIssued, accepted⟩ := unfit
    have dead := (mergeWorld_dead_iff consistent takes stable free once
      atEntity).mpr ⟨notIssued, notAlive⟩
    have value := copies.keepsId i e atEntity dead accepted
    have inside : i < (target.slots.issues
        source.entityList.length).length := by
      rw [EntitySlots.length_issues]
      exact (List.getElem?_eq_some_iff.mp atEntity).1
    have atCopy := List.getElem?_eq_getElem inside
    have real := (free _ (List.mem_of_getElem? atCopy)).1
    rw [mergeWorld_mapped consistent takes atEntity atCopy,
      mappedTo_of_real real] at value
    have same := congrArg Entity.mk (Option.some.inj value)
    exact Or.inr (Or.inr (Or.inr (atCopy.trans (congrArg some same))))

/-- In all worlds in which no creation handed out the id of a live entity, a
merge into an idle world with an empty buffer copies everything and keeps the
free ids exactly if the allocator of the target hands out these ids. -/
theorem mergeWorld_copiesAll_iff
    (registry : ComponentRegistry) (sourceOps targetOps : List ModeOp)
    (sourceIssuesDead : Traced.Accepted Effect.IssuesDead
      (ModeOp.run registry sourceOps))
    (targetIssuesDead : Traced.Accepted Effect.IssuesDead
      (ModeOp.run registry targetOps))
    (idle : (ModeOp.run registry targetOps).state.Idle)
    (empty : (ModeOp.run registry targetOps).state.commandBuffer = []) :
    let source := (ModeOp.run registry sourceOps).state
    let target := (ModeOp.run registry targetOps).state
    CopiesAll registry source target
        (mergeWorld registry source target).state ↔
      source.IssuesSourceIds target :=
  copiesAll_iff (ModeOp.run_stable sourceIssuesDead).consistent ⟨idle, empty⟩
    (ModeOp.run_stable targetIssuesDead)

/-- A world of three entities is merged into one of two, which holds the first two
ids and hands out the third to the copy of the first. -/
theorem mergeWorld_copiesAll_overlapping :
    let source := (ModeOp.run ComponentRegistry.healthRegistry
      [.operate .createEntity, .operate .createEntity, .operate .createEntity,
        .operate (.addRaw ⟨1⟩ 1 (some [7])),
        .operate (.addRaw ⟨3⟩ 1 (some [9]))]).state
    let target := (ModeOp.run ComponentRegistry.healthRegistry
      [.operate .createEntity, .operate .createEntity,
        .operate (.addRaw ⟨1⟩ 1 (some [5]))]).state
    CopiesAll ComponentRegistry.healthRegistry source target
      (mergeWorld ComponentRegistry.healthRegistry source target).state := by
  intro source target
  have listed : source.entityList = [⟨2⟩, ⟨1⟩, ⟨3⟩] := by decide +kernel
  refine (mergeWorld_copiesAll_iff ComponentRegistry.healthRegistry
    [.operate .createEntity, .operate .createEntity, .operate .createEntity,
      .operate (.addRaw ⟨1⟩ 1 (some [7])), .operate (.addRaw ⟨3⟩ 1 (some [9]))]
    [.operate .createEntity, .operate .createEntity,
      .operate (.addRaw ⟨1⟩ 1 (some [5]))]
    (by decide +kernel) (by decide +kernel) rfl rfl).mpr
    ⟨by decide +kernel, by decide +kernel, fun i e atEntity => ?_⟩
  rw [listed] at atEntity
  match i, atEntity with
  | 0, rfl => exact .inl (by decide +kernel)
  | 1, rfl => exact .inl (by decide +kernel)
  | 2, rfl => exact .inr (.inl (by decide +kernel))

/-- The second entity of a world is copied to the first id of an empty one,
although its own id is free there. -/
theorem mergeWorld_losesId :
    let source := (ModeOp.run ComponentRegistry.healthRegistry
      [.operate .createEntity, .operate .createEntity,
        .operate (.destroyEntity ⟨1⟩)]).state
    let target := (ModeOp.run ComponentRegistry.healthRegistry []).state
    ¬CopiesAll ComponentRegistry.healthRegistry source target
      (mergeWorld ComponentRegistry.healthRegistry source target).state := by
  intro source target copies
  have keeps := copies.keepsId 0 ⟨2⟩ (by decide +kernel) (by decide +kernel)
    (by decide +kernel)
  exact absurd keeps (by decide +kernel)

end World
end VortarisECS
