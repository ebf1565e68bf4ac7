import VortarisECS.Core.NetEvents
import VortarisECS.Core.WorldModes
import VortarisECS.Library.TickLog

/-!
# The change log

The world logs writes to tracked columns at the tick of its clock.  All an
operation does with the clock and the log is one step after the other of a log
with a clock, up to each of its dispatches and to its end.
-/

namespace VortarisECS

namespace World

/-- The clock and the log of a world. -/
def tickLog (w : World) : TickLog ChangeLogEntry where
  clock := w.changeTick
  entries := w.changeLog
  generation := w.changeLogGeneration

/-- `change_log_lower_bound`. -/
def changeLogLowerBound (w : World) (tick : Nat) : Nat :=
  bisect (fun i => (w.changeLog[i]?).any fun entry => decide (entry.tick ≤ tick))
    0 w.changeLog.length

/-- `advance_change_tick`. -/
def advanceChangeTick (w : World) : World := w.bumpTick

/-- `reset`: drop what is queued, tracked and logged. -/
def reset (w : World) : World :=
  { w with
    commandBuffer := []
    changedBaselines := ∅
    pendingOps := ∅
    pendingDestroy := []
    deferredEntities := []
    deferredSet := []
    customCommands := []
    changeLog := []
    changeLogGeneration := w.changeLogGeneration + 1
    slots := { w.slots with poolSlots := [] }
    suppressDepth := 0
    iterationDepth := 0
    pendingCacheInvalidation := false
    deferMoves := false }

/-- The log of one world becomes that of the other step by step, with at most
`ticks` ticks of the clock, and `drops` drops of the whole log. -/
def LogSteps (ticks drops : Nat) (w w' : World) : Prop :=
  ∃ ticked ≤ ticks, ∃ removals,
    TickLog.Steps tickLimit changeLogSoftCap ChangeLogEntry.tick w.tickLog
      ticked drops removals w'.tickLog

variable {w w' w'' : World} {ticks drops ticks' drops' : Nat}

/-- Nothing happened to the log. -/
theorem LogSteps.of_eq (same : w'.tickLog = w.tickLog) :
    LogSteps ticks 0 w w' := by
  refine ⟨0, Nat.zero_le _, 0, ?_⟩
  rw [same]
  exact .refl

/-- Steps after steps. -/
theorem LogSteps.trans
    (first : LogSteps ticks drops w w') (second : LogSteps ticks' drops' w' w'') :
    LogSteps (ticks + ticks') (drops + drops') w w'' := by
  obtain ⟨ticked, within, removals, steps⟩ := first
  obtain ⟨ticked', within', removals', steps'⟩ := second
  exact ⟨ticked + ticked', Nat.add_le_add within within', removals + removals',
    steps.trans steps'⟩

/-- More ticks may be allowed for. -/
theorem LogSteps.mono
    (steps : LogSteps ticks drops w w') (more : ticks ≤ ticks') :
    LogSteps ticks' drops w w' := by
  obtain ⟨ticked, within, rest⟩ := steps
  exact ⟨ticked, within.trans more, rest⟩

/-- Nothing is logged before the steps. -/
theorem LogSteps.after
    (steps : LogSteps ticks drops w' w'') (same : w'.tickLog = w.tickLog) :
    LogSteps ticks drops w w'' := by
  unfold LogSteps at steps ⊢
  rwa [← same]

/-- Nothing is logged behind the steps. -/
theorem LogSteps.andQuiet
    (steps : LogSteps ticks drops w w') (same : w''.tickLog = w'.tickLog) :
    LogSteps ticks drops w w'' := by
  unfold LogSteps at steps ⊢
  rwa [same]

/-! ## Parts of operations -/

@[simp] theorem tickLog_invalidateCache (w : World) :
    w.invalidateCache.tickLog = w.tickLog := by
  unfold invalidateCache
  split <;> rfl

@[simp] theorem tickLog_queueDeferredMove (w : World) (e : Entity) :
    (w.queueDeferredMove e).tickLog = w.tickLog := by
  unfold queueDeferredMove
  split <;> rfl

@[simp] theorem tickLog_releaseInvalidation (w : World) :
    w.releaseInvalidation.tickLog = w.tickLog := by
  unfold releaseInvalidation
  split <;> rfl

@[simp] theorem tickLog_endSuppress (w : World) :
    w.endSuppress.tickLog = w.tickLog := by
  unfold endSuppress
  split
  · exact tickLog_releaseInvalidation _
  · rfl

theorem tickLog_moveToSet
    (registry : ComponentRegistry) (w : World) (e : Entity) (loc : EntityLocation)
    (ids : List ComponentTypeId) :
    (w.moveToSet registry e loc ids).1.tickLog = w.tickLog := by
  unfold moveToSet
  rfl

theorem tickLog_writeRaw
    (w : World) (e : Entity) (t : ComponentTypeId) (bytes : List UInt8) :
    (w.writeRaw e t bytes).tickLog = w.tickLog := by
  unfold writeRaw
  split
  · rfl
  · split <;> rfl

/-- The clock of the log is the clock of the world. -/
theorem tickLog_bumpTick (w : World) :
    w.bumpTick.tickLog = w.tickLog.advance tickLimit := rfl

theorem tickLog_logChange
    (w : World) (e : Entity) (t : ComponentTypeId) (tick : Nat) :
    (w.logChange e t tick).tickLog =
      w.tickLog.append changeLogSoftCap ⟨e, t, tick⟩ := by
  unfold logChange TickLog.append
  dsimp only [tickLog]
  split <;> rfl

/-- A bump of the clock is one tick. -/
theorem logSteps_bumpTick (w : World) : LogSteps 1 0 w w.bumpTick :=
  ⟨1, le_rfl, 0, TickLog.Steps.refl.advance⟩

/-- A write that is logged is logged at the tick it advances the clock to. -/
theorem logSteps_logChange
    {marked : World} (advanced : marked.tickLog = w.bumpTick.tickLog)
    (e : Entity) (t : ComponentTypeId) :
    LogSteps 1 0 w (marked.logChange e t marked.changeTick) := by
  have stamped : marked.changeTick = (w.tickLog.advance tickLimit).clock :=
    congrArg TickLog.clock advanced
  unfold LogSteps
  rw [tickLog_logChange, advanced, tickLog_bumpTick]
  by_cases fits : w.tickLog.entries.length < changeLogSoftCap
  · exact ⟨1, le_rfl, 0, TickLog.Steps.refl.write stamped fits⟩
  · exact ⟨1, le_rfl, 1, TickLog.Steps.refl.compact stamped (Nat.not_lt.mp fits)⟩

/-- A stamped write is one tick. -/
theorem logSteps_stampWrite
    (w : World) (e : Entity) (loc : EntityLocation) (t : ComponentTypeId) :
    LogSteps 1 0 w (w.stampWrite e loc t) := by
  obtain ⟨marked, rfl, same | logged⟩ := stampWrite_eq w e loc t
  · rw [same]
    exact logSteps_bumpTick w
  · rw [logged]
    refine logSteps_logChange ?_ e t
    rfl

theorem logSteps_writeComponent
    (w : World) (e : Entity) (loc : EntityLocation) (t : ComponentTypeId)
    (bytes : List UInt8) : LogSteps 1 0 w (w.writeComponent e loc t bytes) :=
  logSteps_stampWrite (w.modifyColumn loc t _) e loc t

/-- Marking a row logs it at the tick it advances the clock to. -/
theorem tickLog_markRow
    (w : World) (e : Entity) (loc : EntityLocation) (t : ComponentTypeId) :
    (w.markRow e loc t).tickLog = (w.tickLog.advance tickLimit).append
      changeLogSoftCap ⟨e, t, (w.tickLog.advance tickLimit).clock⟩ :=
  tickLog_logChange _ e t _

theorem logSteps_markRow
    (w : World) (e : Entity) (loc : EntityLocation) (t : ComponentTypeId) :
    LogSteps 1 0 w (w.markRow e loc t) := by
  refine logSteps_logChange ?_ e t
  rfl

end World

/-! ## Operations -/

/-- The world an observer is called in. -/
def Effect.seen? : Effect → Option World
  | .dispatched _ _ _ _ seen => some seen
  | _ => none

/-- A write of a component, which ticks the clock. -/
def Effect.isWrite : Effect → Bool
  | .wrote _ _ => true
  | _ => false

/-- The writes an operation makes. -/
def writesOf (done : Traced Effect World) : Nat :=
  done.effects.countP Effect.isWrite

open World

/-- The log gets by steps to each dispatch of an operation and to its end.  Every
tick is one of a write. -/
structure Logs (w : World) (done : Traced Effect World) (drops : Nat := 0) :
    Prop where
  state : LogSteps (writesOf done) drops w done.state
  seen : ∀ effect ∈ done.effects, ∀ seen, effect.seen? = some seen →
    LogSteps (writesOf done) drops w seen

namespace Logs

variable {w : World} {done : Traced Effect World}

theorem pure (same : w'.tickLog = w.tickLog) : Logs w (.pure w') where
  state := .of_eq same
  seen _ member := absurd member List.not_mem_nil

/-- What is done later goes on from the log that is left. -/
theorem andThen {next : World → Traced Effect World}
    (first : Logs w done) (second : Logs done.state (next done.state)) :
    Logs w (done.andThen next) := by
  have writes : writesOf (done.andThen next) =
      writesOf done + writesOf (next done.state) := List.countP_append
  constructor
  · rw [writes]
    exact first.state.trans second.state
  · intro effect member seen sees
    rw [writes]
    obtain before | after := List.mem_append.mp member
    · exact (first.seen effect before seen sees).mono (Nat.le_add_right _ _)
    · exact first.state.trans (second.seen effect after seen sees)

/-- A change behind the step that leaves the log alone. -/
theorem mapState (change : World → World)
    (logs : Logs w done)
    (quiet : (change done.state).tickLog = done.state.tickLog) :
    Logs w (done.mapState change) where
  state := logs.state.andQuiet quiet
  seen := logs.seen

/-- Nothing is logged before the operation. -/
theorem after (logs : Logs w' done) (same : w'.tickLog = w.tickLog) :
    Logs w done where
  state := logs.state.after same
  seen effect member seen sees := (logs.seen effect member seen sees).after same

/-- Every item takes steps of its own. -/
theorem forEach {step : World → α → Traced Effect World}
    (steps : ∀ w item, Logs w (step w item)) (w : World) (items : List α) :
    Logs w (Traced.forEach step w items) := by
  induction items generalizing w with
  | nil => exact .pure rfl
  | cons item items inductionHypothesis =>
      exact (steps w item).andThen (inductionHypothesis _)

/-- Nothing is written, and observers are called in worlds with the same log. -/
theorem quiet
    (state : done.state.tickLog = w.tickLog)
    (seen : ∀ effect ∈ done.effects, ∀ seen, effect.seen? = some seen →
      seen.tickLog = w.tickLog) : Logs w done where
  state := .of_eq state
  seen effect member seen' sees := .of_eq (seen effect member seen' sees)

/-- Every observer is called in the same world. -/
theorem ofSeen
    {seen : World} {drops : Nat} (steps : LogSteps (writesOf done) drops w seen)
    (state : done.state.tickLog = seen.tickLog)
    (sees : ∀ effect ∈ done.effects, ∀ at', effect.seen? = some at' →
      at' = seen) : Logs w done drops where
  state := steps.andQuiet state
  seen effect member at' saw := by
    rw [sees effect member at' saw]
    exact steps

end Logs

namespace World

variable (registry : ComponentRegistry) (w : World)

/-- Creation writes nothing. -/
theorem createEntity_logs : Logs w (discardHandle w.createEntity) := by
  unfold discardHandle createEntity
  dsimp only
  split
  · exact .pure rfl
  · exact .ofSeen (.of_eq rfl) (tickLog_invalidateCache _) (by simp [Effect.seen?])

theorem createEntityPreassigned_logs (id : UInt64) :
    Logs w (w.createEntityPreassigned id) := by
  unfold createEntityPreassigned
  dsimp only
  split
  · exact .pure rfl
  · split
    · exact .pure rfl
    · split
      · exact .pure rfl
      · exact .ofSeen (.of_eq rfl) (tickLog_invalidateCache _)
          (by simp [Effect.seen?])

theorem createEntityPooled_logs : Logs w (discardHandle w.createEntityPooled) := by
  unfold discardHandle createEntityPooled
  split
  · exact .ofSeen (.of_eq rfl) (tickLog_invalidateCache _) (by simp [Effect.seen?])
  · exact w.createEntity_logs

/-- Nothing is logged when an entity leaves. -/
theorem leave_logs (e : Entity) (loc : EntityLocation) (slots : EntitySlots) :
    Logs w (w.leave e loc slots) := by
  have steps : LogSteps (writesOf (w.leave e loc slots)) 0 w
      ((w.setStore (w.store.detach e loc)).setSlots slots) := .of_eq rfl
  refine .ofSeen steps (tickLog_invalidateCache _) ?_
  intro effect member at' saw
  obtain ⟨t, -, rfl⟩ := List.mem_map.mp member
  exact (Option.some.inj saw).symm

theorem destroyEntity_logs (e : Entity) : Logs w (w.destroyEntity e) := by
  unfold destroyEntity
  split
  · exact .pure rfl
  · split
    · exact .pure rfl
    · exact w.leave_logs e _ _

theorem destroyEntityPooled_logs (e : Entity) :
    Logs w (w.destroyEntityPooled e) := by
  unfold destroyEntityPooled
  split
  · exact .pure rfl
  · split
    · exact .pure rfl
    · exact w.leave_logs e _ _

/-- One write at most is logged for an addition. -/
theorem addRaw_logs (e : Entity) (t : ComponentTypeId)
    (data : Option (List UInt8)) : Logs w (w.addRaw registry e t data) := by
  cases alive : w.isAlive e with
  | false =>
      rw [addRaw_dead data alive]
      exact .pure rfl
  | true =>
  cases registered : registry.schemaOf t with
  | none =>
      rw [addRaw_unregistered data registered]
      exact .pure rfl
  | some schema =>
  obtain ⟨loc, location⟩ := location_of_isAlive alive
  cases deferred : w.deferMoves with
  | true =>
      rw [addRaw_deferred data alive registered deferred]
      exact .pure (tickLog_queueDeferredMove _ e)
  | false =>
  by_cases present : t ∈ (w.store.deref loc.archetype).componentIds
  · rw [addRaw_overwrites data alive registered location deferred present]
    have written := w.logSteps_writeComponent e loc t
      (componentBytes schema.size data)
    exact .ofSeen written rfl (by simp [Effect.seen?])
  cases iterating : w.inIteration with
  | true =>
      rw [addRaw_iterating data location deferred present iterating]
      exact .pure rfl
  | false =>
      rw [addRaw_moves data alive registered location deferred present
        iterating]
      have moved := tickLog_moveToSet registry w e loc
        (sortIds ((w.store.deref loc.archetype).componentIds ++ [t]))
      generalize w.moveToSet registry e loc _ = host at moved ⊢
      have written := (host.1.logSteps_writeComponent e host.2 t
        (componentBytes schema.size data)).after moved
      exact .ofSeen written (tickLog_invalidateCache _) (by simp [Effect.seen?])

/-- The move that a removal takes is not logged. -/
theorem removeComponent_logs (e : Entity) (t : ComponentTypeId) :
    Logs w (w.removeComponent registry e t) := by
  unfold removeComponent
  split
  · exact .pure rfl
  · split
    · exact .pure (tickLog_queueDeferredMove _ e)
    · split
      · exact .pure rfl
      · rename_i loc location
        dsimp only
        split
        · exact .pure rfl
        · split
          · exact .pure rfl
          · have moved := tickLog_moveToSet registry w e loc
              ((w.store.deref loc.archetype).componentIds.erase t)
            generalize w.moveToSet registry e loc _ = host at moved ⊢
            exact .ofSeen (.of_eq moved) (tickLog_invalidateCache _)
              (by simp [Effect.seen?])

theorem markChanged_logs (e : Entity) (t : ComponentTypeId) (field : String) :
    Logs w (w.markChanged e t field) := by
  unfold markChanged
  split
  · exact .pure rfl
  · split
    · exact .pure rfl
    · rename_i loc location
      split
      · exact .pure rfl
      · exact .ofSeen (w.logSteps_markRow e loc t) rfl (by simp [Effect.seen?])

/-- A field that is set is one write. -/
theorem setField_logs (e : Entity) (t : ComponentTypeId) (name : String)
    (value : List UInt8) : Logs w (w.setField registry e t name value) := by
  unfold setField
  split
  · rename_i fd raw _ _
    have marked := (w.writeRaw e t (overlay raw fd.offset
      (value.take fd.storageSize))).markChanged_logs e t name
    exact marked.after (w.tickLog_writeRaw e t
      (overlay raw fd.offset (value.take fd.storageSize)))
  · exact .pure rfl

theorem moveEntity_logs (e : Entity) (target : Ptr) :
    Logs w (w.moveEntity registry e target) := by
  unfold moveEntity
  split
  · exact .pure rfl
  · split
    · exact .pure rfl
    · exact .ofSeen (.of_eq rfl) (tickLog_invalidateCache _)
        (by simp [Effect.seen?])

/-! ## Flushes -/

/-- A queued write is logged when it is carried out. -/
theorem commitWrite_logs (e : Entity) (loc : EntityLocation)
    (last : AList fun _ : ComponentTypeId => Option (List UInt8))
    (t : ComponentTypeId) : Logs w (commitWrite registry e loc last w t) := by
  unfold commitWrite
  split
  · exact .pure rfl
  · exact .ofSeen (w.logSteps_writeComponent e loc t _) rfl
      (by simp [Effect.seen?])

/-- A commit calls its observers when all is done. -/
theorem seen_of_commitEvents
    {e : Entity} {original finalIds : List ComponentTypeId}
    {last : AList fun _ : ComponentTypeId => Option (List UInt8)}
    {seen at' : World} {effect : Effect}
    (member : effect ∈ commitEvents e original finalIds last seen)
    (sees : effect.seen? = some at') : at' = seen := by
  obtain inEvents | inEvents := List.mem_append.mp member
  · obtain ⟨t, -, event⟩ := List.mem_filterMap.mp inEvents
    split at event
    · obtain rfl := Option.some.inj event
      exact (Option.some.inj sees).symm
    · split at event
      · obtain rfl := Option.some.inj event
        exact (Option.some.inj sees).symm
      · cases event
  · obtain ⟨t, -, event⟩ := List.mem_filterMap.mp inEvents
    split at event
    · obtain rfl := Option.some.inj event
      exact (Option.some.inj sees).symm
    · cases event

/-- The events of a commit are dispatched when its writes are done. -/
theorem Logs.commit
    {start : World} {written : Traced Effect World} {after : World}
    (silent : List Effect) (same : start.tickLog = w.tickLog)
    (logs : Logs start written)
    (quiet : after.tickLog = written.state.tickLog)
    (sees : ∀ effect ∈ silent, effect.seen? = none) (e : Entity)
    (original finalIds : List ComponentTypeId)
    (last : AList fun _ : ComponentTypeId => Option (List UInt8)) :
    Logs w ⟨after, silent ++ written.effects ++
      commitEvents e original finalIds last written.state⟩ := by
  have more : writesOf written ≤ writesOf ⟨after, silent ++
      written.effects ++ commitEvents e original finalIds last
        written.state⟩ := by
    refine List.Sublist.countP_le ?_
    exact (List.sublist_append_right _ _).trans (List.sublist_append_left _ _)
  have through := (logs.state.after same).mono more
  refine ⟨through.andQuiet quiet, fun effect member at' saw => ?_⟩
  obtain earlier | announced := List.mem_append.mp member
  · obtain isSilent | wrote := List.mem_append.mp earlier
    · rw [sees effect isSilent] at saw
      cases saw
    · exact ((logs.seen effect wrote at' saw).after same).mono more
  · rw [seen_of_commitEvents announced saw]
    exact through

/-- A commit logs the writes it carries out. -/
theorem commitDeferredMove_logs (e : Entity) :
    Logs w (w.commitDeferredMove registry e) := by
  unfold commitDeferredMove
  split
  · rename_i loc ops location queued
    dsimp only
    generalize (w.store.deref loc.archetype).componentIds = original
    generalize sortIds (finalSet original ops) = finalIds
    split
    · have moved := tickLog_moveToSet registry w e loc finalIds
      generalize w.moveToSet registry e loc finalIds = host at moved ⊢
      have written := Logs.forEach (fun w t => commitWrite_logs
        registry w e host.2 (lastAddData ops) t) host.1 finalIds
      exact Logs.commit w [.moved e] moved written
        (tickLog_invalidateCache _) (by simp [Effect.seen?]) e original finalIds
        (lastAddData ops)
    · have written := Logs.forEach (fun w t => commitWrite_logs
        registry w e loc (lastAddData ops) t) w finalIds
      exact Logs.commit w [] rfl written rfl (by simp) e original
        finalIds (lastAddData ops)
  · exact .pure rfl

theorem flushDestroy_logs (e : Entity) : Logs w (w.flushDestroy e) := by
  unfold flushDestroy
  split
  · exact w.destroyEntity_logs e
  · exact .pure rfl

theorem flushMove_logs (e : Entity) : Logs w (flushMove registry w e) := by
  unfold flushMove
  split
  · exact .pure rfl
  · exact w.commitDeferredMove_logs registry e

/-- The end of a window logs the writes of all entities. -/
theorem endDeferredMoves_logs : Logs w (w.endDeferredMoves registry) := by
  unfold endDeferredMoves
  split
  · exact .pure rfl
  · have destroyed := Logs.forEach flushDestroy_logs { w with deferMoves := false }
      w.deferredEntities
    have moved : Logs _ (Traced.andThen _ fun v =>
        Traced.forEach (flushMove registry) v w.deferredEntities) :=
      destroyed.andThen (Logs.forEach (flushMove_logs registry) _
        w.deferredEntities)
    have closed := moved.mapState
      (fun w => w.clearPending.releaseInvalidation)
      (tickLog_releaseInvalidation _)
    exact closed.after rfl

theorem destroyEntityDeferred_logs (e : Entity) :
    Logs w (w.destroyEntityDeferred e) := by
  unfold destroyEntityDeferred
  split
  · split
    · exact .pure (tickLog_queueDeferredMove _ e)
    · exact .pure rfl
  · exact w.destroyEntity_logs e

theorem executeCommand_logs (command : Command) :
    Logs w (w.executeCommand registry command) := by
  cases command with
  | addComponent e t data => exact w.addRaw_logs registry e t _
  | removeComponent e t => exact w.removeComponent_logs registry e t
  | addEntity e =>
      dsimp only [executeCommand]
      split
      · exact w.createEntityPreassigned_logs e.id
      · exact .pure rfl
  | removeEntity e => exact w.destroyEntityDeferred_logs e
  | custom id data =>
      dsimp only [executeCommand]
      unfold runCustomCommand
      split
      · exact .quiet rfl (by simp [Effect.seen?])
      · exact .pure rfl

/-- The log after a buffer has the writes of its commands. -/
theorem executeBuffer_logs (ops : List Command) :
    Logs w (w.executeBuffer registry ops) := by
  unfold executeBuffer
  split
  · exact .pure rfl
  · split
    · exact .pure rfl
    · have executed := Logs.forEach (executeCommand_logs registry)
        w.beginSuppress.beginDeferredMoves ops
      have flushed := executed.andThen (endDeferredMoves_logs registry _)
      have closed := flushed.mapState endSuppress
        (tickLog_endSuppress _)
      exact closed.after rfl

theorem flushCommandBuffers_logs : Logs w (w.flushCommandBuffers registry) := by
  unfold flushCommandBuffers
  split
  · exact .pure rfl
  · have executed := executeBuffer_logs registry
      { w with commandBuffer := [] } w.commandBuffer
    exact executed.after rfl

/-! ## Lifecycle -/

theorem clearEntity_tickLog (e : Entity) :
    (w.clearEntity e).tickLog = w.tickLog := by
  unfold clearEntity
  split <;> rfl

/-- How often `clear` drops the log: not at all inside an iteration. -/
def clearDrops (w : World) : Nat := if w.inIteration then 0 else 1

/-- A clear drops the log once, if it is not refused. -/
theorem clear_logs : Logs w w.clear w.clearDrops := by
  unfold clear clearDrops
  split
  · exact .pure rfl
  · dsimp only
    have emptied : ∀ (keys : List Entity) (w : World),
        (keys.foldl clearEntity w).tickLog = w.tickLog := by
      intro keys
      induction keys with
      | nil => exact fun w => rfl
      | cons e keys inductionHypothesis =>
          intro w
          rw [List.foldl_cons, inductionHypothesis, clearEntity_tickLog]
    have cleared := (tickLog_invalidateCache _).trans
      (emptied w.store.entityLocations.keys w)
    generalize (w.store.entityLocations.keys.foldl clearEntity
      w).invalidateCache = without at cleared ⊢
    have dropped : LogSteps 0 1 without { without with
        changeLog := []
        changeLogGeneration := without.changeLogGeneration + 1 } :=
      ⟨0, le_rfl, 1, TickLog.Steps.refl.dropAll⟩
    exact .ofSeen ((dropped.after cleared).mono (Nat.zero_le _)) rfl
      (by simp [Effect.seen?])

/-- So does a reset. -/
theorem logSteps_reset : LogSteps 0 1 w w.reset :=
  ⟨0, le_rfl, 1, TickLog.Steps.refl.dropAll⟩

end World

/-- How often an operation drops the whole log. -/
def ModeOp.drops (w : World) : ModeOp → Nat
  | .operate .clear => w.clearDrops
  | _ => 0

/-- The log of a world evolves along every operation. -/
theorem ModeOp.apply_logs (registry : ComponentRegistry) (w : World)
    (op : ModeOp) : Logs w (op.apply registry w) (op.drops w) := by
  cases op with
  | operate op =>
      cases op with
      | createEntity => exact w.createEntity_logs
      | createEntityPreassigned id => exact w.createEntityPreassigned_logs id
      | createEntityPooled => exact w.createEntityPooled_logs
      | destroyEntity e => exact w.destroyEntity_logs e
      | destroyEntityPooled e => exact w.destroyEntityPooled_logs e
      | setEntityRange baseIndex => exact .pure rfl
      | addRaw e t data => exact w.addRaw_logs registry e t data
      | removeComponent e t => exact w.removeComponent_logs registry e t
      | markChanged e t field => exact w.markChanged_logs e t field
      | setField e t name value => exact w.setField_logs registry e t name value
      | executeBuffer ops => exact w.executeBuffer_logs registry ops
      | compact => exact .pure rfl
      | clear => exact w.clear_logs
      | rehash order => exact .pure rfl
  | beginIteration => exact .pure rfl
  | endIteration => exact .pure rfl
  | beginSuppress => exact .pure rfl
  | endSuppress => exact .pure (World.tickLog_endSuppress w)
  | beginDeferredMoves => exact .pure rfl
  | endDeferredMoves => exact w.endDeferredMoves_logs registry
  | destroyEntityDeferred e => exact w.destroyEntityDeferred_logs e

end VortarisECS
