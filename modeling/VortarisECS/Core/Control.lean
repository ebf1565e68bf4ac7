import VortarisECS.Core.WorldCells

/-!
# What steers a flush

Whether an iteration is active, whether structural changes are deferred, and
what is queued for the flush.  Operations that execute at once leave all of it
alone.
-/

namespace VortarisECS

/-- The fields that decide between executing, queueing and refusing. -/
structure Control where
  iterationDepth : Nat := 0
  deferMoves : Bool := false
  deferredEntities : List Entity := []
  deferredSet : List Entity := []
  pendingOps : AList fun _ : Entity => List PendingComponentOp := ∅
  pendingDestroy : List Entity := []

namespace World

/-- The control state of a world. -/
def control (w : World) : Control where
  iterationDepth := w.iterationDepth
  deferMoves := w.deferMoves
  deferredEntities := w.deferredEntities
  deferredSet := w.deferredSet
  pendingOps := w.pendingOps
  pendingDestroy := w.pendingDestroy

/-- No iteration, nothing deferred, nothing queued. -/
def Idle (w : World) : Prop := w.control = {}

variable {registry : ComponentRegistry} {w : World}

/-- An idle world is in no window of deferred moves. -/
theorem Idle.immediate (idle : w.Idle) : w.deferMoves = false :=
  congrArg Control.deferMoves idle

/-- An idle world is in no walk. -/
theorem Idle.outside (idle : w.Idle) : w.inIteration = false := by
  have depth : w.iterationDepth = 0 := congrArg Control.iterationDepth idle
  rw [inIteration, depth]
  rfl

/-- An idle world has nothing queued. -/
theorem Idle.pendingOps (idle : w.Idle) : w.pendingOps = ∅ :=
  congrArg Control.pendingOps idle

theorem Idle.pendingDestroy (idle : w.Idle) : w.pendingDestroy = [] :=
  congrArg Control.pendingDestroy idle

theorem Idle.deferredEntities (idle : w.Idle) : w.deferredEntities = [] :=
  congrArg Control.deferredEntities idle

theorem Idle.deferredSet (idle : w.Idle) : w.deferredSet = [] :=
  congrArg Control.deferredSet idle

/-! ## Parts of operations -/

@[simp] theorem control_invalidateCache (w : World) :
    w.invalidateCache.control = w.control := by
  unfold invalidateCache
  split <;> rfl

@[simp] theorem control_logChange
    (w : World) (e : Entity) (t : ComponentTypeId) (tick : Nat) :
    (w.logChange e t tick).control = w.control := by
  unfold logChange
  dsimp only
  split <;> rfl

@[simp] theorem control_stampWrite
    (w : World) (e : Entity) (loc : EntityLocation) (t : ComponentTypeId) :
    (w.stampWrite e loc t).control = w.control := by
  obtain ⟨marked, rfl, same | logged⟩ := stampWrite_eq w e loc t
  · rw [same]
    rfl
  · rw [logged, control_logChange]
    rfl

@[simp] theorem control_writeComponent
    (w : World) (e : Entity) (loc : EntityLocation) (t : ComponentTypeId)
    (bytes : List UInt8) :
    (w.writeComponent e loc t bytes).control = w.control :=
  control_stampWrite _ e loc t

@[simp] theorem control_markRow
    (w : World) (e : Entity) (loc : EntityLocation) (t : ComponentTypeId) :
    (w.markRow e loc t).control = w.control := by
  unfold markRow
  dsimp only
  rw [control_logChange]
  rfl

/-- A move is no concern of the control state. -/
@[simp] theorem control_moveToSet
    (w : World) (e : Entity) (loc : EntityLocation)
    (ids : List ComponentTypeId) :
    (w.moveToSet registry e loc ids).1.control = w.control := rfl

/-! ## Operations -/

/-- A creation is no concern of the control state. -/
theorem createEntity_control (w : World) :
    w.createEntity.1.state.control = w.control := by
  unfold createEntity
  dsimp only
  split
  · rfl
  · exact control_invalidateCache _

theorem createEntityPreassigned_control (w : World) (id : UInt64) :
    (w.createEntityPreassigned id).state.control = w.control := by
  unfold createEntityPreassigned
  dsimp only
  split
  · rfl
  · split
    · rfl
    · split
      · rfl
      · exact control_invalidateCache _

theorem createEntityPooled_control (w : World) :
    w.createEntityPooled.1.state.control = w.control := by
  unfold createEntityPooled
  split
  · exact control_invalidateCache _
  · exact createEntity_control w

/-- A destruction is no concern of the control state. -/
theorem destroyEntity_control (w : World) (e : Entity) :
    (w.destroyEntity e).state.control = w.control := by
  unfold destroyEntity
  split
  · rfl
  · split
    · rfl
    · exact control_invalidateCache _

theorem destroyEntityPooled_control (w : World) (e : Entity) :
    (w.destroyEntityPooled e).state.control = w.control := by
  unfold destroyEntityPooled
  split
  · rfl
  · split
    · rfl
    · exact control_invalidateCache _

/-- An addition outside of windows queues nothing. -/
theorem addRaw_control
    (immediate : w.deferMoves = false) (e : Entity) (t : ComponentTypeId)
    (data : Option (List UInt8)) :
    (w.addRaw registry e t data).state.control = w.control := by
  unfold addRaw
  rw [immediate]
  split
  · rfl
  · split
    · rw [if_neg Bool.false_ne_true]
      dsimp only
      split
      · exact control_writeComponent _ _ _ _ _
      · split
        · rfl
        · exact (control_invalidateCache _).trans
            (control_writeComponent _ _ _ _ _)
    · rfl

/-- A removal outside of windows queues nothing. -/
theorem removeComponent_control
    (immediate : w.deferMoves = false) (e : Entity) (t : ComponentTypeId) :
    (w.removeComponent registry e t).state.control = w.control := by
  unfold removeComponent
  rw [immediate]
  split
  · rfl
  · rw [if_neg Bool.false_ne_true]
    split
    · rfl
    · dsimp only
      split
      · rfl
      · split
        · rfl
        · exact control_invalidateCache _

theorem markChanged_control
    (w : World) (e : Entity) (t : ComponentTypeId) (field : String) :
    (w.markChanged e t field).state.control = w.control := by
  unfold markChanged
  split
  · rfl
  · split
    · rfl
    · split
      · rfl
      · exact control_markRow _ _ _ _

theorem writeRaw_control
    (w : World) (e : Entity) (t : ComponentTypeId) (bytes : List UInt8) :
    (w.writeRaw e t bytes).control = w.control := by
  unfold writeRaw
  split
  · rfl
  · split <;> rfl

theorem setField_control
    (w : World) (e : Entity) (t : ComponentTypeId) (name : String)
    (value : List UInt8) :
    (w.setField registry e t name value).state.control = w.control := by
  unfold setField
  split
  · exact (markChanged_control _ _ _ _).trans (writeRaw_control _ _ _ _)
  · rfl

/-- A clear leaves the windows and walks as they are. -/
theorem clear_control (w : World) : w.clear.state.control = w.control := by
  have entities : ∀ (es : List Entity) (v : World),
      (es.foldl clearEntity v).control = v.control := by
    intro es
    induction es with
    | nil => exact fun v => rfl
    | cons e es inductionHypothesis =>
        intro v
        rw [List.foldl_cons, inductionHypothesis]
        unfold clearEntity
        split <;> rfl
  unfold clear
  split
  · rfl
  · exact (control_invalidateCache _).trans (entities _ w)

/-! ## The flush -/

/-- A loop over operations that leave the control alone. -/
theorem forEach_control
    {step : World → α → Traced Effect World}
    (each : ∀ w item, (step w item).state.control = w.control)
    (w : World) (items : List α) :
    (Traced.forEach step w items).state.control = w.control := by
  induction items generalizing w with
  | nil => rfl
  | cons item items inductionHypothesis =>
      rw [Traced.forEach_cons, Traced.andThen_state, inductionHypothesis, each]

variable (registry) in
theorem commitWrite_control
    (e : Entity) (loc : EntityLocation)
    (last : AList fun _ : ComponentTypeId => Option (List UInt8))
    (w : World) (t : ComponentTypeId) :
    (commitWrite registry e loc last w t).state.control = w.control := by
  unfold commitWrite
  split
  · rfl
  · exact control_writeComponent _ _ _ _ _

/-- A commit queues nothing. -/
theorem commitDeferredMove_control (w : World) (e : Entity) :
    (w.commitDeferredMove registry e).state.control = w.control := by
  have writes := fun loc last =>
    forEach_control (commitWrite_control registry e loc last)
  unfold commitDeferredMove
  split
  · dsimp only
    split
    · exact (control_invalidateCache _).trans (writes _ _ _ _)
    · exact writes _ _ _ _
  · rfl

theorem flushDestroy_control (w : World) (e : Entity) :
    (w.flushDestroy e).state.control = w.control := by
  unfold flushDestroy
  split
  · exact destroyEntity_control w e
  · rfl

variable (registry) in
theorem flushMove_control (w : World) (e : Entity) :
    (w.flushMove registry e).state.control = w.control := by
  unfold flushMove
  split
  · rfl
  · exact commitDeferredMove_control w e

theorem releaseInvalidation_control (w : World) :
    w.releaseInvalidation.control = w.control := by
  unfold releaseInvalidation
  split <;> rfl

theorem endSuppress_control (w : World) : w.endSuppress.control = w.control := by
  unfold endSuppress
  split
  · exact releaseInvalidation_control _
  · rfl

/-- A flush leaves nothing deferred and nothing queued. -/
theorem endDeferredMoves_control (deferred : w.deferMoves = true) :
    (w.endDeferredMoves registry).state.control =
      { iterationDepth := w.iterationDepth } := by
  have destroyed := forEach_control flushDestroy_control
    { w with deferMoves := false } w.deferredEntities
  have moved := forEach_control (flushMove_control registry)
    (Traced.forEach flushDestroy { w with deferMoves := false }
      w.deferredEntities).state w.deferredEntities
  have depth := congrArg Control.iterationDepth (moved.trans destroyed)
  have closed := congrArg Control.deferMoves (moved.trans destroyed)
  unfold endDeferredMoves
  rw [deferred, if_neg (by simp)]
  dsimp only
  rw [Traced.mapState_state, releaseInvalidation_control, Traced.andThen_state]
  unfold clearPending control
  dsimp only [control] at depth closed ⊢
  rw [depth, closed]

/-- A destruction that is put off opens no walk or window. -/
theorem destroyEntityDeferred_depth (w : World) (e : Entity) :
    (w.destroyEntityDeferred e).state.iterationDepth = w.iterationDepth ∧
      (w.destroyEntityDeferred e).state.deferMoves = w.deferMoves := by
  unfold destroyEntityDeferred
  split
  · split
    · unfold queueDeferredMove
      dsimp only [Traced.pure]
      split <;> exact ⟨rfl, rfl⟩
    · exact ⟨rfl, rfl⟩
  · have same := destroyEntity_control w e
    exact ⟨congrArg Control.iterationDepth same,
      congrArg Control.deferMoves same⟩

/-- Queueing an operation opens no walk or window. -/
theorem deferOp_depth (w : World) (e : Entity) (op : PendingComponentOp) :
    (w.deferOp e op).iterationDepth = w.iterationDepth ∧
      (w.deferOp e op).deferMoves = w.deferMoves := by
  unfold deferOp queueDeferredMove
  split <;> exact ⟨rfl, rfl⟩

variable (registry) in
/-- Inside a deferred window a command neither opens an iteration nor closes the
window. -/
theorem executeCommand_depth
    (deferred : w.deferMoves = true) (command : Command) :
    (w.executeCommand registry command).state.iterationDepth =
        w.iterationDepth ∧
      (w.executeCommand registry command).state.deferMoves = true := by
  rw [← deferred]
  cases command with
  | addComponent e t data =>
      dsimp only [executeCommand]
      unfold addRaw
      rw [deferred]
      split
      · exact ⟨rfl, deferred⟩
      · split
        · rw [if_pos rfl]
          exact ⟨(deferOp_depth _ _ _).1, (deferOp_depth _ _ _).2.trans deferred⟩
        · exact ⟨rfl, deferred⟩
  | removeComponent e t =>
      dsimp only [executeCommand]
      unfold removeComponent
      rw [deferred]
      split
      · exact ⟨rfl, deferred⟩
      · rw [if_pos rfl]
        exact ⟨(deferOp_depth _ _ _).1, (deferOp_depth _ _ _).2.trans deferred⟩
  | addEntity e =>
      dsimp only [executeCommand]
      split
      · have same := createEntityPreassigned_control w e.id
        exact ⟨congrArg Control.iterationDepth same,
          congrArg Control.deferMoves same⟩
      · exact ⟨rfl, rfl⟩
  | removeEntity e => exact destroyEntityDeferred_depth w e
  | custom id data =>
      dsimp only [executeCommand]
      unfold runCustomCommand
      split <;> exact ⟨rfl, rfl⟩

variable (registry) in
/-- Commands stay in the window they are executed in. -/
theorem executeCommands_depth
    (deferred : w.deferMoves = true) (ops : List Command) :
    (Traced.forEach (executeCommand registry) w ops).state.iterationDepth =
        w.iterationDepth ∧
      (Traced.forEach (executeCommand registry) w ops).state.deferMoves =
        true := by
  induction ops generalizing w with
  | nil => exact ⟨rfl, deferred⟩
  | cons command ops inductionHypothesis =>
      obtain ⟨depth, stillDeferred⟩ :=
        executeCommand_depth registry deferred command
      rw [Traced.forEach_cons, Traced.andThen_state, ← depth]
      exact inductionHypothesis stillDeferred

/-- A buffer executed in an idle world leaves it idle. -/
theorem executeBuffer_idle (idle : w.Idle) (ops : List Command) :
    (w.executeBuffer registry ops).state.Idle := by
  unfold executeBuffer
  split
  · exact idle
  · split
    · exact idle
    · obtain ⟨depth, deferred⟩ := executeCommands_depth registry
        (w := w.beginSuppress.beginDeferredMoves) rfl ops
      dsimp only
      rw [Traced.mapState_state, Idle, endSuppress_control, Traced.andThen_state,
        endDeferredMoves_control deferred, depth]
      have outside : w.iterationDepth = 0 :=
        congrArg Control.iterationDepth idle
      change ({ iterationDepth := w.iterationDepth } : Control) = {}
      rw [outside]

end World
end VortarisECS
