import VortarisECS.Core.FlushEquivalence

/-!
# The modes of a world

Besides idle, a world may be inside an iteration, inside a window that defers
moves, or both.  In every mode the entities that are waiting for the end of the
window are those with a queued operation or a queued destruction.
-/

namespace VortarisECS

/-- The queues of a deferred window belong together. -/
structure Control.Listed (c : Control) : Prop where
  once : c.deferredEntities.Nodup
  same : ∀ e, e ∈ c.deferredSet ↔ e ∈ c.deferredEntities
  listed : ∀ e, e ∈ c.deferredEntities ↔
    e ∈ c.pendingDestroy ∨ (c.pendingOps.lookup e).isSome

/-- A use of a world in any mode. -/
inductive ModeOp
  | operate (op : WorldOp)
  | beginIteration
  | endIteration
  | beginSuppress
  | endSuppress
  | beginDeferredMoves
  | endDeferredMoves
  | destroyEntityDeferred (e : Entity)

namespace World

variable {registry : ComponentRegistry} {w : World}

/-! ## Queues -/

/-- Only the control state matters for the list. -/
theorem listed_of_control
    {w' : World} (listed : w.control.Listed) (same : w'.control = w.control) :
    w'.control.Listed := by
  rw [same]
  exact listed

/-- An entity is put on the list when something is queued for it. -/
theorem listed_queueDeferredMove
    (once : w.deferredEntities.Nodup)
    (same : ∀ x, x ∈ w.deferredSet ↔ x ∈ w.deferredEntities) {e : Entity}
    (listed : ∀ x, x = e ∨ x ∈ w.deferredEntities ↔
      x ∈ w.pendingDestroy ∨ (w.pendingOps.lookup x).isSome) :
    (w.queueDeferredMove e).control.Listed := by
  obtain ⟨opsEq, destroyEq, -, -⟩ := queueDeferredMove_queues w e
  obtain ⟨once, same, members⟩ := queueDeferredMove_listed (e := e) same once
  refine ⟨once, same, fun x => ?_⟩
  change x ∈ (w.queueDeferredMove e).deferredEntities ↔
    x ∈ (w.queueDeferredMove e).pendingDestroy ∨
      ((w.queueDeferredMove e).pendingOps.lookup x).isSome
  rw [members, destroyEq, opsEq, listed]

/-- Queueing an operation keeps the list right. -/
theorem listed_deferOp
    (listed : w.control.Listed) (e : Entity) (op : PendingComponentOp) :
    (w.deferOp e op).control.Listed := by
  refine listed_queueDeferredMove
    (w := { w with
      pendingOps := w.pendingOps.insert e
        ((w.pendingOps.lookup e).getD [] ++ [op]) })
    listed.once listed.same fun x => ?_
  dsimp only
  rw [AList.lookup_insert_if, show x ∈ w.deferredEntities ↔
    x ∈ w.pendingDestroy ∨ (w.pendingOps.lookup x).isSome from listed.listed x]
  split
  · simp [*]
  · simp [*]

/-- An addition keeps the list right, queued or not. -/
theorem listed_addRaw
    (listed : w.control.Listed) (e : Entity) (t : ComponentTypeId)
    (data : Option (List UInt8)) :
    (w.addRaw registry e t data).state.control.Listed := by
  cases deferred : w.deferMoves with
  | false => exact listed_of_control listed (addRaw_control deferred e t data)
  | true =>
      unfold addRaw
      rw [deferred]
      split
      · exact listed
      · split
        · rw [if_pos rfl]
          exact listed_deferOp listed e _
        · exact listed

theorem listed_removeComponent
    (listed : w.control.Listed) (e : Entity) (t : ComponentTypeId) :
    (w.removeComponent registry e t).state.control.Listed := by
  cases deferred : w.deferMoves with
  | false => exact listed_of_control listed (removeComponent_control deferred e t)
  | true =>
      unfold removeComponent
      rw [deferred]
      split
      · exact listed
      · rw [if_pos rfl]
        exact listed_deferOp listed e _

/-- A destruction keeps the list right, put off or not. -/
theorem listed_destroyEntityDeferred
    (listed : w.control.Listed) (e : Entity) :
    (w.destroyEntityDeferred e).state.control.Listed := by
  unfold destroyEntityDeferred
  split
  · split
    · refine listed_queueDeferredMove
        (w := { w with pendingDestroy := w.pendingDestroy.insert e })
        listed.once listed.same fun x => ?_
      dsimp only
      rw [List.mem_insert_iff, or_assoc]
      exact or_congr_right (listed.listed x)
    · exact listed
  · exact listed_of_control listed (destroyEntity_control w e)

/-- A command keeps the list right. -/
theorem listed_executeCommand
    (listed : w.control.Listed) (command : Command) :
    (w.executeCommand registry command).state.control.Listed := by
  cases command with
  | addComponent e t data => exact listed_addRaw listed e t _
  | removeComponent e t => exact listed_removeComponent listed e t
  | addEntity e =>
      dsimp only [executeCommand]
      split
      · exact listed_of_control listed (createEntityPreassigned_control w e.id)
      · exact listed
  | removeEntity e => exact listed_destroyEntityDeferred listed e
  | custom id data =>
      dsimp only [executeCommand]
      unfold runCustomCommand
      split <;> exact listed

/-- With nothing queued the list is empty. -/
theorem listed_empty (depth : Nat) (deferMoves : Bool) :
    Control.Listed { iterationDepth := depth, deferMoves := deferMoves } :=
  ⟨List.nodup_nil, fun _ => Iff.rfl, fun e => by simp⟩

/-- The end of a window empties the list. -/
theorem listed_endDeferredMoves (listed : w.control.Listed) :
    (w.endDeferredMoves registry).state.control.Listed := by
  cases deferred : w.deferMoves with
  | true =>
      rw [endDeferredMoves_control deferred]
      exact listed_empty w.iterationDepth false
  | false =>
      unfold endDeferredMoves
      rw [deferred]
      exact listed

/-- A buffer keeps the list right. -/
theorem listed_executeBuffer
    (listed : w.control.Listed) (ops : List Command) :
    (w.executeBuffer registry ops).state.control.Listed := by
  unfold executeBuffer
  split
  · exact listed
  · split
    · exact listed
    · dsimp only
      rw [Traced.mapState_state, endSuppress_control, Traced.andThen_state]
      apply listed_endDeferredMoves
      have opened : w.beginSuppress.beginDeferredMoves.control.Listed :=
        ⟨listed.once, listed.same, listed.listed⟩
      generalize w.beginSuppress.beginDeferredMoves = start at opened
      clear * - opened
      induction ops generalizing start with
      | nil => exact opened
      | cons command ops inductionHypothesis =>
          exact inductionHypothesis _ (listed_executeCommand opened command)

/-- Every operation keeps the list right. -/
theorem listed_apply
    (listed : w.control.Listed) (op : WorldOp) :
    (op.apply registry w).state.control.Listed := by
  cases op with
  | createEntity => exact listed_of_control listed (createEntity_control w)
  | createEntityPreassigned id =>
      exact listed_of_control listed (createEntityPreassigned_control w id)
  | createEntityPooled =>
      exact listed_of_control listed (createEntityPooled_control w)
  | destroyEntity e => exact listed_of_control listed (destroyEntity_control w e)
  | destroyEntityPooled e =>
      exact listed_of_control listed (destroyEntityPooled_control w e)
  | addRaw e t data => exact listed_addRaw listed e t data
  | removeComponent e t => exact listed_removeComponent listed e t
  | markChanged e t field =>
      exact listed_of_control listed (markChanged_control w e t field)
  | setField e t name value =>
      exact listed_of_control listed (setField_control w e t name value)
  | executeBuffer ops => exact listed_executeBuffer listed ops
  | clear => exact listed_of_control listed (clear_control w)
  | setEntityRange _ => exact listed
  | compact => exact listed
  | rehash _ => exact listed

/-! ## The end of a window -/

/-- What the end of the window will leave of an entity; outside of a window,
what it has. -/
def settled (registry : ComponentRegistry) (w : World) : Contents :=
  fun x =>
    if w.deferMoves then
      if x ∈ w.pendingDestroy then
        if w.inIteration then w.contents x else none
      else (w.contents x).map
        (·.executeAll registry ((w.pendingOps.lookup x).getD []))
    else w.contents x

/-- Outside of windows everything is settled. -/
theorem settled_of_immediate (immediate : w.deferMoves = false) :
    w.settled registry = w.contents := by
  funext x
  rw [settled, immediate, if_neg Bool.false_ne_true]

/-- The end of a window settles what is queued. -/
theorem endDeferredMoves_settles
    (stable : w.Stable registry) (listed : w.control.Listed) :
    (w.endDeferredMoves registry).state.contents = w.settled registry := by
  cases deferred : w.deferMoves with
  | false =>
      rw [settled_of_immediate deferred]
      unfold endDeferredMoves
      rw [deferred]
      rfl
  | true =>
      funext x
      rw [(endDeferredMoves_spec stable deferred listed.once listed.listed).2,
        settled, deferred, if_pos rfl]

end World

namespace ModeOp

variable {registry : ComponentRegistry}

/-- Perform one operation.  The depth of walks stops at zero. -/
def apply (registry : ComponentRegistry) (w : World) :
    ModeOp → Traced Effect World
  | operate op => op.apply registry w
  | beginIteration => .pure { w with iterationDepth := w.iterationDepth + 1 }
  | endIteration => .pure { w with iterationDepth := w.iterationDepth - 1 }
  | beginSuppress => .pure w.beginSuppress
  | endSuppress => .pure w.endSuppress
  | beginDeferredMoves => .pure w.beginDeferredMoves
  | endDeferredMoves => w.endDeferredMoves registry
  | destroyEntityDeferred e => w.destroyEntityDeferred e

/-- A run that enters and leaves the modes. -/
def run (registry : ComponentRegistry) (ops : List ModeOp) :
    Traced Effect World :=
  Traced.forEach (apply registry) (World.empty registry) ops

/-- Every operation takes steps of the world. -/
theorem apply_realizes (op : ModeOp) :
    Realizes registry (World.Stable registry) Effect.IssuesDead
      fun w => op.apply registry w := by
  have inductiveOn := World.stable_inductiveOn registry
  cases op with
  | operate op => exact WorldOp.apply_realizes inductiveOn op
  | beginIteration =>
      exact Realizes.ofAgrees _ fun w => ⟨rfl, rfl, rfl, rfl, rfl, rfl, id⟩
  | endIteration =>
      exact Realizes.ofAgrees _ fun w => ⟨rfl, rfl, rfl, rfl, rfl, rfl, id⟩
  | beginSuppress =>
      exact Realizes.ofAgrees _ fun w => ⟨rfl, rfl, rfl, rfl, rfl, rfl, id⟩
  | endSuppress => exact Realizes.ofAgrees _ World.agrees_endSuppress
  | beginDeferredMoves =>
      exact Realizes.ofAgrees _ fun w => ⟨rfl, rfl, rfl, rfl, rfl, rfl, id⟩
  | endDeferredMoves => exact World.endDeferredMoves_realizes inductiveOn
  | destroyEntityDeferred e => exact World.destroyEntityDeferred_realizes e

/-- Every operation keeps the list right. -/
theorem apply_listed
    {w : World} (listed : w.control.Listed) (op : ModeOp) :
    (op.apply registry w).state.control.Listed := by
  cases op with
  | operate op => exact World.listed_apply listed op
  | beginIteration => exact ⟨listed.once, listed.same, listed.listed⟩
  | endIteration => exact ⟨listed.once, listed.same, listed.listed⟩
  | beginSuppress => exact listed
  | endSuppress =>
      exact World.listed_of_control listed (World.endSuppress_control w)
  | beginDeferredMoves => exact ⟨listed.once, listed.same, listed.listed⟩
  | endDeferredMoves => exact World.listed_endDeferredMoves listed
  | destroyEntityDeferred e => exact World.listed_destroyEntityDeferred listed e

/-- The list is right after every run. -/
theorem run_listed (registry : ComponentRegistry) (ops : List ModeOp) :
    (run registry ops).state.control.Listed := by
  induction ops using List.reverseRec with
  | nil => exact World.listed_empty 0 false
  | append_singleton ops op inductionHypothesis =>
      unfold run
      rw [Traced.forEach_append_state]
      exact apply_listed inductionHypothesis op

/-- A run that hands out no live id leads to a stable world. -/
theorem run_stable
    {ops : List ModeOp}
    (issuesDead : Traced.Accepted Effect.IssuesDead (run registry ops)) :
    (run registry ops).state.Stable registry :=
  (Realizes.forEach (World.stable_inductiveOn registry)
    fun op _ => apply_realizes op).keeps (World.stable_inductiveOn registry) _
      (World.empty_stable registry) issuesDead

end ModeOp
end VortarisECS
