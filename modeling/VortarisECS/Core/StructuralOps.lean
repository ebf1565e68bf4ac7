import VortarisECS.Core.EnabledFlags

/-!
# Structural operations and enabled flags

Which entities a structural operation moves is read off the world before it and
off the queues.  The entities it moves are enabled afterwards, the others keep
their flags.
-/

namespace VortarisECS

/-- What a command queues for an entity inside a deferred window. -/
def Command.queuedOp (registry : ComponentRegistry) (x : Entity) :
    Command → Option PendingComponentOp
  | .addComponent e t data =>
      if e = x then (registry.schemaOf t).map fun schema => {
        type := t
        add := true
        data := match World.commandData data with
          | some bytes => copyBytes schema.size bytes
          | none => [] }
      else none
  | .removeComponent e t =>
      if e = x then some { type := t, add := false } else none
  | _ => none

variable {registry : ComponentRegistry} {w v u : World} {e x : Entity}

namespace World

/-! ## Queueing -/

/-- Executing the commands inside a deferred window has queued them for the
entity, and has left the entity as it was. -/
structure QueuesFor (registry : ComponentRegistry) (x : Entity)
    (commands : List Command) (w v : World) : Prop where
  contents : v.contents x = w.contents x
  flag : v.isEnabled x = w.isEnabled x
  doomed : x ∈ v.pendingDestroy ↔
    x ∈ w.pendingDestroy ∨ Command.removeEntity x ∈ commands
  queued : (v.pendingOps.lookup x).getD [] =
    (w.pendingOps.lookup x).getD [] ++
      commands.filterMap (Command.queuedOp registry x)

/-- Nothing is queued by nothing. -/
theorem QueuesFor.refl (w : World) : QueuesFor registry x [] w w :=
  ⟨rfl, rfl, by simp, (List.append_nil _).symm⟩

/-- What is queued first and what is queued later. -/
theorem QueuesFor.trans
    {first second : List Command} (before : QueuesFor registry x first w v)
    (after : QueuesFor registry x second v u) :
    QueuesFor registry x (first ++ second) w u where
  contents := after.contents.trans before.contents
  flag := after.flag.trans before.flag
  doomed := by rw [after.doomed, before.doomed, List.mem_append, or_assoc]
  queued := by
    rw [after.queued, before.queued, List.filterMap_append, List.append_assoc]

/-- Queueing kills nobody. -/
theorem QueuesFor.alive
    {commands : List Command} (queues : QueuesFor registry x commands w v) :
    v.isAlive x = w.isAlive x := by
  rw [← contents_isSome, ← contents_isSome, queues.contents]

/-- A command that queues nothing for the entity. -/
theorem QueuesFor.skip
    {command : Command} (store : v.store = w.store)
    (control : v.control = w.control)
    (nothing : command.queuedOp registry x = none)
    (spares : command ≠ .removeEntity x) :
    QueuesFor registry x [command] w v where
  contents := congrFun (contents_congr store) x
  flag := isEnabled_of_store_eq store x
  doomed := by
    rw [show v.pendingDestroy = w.pendingDestroy from
      congrArg Control.pendingDestroy control, List.mem_singleton]
    exact (or_iff_left spares.symm).symm
  queued := by
    rw [show v.pendingOps = w.pendingOps from
      congrArg Control.pendingOps control, List.filterMap_cons, nothing]
    exact (List.append_nil _).symm

/-- An operation is queued for an entity. -/
theorem QueuesFor.deferOp
    {command : Command} {op : PendingComponentOp}
    (queuesOp : command.queuedOp registry x =
      if e = x then some op else none)
    (spares : command ≠ .removeEntity x) :
    QueuesFor registry x [command] w (w.deferOp e op) where
  contents := congrFun (contents_congr (deferOp_store w e op)) x
  flag := isEnabled_of_store_eq (deferOp_store w e op) x
  doomed := by
    have same : (w.deferOp e op).pendingDestroy = w.pendingDestroy :=
      (queueDeferredMove_queues _ e).2.1
    rw [same, List.mem_singleton]
    exact (or_iff_left spares.symm).symm
  queued := by
    rw [deferOp_lookup, List.filterMap_cons, queuesOp]
    by_cases isEntity : e = x
    · rw [if_pos isEntity, if_pos isEntity.symm]
      rfl
    · rw [if_neg isEntity, if_neg (Ne.symm isEntity)]
      rfl

/-- An addition in a window is queued. -/
theorem addRaw_queuesFor
    (deferred : w.deferMoves = true) (alive : w.isAlive x = true)
    (e : Entity) (t : ComponentTypeId) (data : List UInt8) :
    QueuesFor registry x [.addComponent e t data] w
      (w.addRaw registry e t (commandData data)).state := by
  have spares : Command.addComponent e t data ≠ .removeEntity x := by simp
  cases registered : registry.schemaOf t with
  | none =>
      rw [addRaw_unregistered _ registered]
      refine .skip rfl rfl ?_ spares
      simp [Command.queuedOp, registered]
  | some schema =>
  cases aliveEntity : w.isAlive e with
  | false =>
      rw [addRaw_dead _ aliveEntity]
      refine .skip rfl rfl (if_neg ?_) spares
      rintro rfl
      rw [alive] at aliveEntity
      cases aliveEntity
  | true =>
      rw [addRaw_deferred _ aliveEntity registered deferred]
      refine .deferOp ?_ spares
      unfold Command.queuedOp
      dsimp only
      rw [registered]
      rfl

/-- So is a removal. -/
theorem removeComponent_queuesFor
    (deferred : w.deferMoves = true) (alive : w.isAlive x = true)
    (e : Entity) (t : ComponentTypeId) :
    QueuesFor registry x [.removeComponent e t] w
      (w.removeComponent registry e t).state := by
  have spares : Command.removeComponent e t ≠ .removeEntity x := by simp
  cases aliveEntity : w.isAlive e with
  | false =>
      rw [removeComponent_dead aliveEntity]
      refine .skip rfl rfl (if_neg ?_) spares
      rintro rfl
      rw [alive] at aliveEntity
      cases aliveEntity
  | true =>
      rw [removeComponent_deferred aliveEntity deferred]
      exact .deferOp rfl spares

/-- So is a destruction. -/
theorem destroyEntityDeferred_queuesFor
    (deferred : w.deferMoves = true) (alive : w.isAlive x = true) (e : Entity) :
    QueuesFor registry x [.removeEntity e] w
      (w.destroyEntityDeferred e).state := by
  unfold destroyEntityDeferred
  rw [if_pos deferred]
  cases aliveEntity : w.isAlive e with
  | true =>
      rw [if_pos rfl]
      dsimp only [Traced.pure]
      obtain ⟨opsEq, destroyEq, -, -⟩ := queueDeferredMove_queues
        { w with pendingDestroy := w.pendingDestroy.insert e } e
      have store : (World.queueDeferredMove
          { w with pendingDestroy := w.pendingDestroy.insert e } e).store =
          w.store := by
        unfold queueDeferredMove
        split <;> rfl
      refine ⟨congrFun (contents_congr store) x,
        isEnabled_of_store_eq store x, ?_, ?_⟩
      · rw [destroyEq, List.mem_insert_iff, or_comm]
        simp
      · rw [opsEq]
        exact (List.append_nil _).symm
  | false =>
      rw [if_neg Bool.false_ne_true]
      refine .skip rfl rfl rfl ?_
      rintro same
      cases same
      rw [alive] at aliveEntity
      cases aliveEntity

/-- An id from outside becomes another entity. -/
theorem createEntityPreassigned_keeps
    (consistent : w.store.Consistent registry) (alive : w.isAlive x = true)
    (id : UInt64) :
    (w.createEntityPreassigned id).state.contents x = w.contents x ∧
      (w.createEntityPreassigned id).state.isEnabled x = w.isEnabled x := by
  unfold createEntityPreassigned
  dsimp only
  split
  next => exact ⟨rfl, rfl⟩
  next notLast =>
  split
  next => exact ⟨rfl, rfl⟩
  next =>
  split
  next => exact ⟨congrFun (contents_congr rfl) x, rfl⟩
  next notAlive =>
      have dead : w.store.entityLocations.lookup ⟨id⟩ = none :=
        Option.not_isSome_iff_eq_none.mp notAlive
      have real : (⟨id⟩ : Entity) ≠ Entity.null := fun isNull =>
        notLast (isNull ▸ null_slot)
      have other : x ≠ ⟨id⟩ := by
        rintro rfl
        obtain ⟨loc, location⟩ := location_of_isAlive alive
        rw [dead] at location
        cases location
      have entered := enterEmpty_contents
        (w := w.setSlots (w.slots.adopt ⟨id⟩)) consistent real dead
      constructor
      · refine (congrFun (contents_congr (agrees_invalidateCache _ :
          Agrees registry _ _).store_eq) x).trans ?_
        rw [entered]
        exact if_neg other
      · dsimp only
        rw [isEnabled_invalidateCache]
        exact enterEmpty_isEnabled (w := w.setSlots (w.slots.adopt ⟨id⟩))
          consistent dead other

/-- One command inside a deferred window. -/
theorem executeCommand_queuesFor
    (stable : w.Stable registry) (deferred : w.deferMoves = true)
    (alive : w.isAlive x = true) (command : Command) :
    QueuesFor registry x [command] w
      (w.executeCommand registry command).state := by
  cases command with
  | addComponent e t data => exact addRaw_queuesFor deferred alive e t data
  | removeComponent e t => exact removeComponent_queuesFor deferred alive e t
  | addEntity e =>
      dsimp only [executeCommand]
      split
      · obtain ⟨contents, flag⟩ :=
          createEntityPreassigned_keeps stable.consistent alive e.id
        have control := createEntityPreassigned_control w e.id
        refine ⟨contents, flag, ?_, ?_⟩
        · rw [show (w.createEntityPreassigned e.id).state.pendingDestroy =
            w.pendingDestroy from congrArg Control.pendingDestroy control]
          simp
        · rw [show (w.createEntityPreassigned e.id).state.pendingOps =
            w.pendingOps from congrArg Control.pendingOps control]
          exact (List.append_nil _).symm
      · exact .skip rfl rfl rfl (by simp)
  | removeEntity e => exact destroyEntityDeferred_queuesFor deferred alive e
  | custom id data =>
      dsimp only [executeCommand]
      unfold runCustomCommand
      split <;> exact .skip rfl rfl rfl (by simp)

/-- The loop over the commands of a buffer. -/
theorem executeCommands_queuesFor
    (stable : w.Stable registry) (deferred : w.deferMoves = true)
    (alive : w.isAlive x = true) (commands : List Command) :
    QueuesFor registry x commands w
      (Traced.forEach (executeCommand registry) w commands).state := by
  induction commands generalizing w with
  | nil => exact .refl w
  | cons command commands inductionHypothesis =>
      have head := executeCommand_queuesFor stable deferred alive command
      have stable' := (executeCommand_realizes (stable_inductiveOn registry)
        command).keeps (stable_inductiveOn registry) w stable
        (executeCommand_issuesDead w command)
      rw [Traced.forEach_cons, Traced.andThen_state]
      exact head.trans (inductionHypothesis stable'
        (executeCommand_depth registry deferred command).2
        (head.alive.trans alive))

variable (registry) in
/-- Commands in a window keep the list of deferred entities right. -/
theorem listed_executeCommands
    (listed : w.control.Listed) (commands : List Command) :
    (Traced.forEach (executeCommand registry) w
      commands).state.control.Listed := by
  induction commands generalizing w with
  | nil => exact listed
  | cons command commands inductionHypothesis =>
      exact inductionHypothesis (listed_executeCommand listed command)

/-- What a buffer asks an entity to become: its commands are executed, do not
destroy it and take it to another component set, after the operations that are
queued already. -/
def BufferMoves (registry : ComponentRegistry) (w : World)
    (commands : List Command) (e : Entity) : Prop :=
  commands ≠ [] ∧ w.inIteration = false ∧ e ∉ w.pendingDestroy ∧
    Command.removeEntity e ∉ commands ∧
    w.Reshapes e ((w.pendingOps.lookup e).getD [] ++
      commands.filterMap (Command.queuedOp registry e))

/-- A buffer enables the entities it moves, and no other flag changes. -/
theorem executeBuffer_reenables
    (stable : w.Stable registry) (listed : w.control.Listed)
    (commands : List Command) :
    Reenables (w.BufferMoves registry commands) w
      (w.executeBuffer registry commands).state := by
  unfold executeBuffer
  split
  next empty =>
      exact .none (fun _ moves => moves.1 (List.isEmpty_iff.mp empty))
        fun _ => rfl
  next nonempty =>
  split
  next inside =>
      refine .none (fun _ moves => ?_) fun _ => rfl
      rw [moves.2.1] at inside
      cases inside
  next outside =>
  have openedStable : w.beginSuppress.beginDeferredMoves.Stable registry :=
    ⟨stable.consistent, stable.pendingSound, stable.poolReal⟩
  have openedListed : w.beginSuppress.beginDeferredMoves.control.Listed :=
    ⟨listed.once, listed.same, listed.listed⟩
  have queues := fun x (alive : w.isAlive x = true) =>
    executeCommands_queuesFor (x := x) openedStable rfl alive commands
  have queuedListed := listed_executeCommands registry openedListed commands
  obtain ⟨-, queuedStable, deferred⟩ :=
    executeCommands_reports openedStable rfl commands
  dsimp only
  rw [Traced.mapState_state, Traced.andThen_state]
  generalize (Traced.forEach (executeCommand registry)
    w.beginSuppress.beginDeferredMoves commands).state = queued at *
  obtain ⟨moved, stayed⟩ :=
    endDeferredMoves_reenables queuedStable queuedListed
  have ended : ∀ v : World, v.endSuppress.store = v.store := fun v => by
    unfold endSuppress releaseInvalidation
    split
    · split <;> rfl
    · rfl
  have alive : ∀ x, (queued.endDeferredMoves
      registry).state.endSuppress.isAlive x =
      (queued.endDeferredMoves registry).state.isAlive x := fun x =>
    isAlive_congr (congrArg ArchetypeStore.entityLocations (ended _)) x
  -- The queues hold what the commands asked for.
  have asked : ∀ x, w.isAlive x = true →
      (queued.FlushMoves x ↔ w.BufferMoves registry commands x) := by
    intro x aliveBefore
    have queue := queues x aliveBefore
    have types : queued.getEntityComponentTypes x =
        w.getEntityComponentTypes x :=
      types_eq_of_contents stable.consistent queuedStable.consistent fun t => by
        rw [queue.contents]
        rfl
    have aliveSame : queued.isAlive x = w.isAlive x := queue.alive
    have doomed : x ∈ queued.pendingDestroy ↔ x ∈ w.pendingDestroy ∨
        Command.removeEntity x ∈ commands := queue.doomed
    have ops : (queued.pendingOps.lookup x).getD [] =
        (w.pendingOps.lookup x).getD [] ++
          commands.filterMap (Command.queuedOp registry x) := queue.queued
    unfold FlushMoves BufferMoves Reshapes
    rw [types, aliveSame, doomed, ops, not_or, and_assoc]
    exact ⟨fun moves => ⟨fun none => nonempty (List.isEmpty_iff.mpr none),
      Bool.eq_false_iff.mpr outside, moves⟩, fun moves => moves.2.2⟩
  constructor
  · intro x moves
    rw [alive, isEnabled_of_store_eq (ended _)]
    exact moved x ⟨deferred, (asked x moves.2.2.2.2.1).mpr moves⟩
  · intro x still aliveBefore survives
    have queue := queues x aliveBefore
    rw [alive] at survives
    rw [isEnabled_of_store_eq (ended _)]
    refine (stayed x (fun moves => still ((asked x aliveBefore).mp moves.2))
      (queue.alive.trans aliveBefore) survives).trans ?_
    exact queue.flag

/-- `flush_command_buffers` executes the world's own buffer. -/
theorem flushCommandBuffers_reenables
    (stable : w.Stable registry) (listed : w.control.Listed) :
    Reenables (w.BufferMoves registry w.commandBuffer) w
      (w.flushCommandBuffers registry).state := by
  unfold flushCommandBuffers
  split
  next inside =>
      refine .none (fun _ moves => ?_) fun _ => rfl
      rw [moves.2.1] at inside
      cases inside
  next =>
      obtain ⟨moved, stayed⟩ :=
        executeBuffer_reenables (w := { w with commandBuffer := [] })
          ⟨stable.consistent, stable.pendingSound, stable.poolReal⟩ listed
          w.commandBuffer
      exact ⟨moved, stayed⟩

end World

/-! ## Structural operations -/

/-- A move issues no id. -/
theorem World.moveEntity_issuesDead
    (w : World) (e : Entity) (target : Ptr) :
    ∀ effect ∈ (w.moveEntity registry e target).effects,
      effect.IssuesDead := by
  unfold moveEntity
  split
  · simp
  split
  · simp
  · simp [Effect.IssuesDead]

/-- A buffer hands out no live id. -/
theorem World.executeBuffer_issuesDead (w : World) (commands : List Command) :
    Traced.Accepted Effect.IssuesDead (w.executeBuffer registry commands) := by
  unfold executeBuffer
  split
  · exact Traced.accepted_pure _ _
  split
  · exact Traced.accepted_pure _ _
  · dsimp only
    rw [Traced.accepted_mapState, Traced.accepted_andThen]
    exact ⟨forEach_accepted (fun command _ v =>
        executeCommand_issuesDead v command) _,
      (endDeferredMoves_createsNothing _).imp fun _ notCreation =>
        notCreation.issuesDead⟩

/-- Nor does a flush. -/
theorem World.flushCommandBuffers_issuesDead (w : World) :
    Traced.Accepted Effect.IssuesDead (w.flushCommandBuffers registry) := by
  unfold flushCommandBuffers
  split
  · exact Traced.accepted_pure _ _
  · exact executeBuffer_issuesDead _ _

/-- A move opens no walk or window. -/
theorem World.moveEntity_control (w : World) (e : Entity) (target : Ptr) :
    (w.moveEntity registry e target).state.control = w.control := by
  unfold moveEntity
  split
  · rfl
  split
  · rfl
  · exact control_invalidateCache _

/-- An operation that adds, removes or moves rows.  A target archetype is named by
its place in the list of archetypes. -/
inductive StructuralOp
  | addRaw (e : Entity) (t : ComponentTypeId) (data : Option (List UInt8))
  | removeComponent (e : Entity) (t : ComponentTypeId)
  | moveEntity (e : Entity) (index : Nat)
  | destroyEntity (e : Entity)
  | destroyEntityPooled (e : Entity)
  | compact
  | endDeferredMoves
  | executeBuffer (commands : List Command)
  | flushCommandBuffers

namespace StructuralOp

/-- Perform one operation; a move names its target by its place in the list. -/
def apply (registry : ComponentRegistry) (w : World) : StructuralOp → World
  | addRaw e t data => (w.addRaw registry e t data).state
  | removeComponent e t => (w.removeComponent registry e t).state
  | moveEntity e index =>
      match w.store.archetypeList[index]? with
      | some target => (w.moveEntity registry e target).state
      | none => w
  | destroyEntity e => (w.destroyEntity e).state
  | destroyEntityPooled e => (w.destroyEntityPooled e).state
  | compact => w.compact
  | endDeferredMoves => (w.endDeferredMoves registry).state
  | executeBuffer commands => (w.executeBuffer registry commands).state
  | flushCommandBuffers => (w.flushCommandBuffers registry).state

/-- The entities that the operation moves to another archetype: those it is
asked to move, in a world that lets it. -/
def Moves (registry : ComponentRegistry) (w : World) (x : Entity) :
    StructuralOp → Prop
  | addRaw e t _ =>
      x = e ∧ w.isAlive e = true ∧ (registry.schemaOf t).isSome ∧
        w.deferMoves = false ∧ w.inIteration = false ∧ w.has e t = false
  | removeComponent e t =>
      x = e ∧ w.isAlive e = true ∧ w.deferMoves = false ∧
        w.inIteration = false ∧ w.has e t = true
  | moveEntity e index =>
      x = e ∧ w.inIteration = false ∧
        ∃ loc target, w.store.entityLocations.lookup e = some loc ∧
          w.store.archetypeList[index]? = some target ∧ loc.archetype ≠ target
  | destroyEntity _ => False
  | destroyEntityPooled _ => False
  | compact => False
  | endDeferredMoves => w.deferMoves = true ∧ w.FlushMoves x
  | executeBuffer commands => w.BufferMoves registry commands x
  | flushCommandBuffers => w.BufferMoves registry w.commandBuffer x

/-- What a structural operation does to the flags. -/
theorem apply_reenables
    (stable : w.Stable registry) (listed : w.control.Listed)
    (op : StructuralOp) :
    World.Reenables (op.Moves registry w) w (op.apply registry w) := by
  have consistent := stable.consistent
  cases op with
  | addRaw e t data => exact World.addRaw_reenables consistent data
  | removeComponent e t => exact World.removeComponent_reenables consistent
  | moveEntity e index =>
      dsimp only [apply]
      cases found : w.store.archetypeList[index]? with
      | none =>
          refine .none ?_ fun _ => rfl
          rintro x ⟨-, -, loc, target, -, isTarget, -⟩
          rw [found] at isTarget
          cases isTarget
      | some target =>
          refine (World.moveEntity_reenables (e := e) consistent
            (List.mem_of_getElem? found)).congr fun x => ?_
          unfold Moves
          simp [found]
  | destroyEntity e =>
      exact (World.destroyEntity_survivorsKeep consistent e).reenables
        fun _ => id
  | destroyEntityPooled e =>
      exact (World.destroyEntityPooled_survivorsKeep consistent e).reenables
        fun _ => id
  | compact => exact .none (fun _ => id) fun _ => rfl
  | endDeferredMoves => exact World.endDeferredMoves_reenables stable listed
  | executeBuffer commands =>
      exact World.executeBuffer_reenables stable listed commands
  | flushCommandBuffers =>
      exact World.flushCommandBuffers_reenables stable listed

/-- Only an entity that is alive can be moved. -/
theorem alive_of_moves
    (consistent : w.store.Consistent registry) {op : StructuralOp}
    (moves : op.Moves registry w x) : w.isAlive x = true := by
  cases op with
  | addRaw e t data => exact moves.1 ▸ moves.2.1
  | removeComponent e t => exact moves.1 ▸ moves.2.1
  | moveEntity e index =>
      obtain ⟨rfl, -, loc, -, location, -⟩ := moves
      exact World.isAlive_of_location consistent location
  | destroyEntity e => exact moves.elim
  | destroyEntityPooled e => exact moves.elim
  | compact => exact moves.elim
  | endDeferredMoves => exact moves.2.2.1
  | executeBuffer commands => exact moves.2.2.2.2.1
  | flushCommandBuffers => exact moves.2.2.2.2.1

/-- Every operation keeps the store consistent. -/
theorem apply_consistent
    (stable : w.Stable registry) (op : StructuralOp) :
    (op.apply registry w).store.Consistent registry := by
  have inductiveOn := World.stable_inductiveOn registry
  cases op with
  | addRaw e t data =>
      exact (stable.keeps (World.addRaw_realizes inductiveOn e t data)
        (World.addRaw_createsNothing w e t data)).consistent
  | removeComponent e t =>
      exact (stable.keeps (World.removeComponent_realizes inductiveOn e t)
        (World.removeComponent_createsNothing w e t)).consistent
  | moveEntity e index =>
      dsimp only [apply]
      split
      next target found =>
          have steps : Steps registry w (w.moveEntity registry e target).effects
              (w.moveEntity registry e target).state :=
            World.moveEntity_steps e (List.mem_of_getElem? found)
          exact (steps.keeps inductiveOn stable
            (w.moveEntity_issuesDead e target)).consistent
      next => exact stable.consistent
  | destroyEntity e =>
      exact (stable.keeps (World.destroyEntity_realizes e)
        (World.destroyEntity_createsNothing w e)).consistent
  | destroyEntityPooled e =>
      exact (stable.keeps (World.destroyEntityPooled_realizes e)
        (World.destroyEntityPooled_createsNothing w e)).consistent
  | compact => exact ArchetypeStore.compact_consistent stable.consistent
  | endDeferredMoves =>
      exact (stable.keeps (World.endDeferredMoves_realizes inductiveOn)
        (World.endDeferredMoves_createsNothing w)).consistent
  | executeBuffer commands =>
      exact ((World.executeBuffer_realizes inductiveOn commands).keeps
        inductiveOn w stable
        (World.executeBuffer_issuesDead w commands)).consistent
  | flushCommandBuffers =>
      exact ((World.flushCommandBuffers_realizes inductiveOn).keeps
        inductiveOn w stable
        (World.flushCommandBuffers_issuesDead w)).consistent

end StructuralOp
end VortarisECS
