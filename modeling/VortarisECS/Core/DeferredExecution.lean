import VortarisECS.Core.Control
import VortarisECS.Core.DeferredMoves
import VortarisECS.Core.Runs

/-!
# Deferred and immediate execution

A command buffer queues its structural changes and flushes them: all
destructions first, then one move per entity.  It ends with the contents that
executing the commands immediately, one after the other, would have led to.
-/

namespace VortarisECS

/-- The commands whose execution a flush defers. -/
def Command.Structural : Command → Prop
  | .addComponent .. => True
  | .removeComponent .. => True
  | .removeEntity .. => True
  | _ => False

/-- What a command means. -/
def Contents.execute (registry : ComponentRegistry) (contents : Contents) :
    Command → Contents
  | .addComponent e t data =>
      if (registry.schemaOf t).isSome then
        contents.put e t (some (World.componentBytes (registry.sizeOf t)
          (World.commandData data)))
      else contents
  | .removeComponent e t => contents.put e t none
  | .removeEntity e => contents.kill e
  | _ => contents

/-- An entity's move, among the effects. -/
def Effect.isMoveOf (e : Entity) : Effect → Bool
  | .moved x => decide (x = e)
  | _ => false

namespace World

variable {registry : ComponentRegistry}

/-- Execute a command at once, by the operation it stands for. -/
def executeImmediately (registry : ComponentRegistry) (w : World) :
    Command → Traced Effect World
  | .addComponent e t data => w.addRaw registry e t (commandData data)
  | .removeComponent e t => w.removeComponent registry e t
  | .addEntity e => w.createEntityPreassigned e.id
  | .removeEntity e => w.destroyEntity e
  | .custom id data => w.runCustomCommand id data

/-! ## Immediate execution -/

/-- An operation that creates nothing keeps a world stable. -/
theorem Stable.keeps
    {op : World → Traced Effect World} {w : World} (stable : w.Stable registry)
    (realizes : Realizes registry (Stable registry) Effect.IssuesDead op)
    (createsNothing : CreatesNothing (op w)) : (op w).state.Stable registry :=
  realizes.keeps (stable_inductiveOn registry) w stable
    (createsNothing.imp fun _ notCreation => notCreation.issuesDead)

/-- A structural command executed at once keeps a stable world and does what it
says. -/
theorem executeImmediately_spec
    {w : World} (stable : w.Stable registry) (idle : w.Idle)
    {command : Command} (structural : command.Structural) :
    (w.executeImmediately registry command).state.Stable registry ∧
    (w.executeImmediately registry command).state.Idle ∧
    (w.executeImmediately registry command).state.contents =
      w.contents.execute registry command := by
  have inductiveOn := stable_inductiveOn registry
  cases command with
  | addComponent e t data =>
      exact ⟨stable.keeps (addRaw_realizes inductiveOn e t _)
          (addRaw_createsNothing w e t _),
        (addRaw_control idle.immediate e t _).trans idle,
        addRaw_contents stable.consistent idle.immediate idle.outside _⟩
  | removeComponent e t =>
      exact ⟨stable.keeps (removeComponent_realizes inductiveOn e t)
          (removeComponent_createsNothing w e t),
        (removeComponent_control idle.immediate e t).trans idle,
        removeComponent_contents stable.consistent idle.immediate
          idle.outside⟩
  | removeEntity e =>
      exact ⟨stable.keeps (destroyEntity_realizes e)
          (destroyEntity_createsNothing w e),
        (destroyEntity_control w e).trans idle,
        destroyEntity_contents stable.consistent idle.outside⟩
  | addEntity e => exact structural.elim
  | custom id data => exact structural.elim

/-- Immediate execution of a queue. -/
theorem executeImmediately_all
    {w : World} (stable : w.Stable registry) (idle : w.Idle)
    {queue : List Command} (structural : ∀ command ∈ queue, command.Structural) :
    (Traced.forEach (executeImmediately registry) w queue).state.Stable
      registry ∧
    (Traced.forEach (executeImmediately registry) w queue).state.contents =
      queue.foldl (Contents.execute registry) w.contents := by
  induction queue generalizing w with
  | nil => exact ⟨stable, rfl⟩
  | cons command queue inductionHypothesis =>
      obtain ⟨nextStable, nextIdle, nextContents⟩ := executeImmediately_spec
        stable idle (structural command List.mem_cons_self)
      rw [Traced.forEach_cons, Traced.andThen_state, List.foldl_cons,
        ← nextContents]
      exact inductionHypothesis nextStable nextIdle
        fun later member => structural later (List.mem_cons_of_mem _ member)

/-! ## Queueing -/

/-- The contents a flush of the queued operations will lead to. -/
def netContents (registry : ComponentRegistry) (w : World) : Contents :=
  fun e =>
    if e ∈ w.pendingDestroy then none
    else (w.contents e).map
      (·.executeAll registry ((w.pendingOps.lookup e).getD []))

/-- A world in a deferred window that has changed nothing but its queues since
it was `start`. -/
structure Queued (registry : ComponentRegistry) (start w : World) : Prop where
  store_eq : w.store = start.store
  deferred : w.deferMoves = true
  outside : w.inIteration = false
  stable : w.Stable registry
  once : w.deferredEntities.Nodup
  same : ∀ e, e ∈ w.deferredSet ↔ e ∈ w.deferredEntities
  listed : ∀ e, e ∈ w.deferredEntities ↔
    e ∈ w.pendingDestroy ∨ (w.pendingOps.lookup e).isSome

/-- Queueing has not changed the contents. -/
theorem Queued.contents_eq
    {start w : World} (queued : Queued registry start w) :
    w.contents = start.contents :=
  contents_congr queued.store_eq

/-- A dead entity holds nothing in the end. -/
theorem netContents_of_dead
    {w : World} {e : Entity} (dead : w.isAlive e = false) :
    netContents registry w e = none := by
  unfold netContents
  rw [contents_of_dead dead]
  exact ite_self _

section QueueMove

variable {start w : World} {e : Entity}

/-- The list of deferred entities has each once, and the set agrees with it. -/
theorem queueDeferredMove_listed
    (same : ∀ x, x ∈ w.deferredSet ↔ x ∈ w.deferredEntities)
    (once : w.deferredEntities.Nodup) :
    (w.queueDeferredMove e).deferredEntities.Nodup ∧
    (∀ x, x ∈ (w.queueDeferredMove e).deferredSet ↔
      x ∈ (w.queueDeferredMove e).deferredEntities) ∧
    ∀ x, x ∈ (w.queueDeferredMove e).deferredEntities ↔
      x = e ∨ x ∈ w.deferredEntities := by
  unfold queueDeferredMove
  by_cases member : e ∈ w.deferredSet
  · rw [if_pos member]
    refine ⟨once, same, fun x => ⟨Or.inr, ?_⟩⟩
    rintro (rfl | listed)
    · exact (same x).mp member
    · exact listed
  · rw [if_neg member]
    have fresh : e ∉ w.deferredEntities := fun listed =>
      member ((same e).mpr listed)
    refine ⟨?_, ?_, ?_⟩
    · rw [List.nodup_append]
      refine ⟨once, List.nodup_singleton e, ?_⟩
      intro x listed y isNew isSame
      rw [List.mem_singleton] at isNew
      rw [isSame, isNew] at listed
      exact fresh listed
    · intro x
      simp [same x, or_comm]
    · intro x
      simp [or_comm]

theorem queueDeferredMove_queues (w : World) (e : Entity) :
    (w.queueDeferredMove e).pendingOps = w.pendingOps ∧
    (w.queueDeferredMove e).pendingDestroy = w.pendingDestroy ∧
    (w.queueDeferredMove e).deferMoves = w.deferMoves ∧
    (w.queueDeferredMove e).iterationDepth = w.iterationDepth := by
  unfold queueDeferredMove
  split <;> exact ⟨rfl, rfl, rfl, rfl⟩

/-- The queued operations after one more. -/
theorem deferOp_lookup (w : World) (x e : Entity) (op : PendingComponentOp) :
    ((w.deferOp x op).pendingOps.lookup e).getD [] =
      (w.pendingOps.lookup e).getD [] ++ if e = x then [op] else [] := by
  unfold deferOp
  rw [(queueDeferredMove_queues _ _).1, AList.lookup_insert_if]
  split
  · rename_i isEntity
    rw [isEntity]
    rfl
  · exact (List.append_nil _).symm

/-- Queueing an operation of a live entity executes it in the net contents. -/
theorem deferOp_queued
    (queued : Queued registry start w) (op : PendingComponentOp)
    (sound : op.Sound registry) :
    Queued registry start (w.deferOp e op) ∧
    netContents registry (w.deferOp e op) =
      (netContents registry w).adjust e (·.execute registry op) := by
  obtain ⟨opsEq, destroyEq, deferEq, depthEq⟩ := queueDeferredMove_queues
    { w with
      pendingOps := w.pendingOps.insert e
        ((w.pendingOps.lookup e).getD [] ++ [op]) } e
  obtain ⟨once, same, listed⟩ := queueDeferredMove_listed
    (w := { w with
      pendingOps := w.pendingOps.insert e
        ((w.pendingOps.lookup e).getD [] ++ [op]) }) (e := e)
    queued.same queued.once
  have agrees := agrees_deferOp w e sound
  have lookupEq : ∀ x, (w.deferOp e op).pendingOps.lookup x =
      if x = e then some ((w.pendingOps.lookup e).getD [] ++ [op])
      else w.pendingOps.lookup x := by
    intro x
    rw [deferOp, opsEq, AList.lookup_insert_if]
  have deferred := queued.deferred
  have outside := queued.outside
  constructor
  · refine ⟨agrees.store_eq.trans queued.store_eq, deferEq.trans deferred, ?_,
      queued.stable.keeps (Realizes.ofAgrees (·.deferOp e op)
        fun v => agrees_deferOp v e sound) (Traced.accepted_pure _ _),
      once, same, ?_⟩
    · unfold inIteration at outside ⊢
      rw [deferOp, depthEq]
      exact outside
    · intro x
      rw [deferOp, listed, destroyEq, ← deferOp, lookupEq, queued.listed x]
      by_cases isSelf : x = e
      · rw [if_pos isSelf]
        exact ⟨fun _ => Or.inr rfl, fun _ => Or.inl isSelf⟩
      · rw [if_neg isSelf]
        exact or_iff_right isSelf
  · have contentsEq : (w.deferOp e op).contents = w.contents :=
      contents_congr agrees.store_eq
    have destroySame : (w.deferOp e op).pendingDestroy = w.pendingDestroy := by
      rw [deferOp, destroyEq]
    refine (Contents.adjust_eq_iff ?_).mpr ?_
    · intro x other
      unfold netContents
      rw [lookupEq, if_neg other, contentsEq, destroySame]
    · unfold netContents
      rw [lookupEq, if_pos rfl, contentsEq, destroySame]
      by_cases doomed : e ∈ w.pendingDestroy
      · rw [if_pos doomed, if_pos doomed]
        rfl
      · rw [if_neg doomed, if_neg doomed, Option.map_map, Option.getD_some]
        congr 1
        funext components
        exact Components.executeAll_append components _ op

/-- Queueing a destruction kills the entity in the net contents. -/
theorem destroyEntityDeferred_queued
    (queued : Queued registry start w) (e : Entity) :
    Queued registry start (w.destroyEntityDeferred e).state ∧
    netContents registry (w.destroyEntityDeferred e).state =
      (netContents registry w).kill e := by
  unfold destroyEntityDeferred
  rw [if_pos queued.deferred]
  by_cases alive : w.isAlive e = true
  · rw [if_pos alive]
    dsimp only [Traced.pure]
    obtain ⟨opsEq, destroyEq, deferEq, depthEq⟩ := queueDeferredMove_queues
      { w with pendingDestroy := w.pendingDestroy.insert e } e
    obtain ⟨once, same, listed⟩ := queueDeferredMove_listed
      (w := { w with pendingDestroy := w.pendingDestroy.insert e }) (e := e)
      queued.same queued.once
    have queuedAgrees : ∀ v : World, Agrees registry v
        (World.queueDeferredMove
          { v with pendingDestroy := v.pendingDestroy.insert e } e) := fun v =>
      have doomed : Agrees registry v
          { v with pendingDestroy := v.pendingDestroy.insert e } :=
        ⟨rfl, rfl, rfl, rfl, rfl, rfl, id⟩
      doomed.trans (agrees_queueDeferredMove _ e)
    have outside := queued.outside
    constructor
    · refine ⟨(queuedAgrees w).store_eq.trans queued.store_eq,
        deferEq.trans queued.deferred, ?_,
        queued.stable.keeps (Realizes.ofAgrees _ queuedAgrees)
          (Traced.accepted_pure _ _), once, same, ?_⟩
      · unfold inIteration at outside ⊢
        rw [depthEq]
        exact outside
      · intro x
        rw [listed, destroyEq, opsEq]
        dsimp only
        rw [queued.listed x, List.mem_insert_iff, or_assoc]
    · have contentsEq := contents_congr (queuedAgrees w).store_eq
      funext x
      unfold netContents
      rw [destroyEq, opsEq, contentsEq]
      simp only [List.mem_insert_iff]
      by_cases isSelf : x = e
      · rw [isSelf, if_pos (Or.inl rfl), Contents.kill_self]
      · rw [Contents.kill_of_ne _ isSelf]
        simp only [isSelf, false_or]
  · rw [if_neg alive]
    refine ⟨queued, (Contents.kill_of_dead ?_).symm⟩
    exact netContents_of_dead (Bool.not_eq_true _ ▸ alive)

end QueueMove

/-- Queued data writes the bytes the data itself would write. -/
theorem componentBytes_queued (size : Nat) (data : Option (List UInt8)) :
    let queued := match data with
      | some bytes => copyBytes size bytes
      | none => []
    componentBytes size (if queued.isEmpty then none else some queued) =
      componentBytes size data := by
  cases data with
  | none => rfl
  | some bytes =>
      dsimp only
      by_cases sizeless : size = 0
      · subst sizeless
        have noBytes : copyBytes 0 bytes = [] :=
          List.length_eq_zero_iff.mp (length_copyBytes 0 bytes)
        rw [if_pos (by rw [noBytes]; rfl), componentBytes, componentBytes,
          noBytes]
        rfl
      · have nonempty : ¬(copyBytes size bytes).isEmpty = true := by
          rw [List.isEmpty_iff_length_eq_zero, length_copyBytes]
          exact sizeless
        rw [if_neg nonempty, componentBytes, componentBytes,
          copyBytes_of_length (length_copyBytes _ _)]

/-- What an addition queues in a window. -/
theorem addRaw_queues
    {w : World} {e : Entity} {t : ComponentTypeId} {schema : ComponentSchema}
    (data : Option (List UInt8)) (alive : w.isAlive e = true)
    (registered : registry.schemaOf t = some schema)
    (deferred : w.deferMoves = true) :
    ∃ op : PendingComponentOp, op.Sound registry ∧
      (∀ components : Components, components.execute registry op =
        components.put t (some (componentBytes schema.size data))) ∧
      w.addRaw registry e t data = .pure (w.deferOp e op) := by
  have sizeEq := ComponentRegistry.sizeOf_of_schemaOf registered
  refine ⟨_, ?_, ?_, addRaw_deferred data alive registered deferred⟩
  · refine fun _ => ⟨by rw [registered]; rfl, ?_⟩
    cases data with
    | none => exact Or.inl rfl
    | some bytes => exact Or.inr ((length_copyBytes _ _).trans sizeEq.symm)
  · intro components
    unfold Components.execute
    dsimp only
    rw [if_pos rfl, sizeEq]
    exact congrArg (fun bytes => components.put t (some bytes))
      (componentBytes_queued schema.size data)

/-- Queueing a structural command executes it in the net contents. -/
theorem executeCommand_queued
    {start w : World} (queued : Queued registry start w) {command : Command}
    (structural : command.Structural) :
    Queued registry start (w.executeCommand registry command).state ∧
    netContents registry (w.executeCommand registry command).state =
      (netContents registry w).execute registry command ∧
    (w.executeCommand registry command).effects = [] := by
  cases command with
  | addComponent e t data =>
      dsimp only [executeCommand, Contents.execute]
      cases registered : registry.schemaOf t with
      | none =>
          rw [addRaw_unregistered _ registered]
          exact ⟨queued, rfl, rfl⟩
      | some schema =>
      rw [if_pos (show (some schema).isSome = true from rfl)]
      cases alive : w.isAlive e with
      | false =>
          rw [addRaw_dead _ alive, Contents.put,
            Contents.adjust_of_dead (netContents_of_dead alive)]
          exact ⟨queued, rfl, rfl⟩
      | true =>
      obtain ⟨op, sound, executes, queues⟩ := addRaw_queues (commandData data)
        alive registered queued.deferred
      rw [queues]
      obtain ⟨next, net⟩ := deferOp_queued queued (e := e) op sound
      refine ⟨next, net.trans ?_, rfl⟩
      apply Contents.adjust_congr
      intro components _
      rw [executes, ComponentRegistry.sizeOf_of_schemaOf registered]
  | removeComponent e t =>
      dsimp only [executeCommand, Contents.execute]
      cases alive : w.isAlive e with
      | false =>
          rw [removeComponent_dead alive, Contents.put,
            Contents.adjust_of_dead (netContents_of_dead alive)]
          exact ⟨queued, rfl, rfl⟩
      | true =>
          rw [removeComponent_deferred alive queued.deferred]
          obtain ⟨next, net⟩ := deferOp_queued queued (e := e)
            { type := t, add := false }
            (fun isAdd => absurd isAdd (by simp))
          exact ⟨next, net, rfl⟩
  | removeEntity e =>
      obtain ⟨next, net⟩ := destroyEntityDeferred_queued queued e
      refine ⟨next, net, ?_⟩
      dsimp only [executeCommand]
      unfold destroyEntityDeferred
      rw [if_pos queued.deferred]
      split <;> rfl
  | addEntity e => exact structural.elim
  | custom id data => exact structural.elim

/-- Every structural command can be queued. -/
theorem executeCommands_queued
    {start w : World} (queued : Queued registry start w) {queue : List Command}
    (structural : ∀ command ∈ queue, command.Structural) :
    Queued registry start
      (Traced.forEach (executeCommand registry) w queue).state ∧
    netContents registry
        (Traced.forEach (executeCommand registry) w queue).state =
      queue.foldl (Contents.execute registry) (netContents registry w) ∧
    (Traced.forEach (executeCommand registry) w queue).effects = [] := by
  induction queue generalizing w with
  | nil => exact ⟨queued, rfl, rfl⟩
  | cons command queue inductionHypothesis =>
      obtain ⟨nextQueued, nextNet, noEffects⟩ := executeCommand_queued queued
        (structural command List.mem_cons_self)
      obtain ⟨lastQueued, lastNet, laterEffects⟩ := inductionHypothesis
        nextQueued
        fun later member => structural later (List.mem_cons_of_mem _ member)
      rw [Traced.forEach_cons, Traced.andThen_state, Traced.andThen_effects,
        noEffects, laterEffects, List.foldl_cons, ← nextNet]
      exact ⟨lastQueued, lastNet, rfl⟩

end World
end VortarisECS
