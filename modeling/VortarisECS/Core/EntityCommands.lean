import VortarisECS.Core.DeferredExecution

/-!
# Entity commands of a flush

An `AddEntity` command acts at once, on whether its entity is alive then; a
`RemoveEntity` command dooms a live entity, which dies at the end of the flush.
Who is alive depends on the table of locations alone, so that the results hold
in every idle world, consistent or not.
-/

namespace VortarisECS

/-! ## Who is alive after each step -/

namespace ArchetypeStore

/-- A location makes an entity alive. -/
theorem setLocation_isAlive
    (s : ArchetypeStore) (e : Entity) (loc : EntityLocation) (x : Entity) :
    (s.setLocation e loc).isAlive x = (decide (x = e) || s.isAlive x) := by
  unfold isAlive setLocation
  dsimp only
  rw [AList.lookup_insert_if]
  by_cases isSelf : x = e
  · rw [if_pos isSelf, decide_eq_true isSelf, Bool.true_or]
    rfl
  · rw [if_neg isSelf, decide_eq_false isSelf, Bool.false_or]

theorem fixMoved_isAlive
    (s : ArchetypeStore) (moved : Entity) (row : Nat) (x : Entity) :
    (s.fixMoved moved row).isAlive x = s.isAlive x := by
  unfold fixMoved
  split
  · split
    · rename_i location
      rw [setLocation_isAlive]
      by_cases isMoved : x = moved
      · subst isMoved
        unfold isAlive
        rw [location, decide_eq_true rfl]
        rfl
      · rw [decide_eq_false isMoved, Bool.false_or]
    · rfl
  · rfl

/-- Of all entities, the one that is detached is gone. -/
theorem detach_alive
    (s : ArchetypeStore) (e : Entity) (loc : EntityLocation) (x : Entity) :
    (s.detach e loc).isAlive x = (decide (x ≠ e) && s.isAlive x) := by
  unfold detach
  dsimp only
  rw [fixMoved_isAlive]
  unfold isAlive
  dsimp only
  rw [AList.lookup_erase_if]
  by_cases isSelf : x = e
  · rw [if_pos isSelf, decide_eq_false (not_not.mpr isSelf), Bool.false_and]
    rfl
  · rw [if_neg isSelf, decide_eq_true isSelf, Bool.true_and]
    rfl

/-- The entity that is added is alive, besides those that were. -/
theorem addTo_alive
    (s : ArchetypeStore) (p : Ptr) (e : Entity) (tick : Nat) (x : Entity) :
    (s.addTo p e tick).isAlive x = (decide (x = e) || s.isAlive x) := by
  unfold addTo
  rw [setLocation_isAlive, modify_isAlive]

variable {registry : ComponentRegistry}

/-- Moving a live entity leaves everyone as alive as before. -/
theorem relocate_alive
    {s : ArchetypeStore} {e : Entity} (alive : s.isAlive e = true)
    (loc : EntityLocation) (target : Ptr) (tick : Nat) (x : Entity) :
    (s.relocate registry e loc target tick).1.isAlive x = s.isAlive x := by
  unfold relocate moveEntityTo
  dsimp only
  rw [setLocation_isAlive, fixMoved_isAlive, modify_isAlive, modify_isAlive,
    modify_isAlive]
  by_cases isSelf : x = e
  · rw [isSelf, alive, Bool.or_true]
  · rw [decide_eq_false isSelf, Bool.false_or]

/-- A new archetype moves nobody. -/
theorem ensureArchetype_locations
    (registry : ComponentRegistry) (s : ArchetypeStore) (ids : List ComponentTypeId) :
    (s.ensureArchetype registry ids).1.entityLocations = s.entityLocations := by
  unfold ensureArchetype
  split <;> rfl

end ArchetypeStore

namespace World

variable {registry : ComponentRegistry} {w : World}

@[simp] theorem invalidateCache_isAlive (w : World) (x : Entity) :
    w.invalidateCache.isAlive x = w.isAlive x := by
  unfold invalidateCache
  split <;> rfl

theorem releaseInvalidation_isAlive (w : World) (x : Entity) :
    w.releaseInvalidation.isAlive x = w.isAlive x := by
  unfold releaseInvalidation
  split <;> rfl

theorem endSuppress_isAlive (w : World) (x : Entity) :
    w.endSuppress.isAlive x = w.isAlive x := by
  unfold endSuppress
  split
  · exact releaseInvalidation_isAlive _ x
  · rfl

/-- A destruction outside of walks kills its entity. -/
theorem destroyEntity_alive
    (outside : w.inIteration = false) (e x : Entity) :
    (w.destroyEntity e).state.isAlive x =
      (decide (x ≠ e) && w.isAlive x) := by
  unfold destroyEntity
  cases location : w.store.entityLocations.lookup e with
  | none =>
      dsimp only [Traced.pure]
      by_cases isSelf : x = e
      · subst isSelf
        unfold isAlive ArchetypeStore.isAlive
        rw [location]
        simp
      · rw [decide_eq_true isSelf, Bool.true_and]
  | some loc =>
      dsimp only
      rw [outside, if_neg Bool.false_ne_true]
      unfold leave
      rw [invalidateCache_isAlive]
      change (decide (x ≠ Entity.null) && (w.store.detach e loc).isAlive x) = _
      rw [ArchetypeStore.detach_alive, Bool.and_left_comm]
      rfl

/-- An entity that enters is alive, unless it is null. -/
theorem enterEmpty_alive (w : World) (e x : Entity) :
    (w.enterEmpty e).isAlive x =
      (decide (x ≠ Entity.null) && (decide (x = e) || w.store.isAlive x)) :=
  congrArg (decide (x ≠ Entity.null) && ·)
    (ArchetypeStore.addTo_alive w.store _ e _ x)

/-- In the range of slots a creation makes its id live. -/
theorem createEntityPreassigned_alive
    {e : Entity} (inRange : e.slot < maxPreassignedSlot) :
    (w.createEntityPreassigned e.id).state.isAlive e = true := by
  have small : e.slot < 2 ^ 24 := inRange
  have real : e ≠ Entity.null := by
    rintro rfl
    rw [null_slot] at small
    omega
  unfold createEntityPreassigned
  dsimp only
  rw [if_neg (show ¬(e.slot = 2 ^ 32 - 1) by omega),
    if_neg (Nat.not_le.mpr inRange)]
  split
  · rename_i alive
    unfold isAlive
    rw [decide_eq_true real, Bool.true_and]
    exact alive
  · dsimp only
    rw [invalidateCache_isAlive, enterEmpty_alive, decide_eq_true real,
      decide_eq_true rfl]
    rfl

/-- Creating an id leaves all others as they are. -/
theorem createEntityPreassigned_alive_other
    {id : UInt64} {x : Entity} (other : x ≠ ⟨id⟩) :
    (w.createEntityPreassigned id).state.isAlive x = w.isAlive x := by
  unfold createEntityPreassigned
  dsimp only
  split
  · rfl
  · split
    · rfl
    · split
      · rfl
      · dsimp only
        rw [invalidateCache_isAlive, enterEmpty_alive, decide_eq_false other,
          Bool.false_or]
        rfl

variable (registry) in
/-- Writes create and destroy nobody. -/
theorem commitWrites_isAlive
    (e : Entity) (loc : EntityLocation)
    (last : AList fun _ : ComponentTypeId => Option (List UInt8))
    (w : World) (ids : List ComponentTypeId) (x : Entity) :
    (Traced.forEach (commitWrite registry e loc last) w ids).state.isAlive x =
      w.isAlive x := by
  induction ids generalizing w with
  | nil => rfl
  | cons t ids inductionHypothesis =>
      rw [Traced.forEach_cons, Traced.andThen_state, inductionHypothesis]
      unfold commitWrite
      split
      · rfl
      · exact writeComponent_isAlive _ _ _ _ _ x

/-- A move leaves everybody alive. -/
theorem moveToSet_alive
    {e : Entity} {loc : EntityLocation}
    (location : w.store.entityLocations.lookup e = some loc)
    (ids : List ComponentTypeId) (x : Entity) :
    (w.moveToSet registry e loc ids).1.isAlive x = w.isAlive x := by
  have ensured := ArchetypeStore.ensureArchetype_locations registry w.store ids
  have alive : (w.store.ensureArchetype registry ids).1.isAlive e = true := by
    rw [ArchetypeStore.isAlive, ensured, location]
    rfl
  unfold moveToSet isAlive
  congr 1
  change ((w.store.ensureArchetype registry ids).1.relocate registry e loc
    _ _).1.isAlive x = _
  rw [ArchetypeStore.relocate_alive alive]
  unfold ArchetypeStore.isAlive
  rw [ensured]

variable (registry) in
/-- Moving an entity into its final archetype kills nobody. -/
theorem commitDeferredMove_isAlive (w : World) (e x : Entity) :
    (w.commitDeferredMove registry e).state.isAlive x = w.isAlive x := by
  unfold commitDeferredMove
  split
  · rename_i location _
    dsimp only
    split
    · rw [invalidateCache_isAlive, commitWrites_isAlive]
      exact moveToSet_alive location _ x
    · exact commitWrites_isAlive registry _ _ _ _ _ x
  · rfl

variable (registry) in
/-- The moves at the end of a window leave everybody alive. -/
theorem flushMoves_isAlive (w : World) (entities : List Entity) (x : Entity) :
    (Traced.forEach (flushMove registry) w entities).state.isAlive x =
      w.isAlive x := by
  induction entities generalizing w with
  | nil => rfl
  | cons e entities inductionHypothesis =>
      rw [Traced.forEach_cons, Traced.andThen_state, inductionHypothesis]
      unfold flushMove
      split
      · rfl
      · exact commitDeferredMove_isAlive registry w e x

/-- The destroying loop kills the doomed entities it comes by. -/
theorem flushDestroys_isAlive
    {w : World} (outside : w.inIteration = false) (entities : List Entity)
    (x : Entity) :
    (Traced.forEach flushDestroy w entities).state.isAlive x =
      (!decide (x ∈ entities ∧ x ∈ w.pendingDestroy) && w.isAlive x) := by
  induction entities generalizing w with
  | nil => simp [Traced.forEach]
  | cons e entities inductionHypothesis =>
      have control := flushDestroy_control w e
      have pendingEq : (w.flushDestroy e).state.pendingDestroy =
        w.pendingDestroy := congrArg Control.pendingDestroy control
      have depthEq : (w.flushDestroy e).state.iterationDepth =
        w.iterationDepth := congrArg Control.iterationDepth control
      have stillOutside : (w.flushDestroy e).state.inIteration = false := by
        unfold inIteration at outside ⊢
        rw [depthEq]
        exact outside
      have headAlive : (w.flushDestroy e).state.isAlive x =
          (!decide (x = e ∧ e ∈ w.pendingDestroy) && w.isAlive x) := by
        unfold flushDestroy
        by_cases doomed : e ∈ w.pendingDestroy
        · rw [if_pos doomed, destroyEntity_alive outside]
          simp [doomed]
        · rw [if_neg doomed]
          simp [doomed, Traced.pure]
      rw [Traced.forEach_cons, Traced.andThen_state,
        inductionHypothesis stillOutside, headAlive, pendingEq]
      by_cases isHead : x = e
      · subst isHead
        by_cases doomed : x ∈ w.pendingDestroy <;> simp [doomed]
      · simp [isHead]

/-! ## The loop over the commands -/

/-- What a command asks for an entity, if it is an entity command naming it. -/
def entityCommand (e : Entity) : Command → Option Bool
  | .addEntity named => if named = e then some true else none
  | .removeEntity named => if named = e then some false else none
  | _ => none

/-- The last entity command naming an entity: whether it adds the entity. -/
def lastEntityCommand (e : Entity) (queue : List Command) : Option Bool :=
  (queue.filterMap (entityCommand e)).getLast?

/-- Whether a queue adds an entity. -/
def addsEntity (e : Entity) (queue : List Command) : Bool :=
  queue.any fun command => entityCommand e command = some true

/-- Whether some `RemoveEntity` command finds an entity alive, which it is from
the start or since an earlier `AddEntity` command. -/
def removedWhileAlive (e : Entity) : Bool → List Command → Bool
  | _, [] => false
  | alive, command :: queue =>
      match entityCommand e command with
      | some true => removedWhileAlive e true queue
      | some false => alive || removedWhileAlive e alive queue
      | none => removedWhileAlive e alive queue

/-- Midway through the commands of a flush: whether an entity is alive, and
whether it is going to be destroyed at the end. -/
structure Queues (e : Entity) (alive doomed : Bool) (v : World) : Prop where
  deferred : v.deferMoves = true
  aliveEq : v.isAlive e = alive
  doomedEq : decide (e ∈ v.pendingDestroy) = doomed
  doomedListed : e ∈ v.pendingDestroy → e ∈ v.deferredEntities
  same : ∀ x, x ∈ v.deferredSet ↔ x ∈ v.deferredEntities
  once : v.deferredEntities.Nodup

section Commands

variable {e x : Entity} {alive doomed : Bool} {v : World}

theorem queueDeferredMove_isAlive (v : World) (x e : Entity) :
    (v.queueDeferredMove x).isAlive e = v.isAlive e := by
  unfold queueDeferredMove
  split <;> rfl

/-- Queueing one more entity for the end of the flush. -/
theorem Queues.queueMove
    (deferred : v.deferMoves = true) (aliveEq : v.isAlive e = alive)
    (doomedEq : decide (e ∈ v.pendingDestroy) = doomed)
    (listedOrQueued : e ∈ v.pendingDestroy → e = x ∨ e ∈ v.deferredEntities)
    (same : ∀ x, x ∈ v.deferredSet ↔ x ∈ v.deferredEntities)
    (once : v.deferredEntities.Nodup) :
    Queues e alive doomed (v.queueDeferredMove x) := by
  obtain ⟨-, destroyEq, deferEq, -⟩ := queueDeferredMove_queues v x
  obtain ⟨stillOnce, stillSame, listed⟩ :=
    queueDeferredMove_listed (e := x) same once
  refine ⟨deferEq.trans deferred,
    (queueDeferredMove_isAlive v x e).trans aliveEq, ?_, ?_, stillSame,
    stillOnce⟩
  · rw [destroyEq]
    exact doomedEq
  · rw [destroyEq, listed]
    exact listedOrQueued

/-- A queued operation is no concern of the queue of entity commands. -/
theorem Queues.deferOp
    (queues : Queues e alive doomed v) (x : Entity) (op : PendingComponentOp) :
    Queues e alive doomed (v.deferOp x op) :=
  .queueMove queues.deferred queues.aliveEq queues.doomedEq
    (fun isDoomed => Or.inr (queues.doomedListed isDoomed)) queues.same
    queues.once

variable (registry) in
/-- Component commands and custom commands leave everybody's fate alone. -/
theorem Queues.executeOther
    (queues : Queues e alive doomed v) (command : Command)
    (notAdd : ∀ x, command ≠ .addEntity x)
    (notRemove : ∀ x, command ≠ .removeEntity x) :
    Queues e alive doomed (v.executeCommand registry command).state := by
  cases command with
  | addComponent x t data =>
      dsimp only [executeCommand]
      unfold addRaw
      split
      · exact queues
      · split
        · rw [if_pos queues.deferred]
          exact queues.deferOp x _
        · exact queues
  | removeComponent x t =>
      dsimp only [executeCommand]
      unfold removeComponent
      split
      · exact queues
      · rw [if_pos queues.deferred]
        exact queues.deferOp x _
  | addEntity x => exact absurd rfl (notAdd x)
  | removeEntity x => exact absurd rfl (notRemove x)
  | custom id data =>
      dsimp only [executeCommand]
      unfold runCustomCommand
      split <;> exact queues

/-- Creating an entity changes who is alive and nothing that is queued. -/
theorem Queues.create
    (queues : Queues e alive doomed v) (id : UInt64) {alive' : Bool}
    (aliveEq : (v.createEntityPreassigned id).state.isAlive e = alive') :
    Queues e alive' doomed (v.createEntityPreassigned id).state := by
  have control := createEntityPreassigned_control v id
  have deferEq := congrArg Control.deferMoves control
  have destroyEq := congrArg Control.pendingDestroy control
  have entitiesEq := congrArg Control.deferredEntities control
  have setEq := congrArg Control.deferredSet control
  dsimp only [World.control] at deferEq destroyEq entitiesEq setEq
  refine ⟨deferEq.trans queues.deferred, aliveEq, ?_, ?_, ?_, ?_⟩
  · rw [destroyEq]
    exact queues.doomedEq
  · rw [destroyEq, entitiesEq]
    exact queues.doomedListed
  · rw [setEq, entitiesEq]
    exact queues.same
  · rw [entitiesEq]
    exact queues.once

variable (registry) in
/-- An `AddEntity` command acts at once. -/
theorem Queues.executeAdd
    (queues : Queues e alive doomed v) (inRange : e.slot < maxPreassignedSlot) :
    Queues e (alive || decide (x = e)) doomed
      (v.executeCommand registry (.addEntity x)).state := by
  dsimp only [executeCommand]
  cases xAlive : v.isAlive x with
  | true =>
      rw [Bool.not_true, if_neg Bool.false_ne_true]
      have stillAlive : (alive || decide (x = e)) = alive := by
        by_cases isSelf : x = e
        · rw [← queues.aliveEq, ← isSelf, xAlive]
          rfl
        · rw [decide_eq_false isSelf, Bool.or_false]
      rw [stillAlive]
      exact queues
  | false =>
      rw [Bool.not_false, if_pos rfl]
      refine queues.create x.id ?_
      by_cases isSelf : x = e
      · subst isSelf
        rw [createEntityPreassigned_alive inRange, decide_eq_true rfl,
          Bool.or_true]
      · rw [createEntityPreassigned_alive_other (Ne.symm isSelf),
          decide_eq_false isSelf, Bool.or_false]
        exact queues.aliveEq

variable (registry) in
/-- A `RemoveEntity` command dooms the entity it finds alive. -/
theorem Queues.executeRemove
    (queues : Queues e alive doomed v) (x : Entity) :
    Queues e alive (doomed || (alive && decide (x = e)))
      (v.executeCommand registry (.removeEntity x)).state := by
  dsimp only [executeCommand]
  unfold destroyEntityDeferred
  rw [if_pos queues.deferred]
  cases xAlive : v.isAlive x with
  | true =>
      rw [if_pos rfl]
      refine .queueMove queues.deferred queues.aliveEq ?_ ?_ queues.same
        queues.once
      · have selfAlive : (alive && decide (x = e)) = decide (e = x) := by
          by_cases isSelf : x = e
          · rw [← queues.aliveEq, ← isSelf, xAlive, decide_eq_true rfl]
            rfl
          · rw [decide_eq_false isSelf, decide_eq_false (Ne.symm isSelf),
              Bool.and_false]
        rw [selfAlive, ← queues.doomedEq]
        simp [Bool.or_comm, List.mem_insert_iff]
      · rw [List.mem_insert_iff]
        rintro (isSelf | isDoomed)
        · exact Or.inl isSelf
        · exact Or.inr (queues.doomedListed isDoomed)
  | false =>
      rw [if_neg Bool.false_ne_true]
      have notRemoved : (alive && decide (x = e)) = false := by
        by_cases isSelf : x = e
        · rw [← queues.aliveEq, ← isSelf, xAlive, Bool.false_and]
        · rw [decide_eq_false isSelf, Bool.and_false]
      rw [notRemoved, Bool.or_false]
      exact queues

variable (registry) in
/-- The commands of a flush: additions revive, and a removal that finds the
entity alive dooms it. -/
theorem Queues.executeAll
    (queues : Queues e alive doomed v) (inRange : e.slot < maxPreassignedSlot)
    (queue : List Command) :
    Queues e (alive || addsEntity e queue)
      (doomed || removedWhileAlive e alive queue)
      (Traced.forEach (executeCommand registry) v queue).state := by
  induction queue generalizing alive doomed v with
  | nil => simpa [addsEntity, removedWhileAlive] using queues
  | cons command queue inductionHypothesis =>
      rw [Traced.forEach_cons, Traced.andThen_state]
      have executed :
          Queues e (alive || decide (entityCommand e command = some true))
            (doomed || (alive && decide (entityCommand e command = some false)))
            (v.executeCommand registry command).state := by
        cases command with
        | addEntity x =>
            have step := queues.executeAdd registry (x := x) inRange
            by_cases isSelf : x = e <;>
              simpa [entityCommand, isSelf] using step
        | removeEntity x =>
            have step := queues.executeRemove registry x
            by_cases isSelf : x = e <;>
              simpa [entityCommand, isSelf] using step
        | addComponent x t data =>
            simpa [entityCommand] using
              queues.executeOther registry (.addComponent x t data) nofun nofun
        | removeComponent x t =>
            simpa [entityCommand] using
              queues.executeOther registry (.removeComponent x t) nofun nofun
        | custom id data =>
            simpa [entityCommand] using
              queues.executeOther registry (.custom id data) nofun nofun
      have rest := inductionHypothesis executed
      have addsEq : (alive || addsEntity e (command :: queue)) =
          ((alive || decide (entityCommand e command = some true)) ||
            addsEntity e queue) := by
        simp [addsEntity, Bool.or_assoc]
      have removedEq : (doomed || removedWhileAlive e alive (command :: queue)) =
          ((doomed || (alive && decide (entityCommand e command = some false))) ||
            removedWhileAlive e
              (alive || decide (entityCommand e command = some true)) queue) := by
        rw [removedWhileAlive]
        cases entityCommand e command with
        | none => simp
        | some adds => cases adds <;> simp [Bool.or_assoc]
      rw [addsEq, removedEq]
      exact rest

end Commands

/-! ## Who is alive after a flush -/

/-- An entity is alive after a flush if it was alive before or is added, and no
`RemoveEntity` command finds it alive. -/
theorem executeBuffer_isAlive
    {w : World} (idle : w.Idle) {e : Entity}
    (inRange : e.slot < maxPreassignedSlot) (queue : List Command) :
    (w.executeBuffer registry queue).state.isAlive e =
      ((w.isAlive e || addsEntity e queue) &&
        !removedWhileAlive e (w.isAlive e) queue) := by
  have opened : Queues e (w.isAlive e) false
      w.beginSuppress.beginDeferredMoves := by
    refine ⟨rfl, rfl, ?_, ?_, ?_, ?_⟩
    · rw [show w.beginSuppress.beginDeferredMoves.pendingDestroy = [] from
        idle.pendingDestroy]
      rfl
    · intro isDoomed
      rw [show w.beginSuppress.beginDeferredMoves.pendingDestroy = [] from
        idle.pendingDestroy] at isDoomed
      exact absurd isDoomed List.not_mem_nil
    · intro x
      rw [show w.beginSuppress.beginDeferredMoves.deferredSet = [] from
          idle.deferredSet,
        show w.beginSuppress.beginDeferredMoves.deferredEntities = [] from
          idle.deferredEntities]
    · rw [show w.beginSuppress.beginDeferredMoves.deferredEntities = [] from
        idle.deferredEntities]
      exact List.nodup_nil
  unfold executeBuffer
  split
  · rename_i isEmpty
    rw [List.isEmpty_iff.mp isEmpty]
    simp [addsEntity, removedWhileAlive, Traced.pure]
  · rw [idle.outside, if_neg Bool.false_ne_true]
    dsimp only
    rw [Traced.mapState_state, endSuppress_isAlive, Traced.andThen_state]
    have executed := opened.executeAll registry inRange queue
    obtain ⟨depth, -⟩ := executeCommands_depth registry opened.deferred queue
    generalize (Traced.forEach (executeCommand registry)
      w.beginSuppress.beginDeferredMoves queue).state = v at executed depth ⊢
    have outside : v.inIteration = false := by
      have start := idle.outside
      unfold inIteration at start ⊢
      rw [depth]
      exact start
    unfold endDeferredMoves
    rw [executed.deferred, Bool.not_true, if_neg Bool.false_ne_true]
    dsimp only
    rw [Traced.mapState_state, releaseInvalidation_isAlive]
    change World.isAlive (Traced.state (Traced.andThen _ _)) e = _
    rw [Traced.andThen_state, flushMoves_isAlive,
      flushDestroys_isAlive (w := { v with deferMoves := false }) outside]
    have doomedEq : decide (e ∈ v.deferredEntities ∧ e ∈ v.pendingDestroy) =
        removedWhileAlive e (w.isAlive e) queue := by
      have same := executed.doomedEq
      rw [Bool.false_or] at same
      rw [← same, decide_eq_decide]
      exact ⟨And.right, fun isDoomed =>
        ⟨executed.doomedListed isDoomed, isDoomed⟩⟩
    change (!decide (e ∈ v.deferredEntities ∧ e ∈ v.pendingDestroy) &&
      v.isAlive e) = _
    rw [doomedEq, executed.aliveEq, Bool.and_comm]

section Queue

variable {e : Entity} {command : Command} {queue : List Command}

/-- The last command is the last of the tail, or else the head. -/
theorem lastEntityCommand_cons :
    lastEntityCommand e (command :: queue) =
      (lastEntityCommand e queue).or (entityCommand e command) := by
  unfold lastEntityCommand
  rw [List.filterMap_cons]
  cases entityCommand e command with
  | none => simp
  | some adds => rw [List.getLast?_cons]; cases List.getLast? _ <;> rfl

/-- An entity that no command is about is neither added nor removed. -/
theorem lastEntityCommand_none
    (noCommand : lastEntityCommand e queue = none) (alive : Bool) :
    addsEntity e queue = false ∧ removedWhileAlive e alive queue = false := by
  induction queue with
  | nil => exact ⟨rfl, rfl⟩
  | cons command queue inductionHypothesis =>
      rw [lastEntityCommand_cons, Option.or_eq_none_iff] at noCommand
      obtain ⟨adds, removed⟩ := inductionHypothesis noCommand.1
      constructor
      · rw [addsEntity, List.any_cons, noCommand.2]
        exact adds
      · rw [removedWhileAlive, noCommand.2]
        exact removed

/-- The last command adds it, so some command does. -/
theorem lastEntityCommand_add (adds : lastEntityCommand e queue = some true) :
    addsEntity e queue = true := by
  obtain ⟨command, inQueue, isAdd⟩ :=
    List.mem_filterMap.mp (List.mem_of_getLast? adds)
  exact List.any_eq_true.mpr ⟨command, inQueue, decide_eq_true isAdd⟩

/-- A last removal leaves the entity dead: it finds alive whoever was alive
before or added since. -/
theorem lastEntityCommand_remove
    (removes : lastEntityCommand e queue = some false) (alive : Bool) :
    removedWhileAlive e alive queue = (alive || addsEntity e queue) := by
  induction queue generalizing alive with
  | nil => exact absurd removes nofun
  | cons command queue inductionHypothesis =>
      rw [lastEntityCommand_cons] at removes
      have addsEq : addsEntity e (command :: queue) =
          (decide (entityCommand e command = some true) ||
            addsEntity e queue) := rfl
      rw [removedWhileAlive, addsEq]
      cases later : lastEntityCommand e queue with
      | none =>
          rw [later, Option.none_or] at removes
          obtain ⟨adds, removed⟩ := lastEntityCommand_none later alive
          rw [removes, adds]
          simp [removed]
      | some last =>
          rw [later, Option.some_or] at removes
          have rest := inductionHypothesis (later.trans removes)
          cases entityCommand e command with
          | none => simp [rest]
          | some adds => cases adds <;> simp [rest]

end Queue

/-- **The last entity command wins** exactly when, if it is an `AddEntity`, no
`RemoveEntity` command before it found the entity alive: a removal is carried
out at the end of the flush, after every addition. -/
theorem lastEntityCommandWins_iff
    {w : World} (idle : w.Idle) {e : Entity}
    (inRange : e.slot < maxPreassignedSlot) (queue : List Command) :
    (w.executeBuffer registry queue).state.isAlive e =
        (lastEntityCommand e queue).getD (w.isAlive e) ↔
      (lastEntityCommand e queue = some true →
        removedWhileAlive e (w.isAlive e) queue = false) := by
  rw [executeBuffer_isAlive idle inRange]
  cases last : lastEntityCommand e queue with
  | none =>
      obtain ⟨adds, removed⟩ := lastEntityCommand_none last (w.isAlive e)
      simp [adds, removed]
  | some adds =>
      cases adds with
      | true => simp [lastEntityCommand_add last]
      | false =>
          rw [lastEntityCommand_remove last, Bool.and_not_self]
          simp

/-- Creating an entity leaves the world idle. -/
theorem createdFirst_idle (registry : ComponentRegistry) (id : UInt64) :
    ((World.empty registry).createEntityPreassigned id).state.Idle :=
  createEntityPreassigned_control _ id

/-- A queue that removes an entity and adds it again. -/
theorem lastEntityCommandWins_iff_revived :
    let w := ((World.empty ComponentRegistry.manaRegistry).createEntityPreassigned
      1).state
    let queue : List Command := [.removeEntity ⟨1⟩, .addEntity ⟨1⟩]
    (w.executeBuffer ComponentRegistry.manaRegistry queue).state.isAlive ⟨1⟩ =
        (lastEntityCommand ⟨1⟩ queue).getD (w.isAlive ⟨1⟩) ↔
      (lastEntityCommand ⟨1⟩ queue = some true →
        removedWhileAlive ⟨1⟩ (w.isAlive ⟨1⟩) queue = false) :=
  lastEntityCommandWins_iff (createdFirst_idle _ 1) (by decide) _

/-- Entity 1 is alive; a flush removes it and adds it, and leaves it dead. -/
theorem not_lastEntityCommandWins_revived :
    let w := ((World.empty ComponentRegistry.manaRegistry).createEntityPreassigned
      1).state
    let queue : List Command := [.removeEntity ⟨1⟩, .addEntity ⟨1⟩]
    w.Idle ∧ w.isAlive ⟨1⟩ = true ∧ lastEntityCommand ⟨1⟩ queue = some true ∧
      (w.executeBuffer ComponentRegistry.manaRegistry queue).state.isAlive ⟨1⟩ =
        false :=
  ⟨createdFirst_idle _ 1, by decide +kernel, by decide, by decide +kernel⟩

end World
end VortarisECS
