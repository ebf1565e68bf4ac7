import VortarisECS.Core.DeferredExecution

/-!
# A flush equals immediate execution

The two loops of a flush bring the contents to the net contents of the queue,
and no entity is moved more than once.
-/

namespace VortarisECS
namespace World

variable {registry : ComponentRegistry}

/-! ## The two loops -/

/-- A destruction at the end of a window keeps the world stable. -/
theorem flushDestroy_stable
    {w : World} (stable : w.Stable registry) (e : Entity) :
    (w.flushDestroy e).state.Stable registry :=
  stable.keeps (flushDestroy_realizes e) (flushDestroy_createsNothing w e)

/-- So does a move. -/
theorem flushMove_stable
    {w : World} (stable : w.Stable registry) (e : Entity) :
    (w.flushMove registry e).state.Stable registry :=
  stable.keeps (flushMove_realizes (stable_inductiveOn registry) e)
    (flushMove_createsNothing w e)

/-- Those that are pending are killed. -/
theorem flushDestroy_contents
    {w : World} (stable : w.Stable registry) (outside : w.inIteration = false)
    (e : Entity) :
    (w.flushDestroy e).state.contents =
      if e ∈ w.pendingDestroy then w.contents.kill e else w.contents := by
  unfold flushDestroy
  split
  · exact destroyEntity_contents stable.consistent outside
  · rfl

/-- The others get their operations executed. -/
theorem flushMove_contents
    {w : World} (stable : w.Stable registry) (e : Entity) :
    (w.flushMove registry e).state.contents =
      if e ∈ w.pendingDestroy then w.contents
      else w.contents.adjust e
        (·.executeAll registry ((w.pendingOps.lookup e).getD [])) := by
  unfold flushMove
  split
  · rfl
  · exact commitDeferredMove_contents stable.consistent stable.pendingSound e

theorem inIteration_congr
    {w w' : World} (same : w'.control = w.control) :
    w'.inIteration = w.inIteration := by
  unfold inIteration
  rw [show w'.iterationDepth = w.iterationDepth from
    congrArg Control.iterationDepth same]

/-- The destroying loop kills the doomed entities among those it visits. -/
theorem destroyLoop_spec
    {w : World} (stable : w.Stable registry) (outside : w.inIteration = false)
    (entities : List Entity) :
    (Traced.forEach flushDestroy w entities).state.Stable registry ∧
    ∀ x, (Traced.forEach flushDestroy w entities).state.contents x =
      if x ∈ entities ∧ x ∈ w.pendingDestroy then none
      else w.contents x := by
  induction entities generalizing w with
  | nil => exact ⟨stable, fun x => by simp⟩
  | cons e entities inductionHypothesis =>
      have control := flushDestroy_control w e
      have doomedSame := congrArg Control.pendingDestroy control
      obtain ⟨lastStable, last⟩ := inductionHypothesis
        (flushDestroy_stable stable e)
        ((inIteration_congr control).trans outside)
      rw [Traced.forEach_cons, Traced.andThen_state]
      refine ⟨lastStable, fun x => ?_⟩
      rw [last, show (w.flushDestroy e).state.pendingDestroy =
        w.pendingDestroy from doomedSame, flushDestroy_contents stable outside]
      by_cases doomed : x ∈ w.pendingDestroy
      · by_cases isHead : x = e
        · subst isHead
          rw [if_pos doomed, Contents.kill_self, ite_self,
            if_pos ⟨List.mem_cons_self, doomed⟩]
        · have elsewhere : (if e ∈ w.pendingDestroy then w.contents.kill e
              else w.contents) x = w.contents x := by
            split
            · exact Contents.kill_of_ne _ isHead
            · rfl
          rw [elsewhere]
          simp only [List.mem_cons, isHead, false_or]
      · have elsewhere : (if e ∈ w.pendingDestroy then w.contents.kill e
            else w.contents) x = w.contents x := by
          split
          · rename_i headDoomed
            refine Contents.kill_of_ne _ ?_
            rintro rfl
            exact doomed headDoomed
          · rfl
        rw [elsewhere]
        simp only [doomed, and_false]

/-- The moving loop executes the queued operations of the entities it visits and
leaves the doomed ones alone. -/
theorem moveLoop_spec
    {w : World} (stable : w.Stable registry) {entities : List Entity}
    (once : entities.Nodup) :
    (Traced.forEach (flushMove registry) w entities).state.Stable registry ∧
    ∀ x, (Traced.forEach (flushMove registry) w entities).state.contents x =
      if x ∈ entities ∧ x ∉ w.pendingDestroy then
        (w.contents x).map
          (·.executeAll registry ((w.pendingOps.lookup x).getD []))
      else w.contents x := by
  induction entities generalizing w with
  | nil => exact ⟨stable, fun x => by simp⟩
  | cons e entities inductionHypothesis =>
      rw [List.nodup_cons] at once
      have control := flushMove_control registry w e
      have doomedSame : (w.flushMove registry e).state.pendingDestroy =
          w.pendingDestroy := congrArg Control.pendingDestroy control
      have opsSame : (w.flushMove registry e).state.pendingOps =
          w.pendingOps := congrArg Control.pendingOps control
      obtain ⟨lastStable, last⟩ := inductionHypothesis
        (flushMove_stable stable e) once.2
      rw [Traced.forEach_cons, Traced.andThen_state]
      refine ⟨lastStable, fun x => ?_⟩
      rw [last, doomedSame, opsSame, flushMove_contents stable]
      by_cases isHead : x = e
      · subst isHead
        rw [if_neg fun both => once.1 both.1]
        by_cases doomed : x ∈ w.pendingDestroy
        · rw [if_pos doomed, if_neg fun both => both.2 doomed]
        · rw [if_neg doomed, if_pos ⟨List.mem_cons_self, doomed⟩,
            Contents.adjust_self]
      · have elsewhere : (if e ∈ w.pendingDestroy then w.contents
            else w.contents.adjust e
              (·.executeAll registry ((w.pendingOps.lookup e).getD []))) x =
            w.contents x := by
          split
          · rfl
          · exact Contents.adjust_of_ne _ _ isHead
        rw [elsewhere]
        simp only [List.mem_cons, isHead, false_or]

/-- Inside an iteration the destroying loop does nothing. -/
theorem destroyLoop_guarded
    {w : World} (inside : w.inIteration = true) (entities : List Entity) :
    Traced.forEach flushDestroy w entities = .pure w := by
  induction entities with
  | nil => rfl
  | cons e entities inductionHypothesis =>
      have guarded : w.flushDestroy e = .pure w := by
        unfold flushDestroy destroyEntity
        rw [inside]
        split
        · split <;> rfl
        · rfl
      rw [Traced.forEach_cons, guarded, Traced.pure_andThen,
        inductionHypothesis]

/-- The destroying loop of a window that has just been closed. -/
theorem closedDestroyLoop_spec
    {w : World} (stable : w.Stable registry)
    (listed : ∀ e, e ∈ w.deferredEntities ↔
      e ∈ w.pendingDestroy ∨ (w.pendingOps.lookup e).isSome) :
    (Traced.forEach flushDestroy { w with deferMoves := false }
      w.deferredEntities).state.Stable registry ∧
    ∀ x, (Traced.forEach flushDestroy { w with deferMoves := false }
      w.deferredEntities).state.contents x =
      if x ∈ w.pendingDestroy ∧ w.inIteration = false then none
      else w.contents x := by
  have closedStable : World.Stable registry { w with deferMoves := false } :=
    ⟨stable.consistent, stable.pendingSound, stable.poolReal⟩
  have closedContents : World.contents { w with deferMoves := false } =
      w.contents := contents_congr rfl
  cases depth : w.inIteration with
  | true =>
      have guarded := destroyLoop_guarded
        (w := { w with deferMoves := false }) depth w.deferredEntities
      rw [guarded]
      refine ⟨closedStable, fun x => ?_⟩
      rw [if_neg (by simp), ← closedContents]
      rfl
  | false =>
      obtain ⟨destroyedStable, destroyed⟩ :=
        destroyLoop_spec closedStable depth w.deferredEntities
      refine ⟨destroyedStable, fun x => ?_⟩
      rw [destroyed, closedContents]
      have visited : x ∈ w.pendingDestroy → x ∈ w.deferredEntities :=
        fun doomed => (listed x).mpr (Or.inl doomed)
      simp only [and_true, and_iff_right_of_imp visited]

/-- The end of a deferred window kills the doomed entities, unless an iteration
keeps them, and executes the queued operations of all others. -/
theorem endDeferredMoves_spec
    {w : World} (stable : w.Stable registry) (deferred : w.deferMoves = true)
    (once : w.deferredEntities.Nodup)
    (listed : ∀ e, e ∈ w.deferredEntities ↔
      e ∈ w.pendingDestroy ∨ (w.pendingOps.lookup e).isSome) :
    (w.endDeferredMoves registry).state.Stable registry ∧
    ∀ x, (w.endDeferredMoves registry).state.contents x =
      if x ∈ w.pendingDestroy then
        if w.inIteration then w.contents x else none
      else (w.contents x).map
        (·.executeAll registry ((w.pendingOps.lookup x).getD [])) := by
  obtain ⟨destroyedStable, destroyed⟩ := closedDestroyLoop_spec stable listed
  obtain ⟨movedStable, moved⟩ := moveLoop_spec destroyedStable once
  have control := forEach_control flushDestroy_control
    { w with deferMoves := false } w.deferredEntities
  have doomedSame : (Traced.forEach flushDestroy { w with deferMoves := false }
      w.deferredEntities).state.pendingDestroy = w.pendingDestroy :=
    congrArg Control.pendingDestroy control
  have opsSame : (Traced.forEach flushDestroy { w with deferMoves := false }
      w.deferredEntities).state.pendingOps = w.pendingOps :=
    congrArg Control.pendingOps control
  have finished : ∀ v : World, Agrees registry v
      v.clearPending.releaseInvalidation :=
    fun v => (agrees_clearPending v).trans (agrees_releaseInvalidation _)
  unfold endDeferredMoves
  rw [deferred, if_neg (by simp)]
  dsimp only
  rw [Traced.mapState_state, Traced.andThen_state]
  constructor
  · exact movedStable.keeps (Realizes.ofAgrees _ finished)
      (Traced.accepted_pure _ _)
  · intro x
    rw [contents_congr (finished _).store_eq, moved, destroyed, doomedSame,
      opsSame]
    by_cases doomed : x ∈ w.pendingDestroy
    · rw [if_neg fun both => both.2 doomed, if_pos doomed]
      cases w.inIteration <;> simp [doomed]
    · have spared : ¬(x ∈ w.pendingDestroy ∧ w.inIteration = false) :=
        fun both => doomed both.1
      rw [if_neg spared, if_neg doomed]
      by_cases visited : x ∈ w.deferredEntities
      · rw [if_pos ⟨visited, doomed⟩]
      · have noOps : w.pendingOps.lookup x = none :=
          Option.not_isSome_iff_eq_none.mp fun isSome =>
            visited ((listed x).mpr (Or.inr isSome))
        rw [if_neg fun both => visited both.1, noOps]
        cases w.contents x <;> rfl

/-- A flush brings the contents to the net contents of the queues. -/
theorem endDeferredMoves_contents
    {start w : World} (queued : Queued registry start w) :
    (w.endDeferredMoves registry).state.Stable registry ∧
    (w.endDeferredMoves registry).state.contents =
      netContents registry w := by
  obtain ⟨endedStable, ended⟩ := endDeferredMoves_spec queued.stable
    queued.deferred queued.once queued.listed
  refine ⟨endedStable, funext fun x => ?_⟩
  rw [ended, queued.outside, if_neg Bool.false_ne_true]
  rfl

/-! ## Moves -/

/-- How often an entity is moved. -/
def movesOf (e : Entity) (effects : List Effect) : Nat :=
  effects.countP (Effect.isMoveOf e)

/-- Moves are counted one after the other. -/
theorem movesOf_append (e : Entity) (first second : List Effect) :
    movesOf e (first ++ second) = movesOf e first + movesOf e second :=
  List.countP_append

/-- Effects that are no moves count for none. -/
theorem movesOf_eq_zero
    {e : Entity} {effects : List Effect}
    (stays : ∀ effect ∈ effects, Effect.isMoveOf e effect = false) :
    movesOf e effects = 0 := by
  rw [movesOf, List.countP_eq_zero]
  intro effect member
  rw [stays effect member]
  exact Bool.false_ne_true

theorem isMoveOf_of_announcement
    {e : Entity} {effect : Effect} (announces : effect.IsAnnouncement) :
    Effect.isMoveOf e effect = false := by
  cases effect <;> first | rfl | exact announces.elim

/-- A destruction moves nobody. -/
theorem movesOf_flushDestroy (w : World) (e x : Entity) :
    movesOf x (w.flushDestroy e).effects = 0 := by
  unfold flushDestroy destroyEntity
  split
  · split
    · rfl
    · split
      · rfl
      · exact movesOf_eq_zero fun effect member =>
          isMoveOf_of_announcement (removedEvents_announce effect member)
  · rfl

/-- A write moves nobody. -/
theorem movesOf_commitWrites
    (w : World) (e x : Entity) (loc : EntityLocation)
    (last : AList fun _ : ComponentTypeId => Option (List UInt8))
    (ts : List ComponentTypeId) :
    movesOf x (Traced.forEach (commitWrite registry e loc last) w ts).effects =
      0 := by
  induction ts generalizing w with
  | nil => rfl
  | cons t ts inductionHypothesis =>
      rw [Traced.forEach_cons, Traced.andThen_effects, movesOf_append,
        inductionHypothesis, Nat.add_zero]
      unfold commitWrite
      split <;> rfl

variable (registry) in
/-- Committing an entity moves it at most once and moves no other. -/
theorem movesOf_flushMove (w : World) (e x : Entity) :
    movesOf x (w.flushMove registry e).effects ≤ if x = e then 1 else 0 := by
  have events : ∀ original finalIds last (seen : World),
      movesOf x (commitEvents e original finalIds last seen) = 0 :=
    fun _ _ _ _ => movesOf_eq_zero fun effect member =>
      isMoveOf_of_announcement (commitEvents_announce effect member)
  unfold flushMove
  split
  · exact Nat.zero_le _
  · unfold commitDeferredMove
    split
    · dsimp only
      split
      · rw [movesOf_append, events, Nat.add_zero, movesOf, List.countP_cons]
        change movesOf x _ + _ ≤ _
        rw [movesOf_commitWrites, Nat.zero_add]
        by_cases isSelf : x = e
        · simp [Effect.isMoveOf, isSelf]
        · simp [Effect.isMoveOf, isSelf, Ne.symm isSelf]
      · rw [movesOf_append, events, movesOf_commitWrites]
        exact Nat.zero_le _
    · exact Nat.zero_le _

/-- Every entity of the list is moved once at most. -/
theorem movesOf_moveLoop
    (w : World) (x : Entity) {entities : List Entity}
    (once : entities.Nodup) :
    movesOf x (Traced.forEach (flushMove registry) w entities).effects ≤
      if x ∈ entities then 1 else 0 := by
  induction entities generalizing w with
  | nil => exact Nat.zero_le _
  | cons e entities inductionHypothesis =>
      rw [List.nodup_cons] at once
      have head := movesOf_flushMove registry w e x
      have tail := inductionHypothesis (w.flushMove registry e).state once.2
      rw [Traced.forEach_cons, Traced.andThen_effects, movesOf_append]
      by_cases isHead : x = e
      · subst isHead
        rw [if_neg once.1] at tail
        rw [if_pos rfl] at head
        rw [if_pos List.mem_cons_self]
        omega
      · rw [if_neg isHead] at head
        simp only [List.mem_cons, isHead, false_or]
        omega

/-- A flush moves no entity more than once. -/
theorem movesOf_endDeferredMoves
    {start w : World} (queued : Queued registry start w) (x : Entity) :
    movesOf x (w.endDeferredMoves registry).effects ≤ 1 := by
  have destroying : ∀ (entities : List Entity) (v : World),
      movesOf x (Traced.forEach flushDestroy v entities).effects = 0 := by
    intro entities
    induction entities with
    | nil => exact fun _ => rfl
    | cons e entities inductionHypothesis =>
        intro v
        rw [Traced.forEach_cons, Traced.andThen_effects, movesOf_append,
          movesOf_flushDestroy, inductionHypothesis]
  unfold endDeferredMoves
  rw [queued.deferred, if_neg (by simp)]
  dsimp only
  rw [Traced.mapState_effects, Traced.andThen_effects, movesOf_append,
    destroying, Nat.zero_add]
  refine (movesOf_moveLoop _ x queued.once).trans ?_
  split <;> decide

/-! ## Executing a buffer -/

/-- An idle world that opens a deferred window has nothing queued. -/
theorem Stable.opened
    {w : World} (stable : w.Stable registry) (idle : w.Idle) :
    Queued registry w w.beginSuppress.beginDeferredMoves := by
  refine ⟨rfl, rfl, idle.outside,
    ⟨stable.consistent, stable.pendingSound, stable.poolReal⟩, ?_, ?_, ?_⟩
  · change w.deferredEntities.Nodup
    rw [idle.deferredEntities]
    exact List.nodup_nil
  · intro e
    change e ∈ w.deferredSet ↔ e ∈ w.deferredEntities
    rw [idle.deferredSet, idle.deferredEntities]
  · intro e
    change e ∈ w.deferredEntities ↔
      e ∈ w.pendingDestroy ∨ (w.pendingOps.lookup e).isSome
    rw [idle.deferredEntities, idle.pendingDestroy, idle.pendingOps]
    simp

/-- A queue executed in an idle world: the contents of immediate execution, and
at most one move of each entity. -/
theorem executeBuffer_spec
    {w : World} (stable : w.Stable registry) (idle : w.Idle)
    {queue : List Command} (structural : ∀ command ∈ queue, command.Structural) :
    (w.executeBuffer registry queue).state.Stable registry ∧
    (w.executeBuffer registry queue).state.contents =
      queue.foldl (Contents.execute registry) w.contents ∧
    ∀ x, movesOf x (w.executeBuffer registry queue).effects ≤ 1 := by
  unfold executeBuffer
  by_cases isEmpty : queue.isEmpty = true
  · rw [if_pos isEmpty, List.isEmpty_iff.mp isEmpty]
    exact ⟨stable, rfl, fun _ => Nat.zero_le _⟩
  · have start := stable.opened idle
    have startNet : netContents registry w.beginSuppress.beginDeferredMoves =
        w.contents := by
      funext e
      unfold netContents
      change (if e ∈ w.pendingDestroy then none
        else (w.contents e).map
          (·.executeAll registry ((w.pendingOps.lookup e).getD []))) = _
      rw [idle.pendingDestroy, idle.pendingOps, if_neg List.not_mem_nil]
      cases w.contents e <;> rfl
    obtain ⟨queued, net, noEffects⟩ := executeCommands_queued start structural
    obtain ⟨flushedStable, flushed⟩ := endDeferredMoves_contents queued
    rw [if_neg isEmpty, if_neg (by rw [idle.outside]; exact Bool.false_ne_true)]
    dsimp only
    rw [Traced.mapState_state, Traced.mapState_effects, Traced.andThen_state,
      Traced.andThen_effects, noEffects, List.nil_append]
    refine ⟨?_, ?_, movesOf_endDeferredMoves queued⟩
    · exact flushedStable.keeps (Realizes.ofAgrees _ agrees_endSuppress)
        (Traced.accepted_pure _ _)
    · rw [contents_congr (agrees_endSuppress _ : Agrees registry _ _).store_eq,
        flushed, net, startNet]

/-! ## Observing contents -/

/-- In worlds with consistent stores, equal contents show in everything that is
read of them. -/
theorem observe_eq_of_contents_eq
    {w w' : World} (consistent : w.store.Consistent registry)
    (consistent' : w'.store.Consistent registry)
    (same : w'.contents = w.contents) (e : Entity) :
    w'.isAlive e = w.isAlive e ∧
    w'.getEntityComponentTypes e = w.getEntityComponentTypes e ∧
    ∀ t, w'.getRaw e t = w.getRaw e t := by
  have alive : w'.isAlive e = w.isAlive e := by
    rw [← contents_isSome, ← contents_isSome, same]
  cases aliveEq : w.isAlive e with
  | false =>
      rw [aliveEq] at alive
      refine ⟨alive, ?_, fun t => ?_⟩
      · unfold getEntityComponentTypes
        rw [alive, aliveEq]
        rfl
      · have nothing : ∀ v : World, v.store.Consistent registry →
            v.isAlive e = false → v.getRaw e t = none := by
          intro v vConsistent vDead
          cases location : v.store.entityLocations.lookup e with
          | none =>
              unfold getRaw
              rw [location]
          | some loc =>
              rw [isAlive_of_location vConsistent location] at vDead
              exact absurd vDead (by simp)
        rw [nothing w' consistent' alive, nothing w consistent aliveEq]
  | true =>
      rw [aliveEq] at alive
      have atE := congrFun same e
      rw [contents_of_alive alive, contents_of_alive aliveEq,
        Option.some.injEq] at atE
      obtain ⟨loc, location⟩ := location_of_isAlive aliveEq
      obtain ⟨loc', location'⟩ := location_of_isAlive alive
      refine ⟨alive, ?_, fun t => ?_⟩
      · unfold getEntityComponentTypes
        rw [alive, aliveEq, if_pos rfl, if_pos rfl,
          ArchetypeStore.typesOf_of_location location,
          ArchetypeStore.typesOf_of_location location', Option.getD_some,
          Option.getD_some]
        apply List.Pairwise.eq_of_mem_iff
          (consistent'.archetypeOf location').ascending
          (consistent.archetypeOf location).ascending
        intro t
        rw [← bytesAt_isSome_iff location', ← bytesAt_isSome_iff location, atE]
      · rw [← bytesAt_eq_getRaw consistent', ← bytesAt_eq_getRaw consistent,
          atE]

end World

namespace WorldOp

variable {registry : ComponentRegistry}

/-- In a world reached by a run in which no creation hands out a live id, a
queue of structural commands ends as if it had been executed immediately: the
same live entities, the same component sets, the same bytes, and at most one
move of each entity. -/
theorem run_executeBuffer_eq_immediate
    {ops : List WorldOp}
    (issuesDead : Traced.Accepted Effect.IssuesDead (run registry ops))
    {queue : List Command} (structural : ∀ command ∈ queue, command.Structural) :
    let w := (run registry ops).state
    let deferred := w.executeBuffer registry queue
    let immediate := Traced.forEach (World.executeImmediately registry) w queue
    (∀ e, deferred.state.isAlive e = immediate.state.isAlive e) ∧
    (∀ e, deferred.state.getEntityComponentTypes e =
      immediate.state.getEntityComponentTypes e) ∧
    (∀ e t, deferred.state.getRaw e t = immediate.state.getRaw e t) ∧
    ∀ e, World.movesOf e deferred.effects ≤ 1 := by
  have stable := run_stable issuesDead
  have idle := run_idle registry ops
  obtain ⟨deferredStable, deferredContents, moves⟩ :=
    World.executeBuffer_spec stable idle structural
  obtain ⟨immediateStable, immediateContents⟩ :=
    World.executeImmediately_all stable idle structural
  have observed := World.observe_eq_of_contents_eq immediateStable.consistent
    deferredStable.consistent (deferredContents.trans immediateContents.symm)
  exact ⟨fun e => (observed e).1, fun e => (observed e).2.1,
    fun e => (observed e).2.2, moves⟩

/-- A queue that adds, overwrites, removes and destroys, with commands for an
entity that is already doomed. -/
theorem run_executeBuffer_eq_immediate_mixed :
    let w := (run ComponentRegistry.healthRegistry
      [.createEntity, .createEntity, .addRaw ⟨1⟩ 1 (some [7])]).state
    let queue : List Command :=
      [.addComponent ⟨2⟩ 1 [1], .removeComponent ⟨2⟩ 1, .addComponent ⟨2⟩ 1 [2],
        .removeEntity ⟨1⟩, .addComponent ⟨1⟩ 1 []]
    let deferred := w.executeBuffer ComponentRegistry.healthRegistry queue
    let immediate := Traced.forEach
      (World.executeImmediately ComponentRegistry.healthRegistry) w queue
    (∀ e, deferred.state.isAlive e = immediate.state.isAlive e) ∧
    (∀ e, deferred.state.getEntityComponentTypes e =
      immediate.state.getEntityComponentTypes e) ∧
    (∀ e t, deferred.state.getRaw e t = immediate.state.getRaw e t) ∧
    ∀ e, World.movesOf e deferred.effects ≤ 1 :=
  run_executeBuffer_eq_immediate
    (run_issuesDead (run_adoptsFresh (by simp [PreassignsNothing])))
    (by simp [Command.Structural])

/-- An id from outside that claims a free slot is handed out a second time, the
entity then sits in two rows, and the queue reaches another one of them than
immediate execution does. -/
theorem run_executeBuffer_ne_immediate :
    let w := (run ComponentRegistry.healthRegistry
      [.createEntity, .addRaw ⟨1⟩ 1 (some [1]), .createEntity, .createEntity,
        .destroyEntity ⟨3⟩, .createEntityPreassigned 0x100000003,
        .createEntity]).state
    let queue : List Command :=
      [.addComponent ⟨0x100000003⟩ 1 [2], .removeEntity ⟨2⟩]
    let deferred := w.executeBuffer ComponentRegistry.healthRegistry queue
    let immediate := Traced.forEach
      (World.executeImmediately ComponentRegistry.healthRegistry) w queue
    deferred.state.getRaw ⟨0x100000003⟩ 1 ≠
      immediate.state.getRaw ⟨0x100000003⟩ 1 := by
  decide

end WorldOp
end VortarisECS
