import VortarisECS.Core.Reports

/-!
# The events of a flush

A flush nets the commands of a component out: it dispatches one event if the
component came, went or was written and stayed, and none otherwise.  An entity's
events are dispatched when its move and its writes are done.
-/

namespace VortarisECS

/-- The types of the events of a component, in order. -/
def eventsOf (effects : List Effect) (e : Entity) (t : ComponentTypeId) :
    List ObserverEventType :=
  effects.filterMap fun
    | .dispatched type x u _ _ => if x = e ∧ u = t then some type else none
    | _ => none

/-- Some `AddComponent` command names the component. -/
def addsComponent (queue : List Command) (e : Entity) (t : ComponentTypeId) :
    Bool :=
  queue.any fun
    | .addComponent x u _ => decide (x = e ∧ u = t)
    | _ => false

/-- Some queued operation adds the type. -/
def addsType (ops : List PendingComponentOp) (t : ComponentTypeId) : Bool :=
  (ops.map fun op => (op.type, op.add)).contains (t, true)

/-- The event of a component that was there before or not, is there after or
not, and was added in between or not. -/
def netEvent (before after added : Bool) : Option ObserverEventType :=
  match before, after with
  | false, true => some .added
  | true, false => some .removed
  | true, true => if added then some .changed else none
  | false, false => none

namespace World

/-- The events of a flush are the net changes, and the observers find a
surviving entity as the flush leaves it. -/
structure ReportsNetChanges (registry : ComponentRegistry) (w : World)
    (queue : List Command) : Prop where
  events : ∀ e, w.isAlive e = true → ∀ t,
    eventsOf (w.executeBuffer registry queue).effects e t =
      (netEvent (w.has e t) ((w.executeBuffer registry queue).state.has e t)
        (addsComponent queue e t)).toList
  seen : ∀ type e t name seen,
    .dispatched type e t name seen ∈ (w.executeBuffer registry queue).effects →
    (w.executeBuffer registry queue).state.isAlive e = true →
    seen.getEntityComponentTypes e =
        (w.executeBuffer registry queue).state.getEntityComponentTypes e ∧
      ∀ u, seen.getRaw e u =
        (w.executeBuffer registry queue).state.getRaw e u

end World

variable {registry : ComponentRegistry}

/-- Nothing is announced where nothing changed. -/
theorem netEvent_unchanged (before : Bool) :
    netEvent before before false = none := by
  cases before <;> rfl

/-! ## Events of a component -/

section Events

variable {e x : Entity} {t : ComponentTypeId}

/-- The events of one component, one part after the other. -/
theorem eventsOf_append (first second : List Effect) :
    eventsOf (first ++ second) e t =
      eventsOf first e t ++ eventsOf second e t :=
  List.filterMap_append

/-- Silent effects are no events. -/
theorem eventsOf_silent
    {effects : List Effect} (silent : ∀ effect ∈ effects, effect.IsSilent) :
    eventsOf effects e t = [] := by
  refine List.filterMap_eq_nil_iff.mpr fun effect member => ?_
  have isSilent := silent effect member
  cases effect with
  | dispatched type x u name seen => exact isSilent.elim
  | _ => rfl

/-- One event for each type of a list. -/
theorem eventsOf_filterMap
    {types : List ComponentTypeId} (once : types.Nodup)
    (type : ComponentTypeId → Option ObserverEventType) (seen : World) :
    eventsOf (types.filterMap fun u =>
        (type u).map fun type => .dispatched type x u "" seen) e t =
      if x = e ∧ t ∈ types then (type t).toList else [] := by
  induction types with
  | nil => simp [eventsOf]
  | cons u types inductionHypothesis =>
      rw [List.nodup_cons] at once
      have later := inductionHypothesis once.2
      have head : eventsOf ((type u).map fun type =>
          Effect.dispatched type x u "" seen).toList e t =
          if x = e ∧ u = t then (type u).toList else [] := by
        cases type u with
        | none => simp [eventsOf]
        | some type => by_cases isIt : x = e ∧ u = t <;> simp [eventsOf, isIt]
      have split : (u :: types).filterMap (fun u =>
          (type u).map fun type => Effect.dispatched type x u "" seen) =
          ((type u).map fun type => Effect.dispatched type x u "" seen).toList ++
            types.filterMap fun u =>
              (type u).map fun type => Effect.dispatched type x u "" seen := by
        cases found : type u <;> simp [found]
      rw [split, eventsOf_append, head, later]
      by_cases isEntity : x = e
      · by_cases isType : u = t
        · subst isType
          simp [isEntity, once.1]
        · simp [isEntity, isType, Ne.symm isType]
      · simp [isEntity]

end Events

namespace World

/-! ## One entity -/

section OneEntity

variable {w : World} {e x : Entity} {t : ComponentTypeId}

/-- A commit announces a component once, by what it had and what it has. -/
theorem commitEvents_eventsOf
    {original finalIds : List ComponentTypeId} (onceBefore : original.Nodup)
    (onceAfter : finalIds.Nodup)
    (last : AList fun _ : ComponentTypeId => Option (List UInt8))
    (seen : World) :
    eventsOf (commitEvents x original finalIds last seen) e t =
      if x = e then
        (netEvent (decide (t ∈ original)) (decide (t ∈ finalIds))
          (last.lookup t).isSome).toList
      else [] := by
  have arrivals := eventsOf_filterMap (x := x) (e := e) (t := t) onceAfter
    (fun u => if u ∉ original then some .added
      else if (last.lookup u).isSome then some .changed else none) seen
  have departures := eventsOf_filterMap (x := x) (e := e) (t := t) onceBefore
    (fun u => if u ∉ finalIds then some .removed else none) seen
  have sameArrivals : (finalIds.filterMap fun u =>
      ((if u ∉ original then some ObserverEventType.added
        else if (last.lookup u).isSome then some .changed
        else none).map fun type => Effect.dispatched type x u "" seen)) =
      finalIds.filterMap fun u =>
        if u ∉ original then some (.dispatched .added x u "" seen)
        else if (last.lookup u).isSome then
          some (.dispatched .changed x u "" seen)
        else none := by
    congr 1
    funext u
    split
    · rfl
    · split <;> rfl
  have sameDepartures : (original.filterMap fun u =>
      ((if u ∉ finalIds then some ObserverEventType.removed
        else none).map fun type => Effect.dispatched type x u "" seen)) =
      original.filterMap fun u =>
        if u ∉ finalIds then some (.dispatched .removed x u "" seen)
        else none := by
    congr 1
    funext u
    split <;> rfl
  unfold commitEvents
  rw [eventsOf_append, ← sameArrivals, ← sameDepartures, arrivals, departures]
  by_cases isEntity : x = e
  · by_cases before : t ∈ original <;> by_cases after : t ∈ finalIds <;>
      cases (last.lookup t).isSome <;>
      simp [isEntity, before, after, netEvent]
  · simp [isEntity]

/-- A destruction announces the components it removes. -/
theorem destroyEntity_eventsOf
    (consistent : w.store.Consistent registry) (outside : w.inIteration = false)
    (x e : Entity) (t : ComponentTypeId) :
    eventsOf (w.destroyEntity x).effects e t =
      if x = e ∧ w.has e t = true then [.removed] else [] := by
  unfold destroyEntity
  cases location : w.store.entityLocations.lookup x with
  | none =>
      refine (if_neg ?_).symm
      rintro ⟨rfl, present⟩
      unfold has at present
      rw [location] at present
      exact absurd present (by simp)
  | some loc =>
      have once : (w.store.deref loc.archetype).componentIds.Nodup :=
        (consistent.archetypeOf location).ascending.imp fun less => ne_of_lt less
      have events := eventsOf_filterMap (x := x) (e := e) (t := t) once
        (fun _ => some .removed)
        ((w.setStore (w.store.detach x loc)).setSlots (w.slots.freeEntityId x))
      dsimp only
      rw [outside, if_neg Bool.false_ne_true]
      unfold leave removedEvents
      dsimp only
      rw [← List.filterMap_eq_map]
      refine events.trans (if_congr (and_congr_right ?_) rfl rfl)
      rintro rfl
      rw [← mem_types_iff consistent location,
        (represents_contents consistent).mem_types,
        (represents_contents consistent).has_eq]

/-- Committing an entity dispatches its net changes. -/
theorem commitDeferredMove_eventsOf
    (stable : w.Stable registry) (x e : Entity) (t : ComponentTypeId) :
    eventsOf (w.commitDeferredMove registry x).effects e t =
      if x = e then
        (netEvent (w.has e t) ((w.commitDeferredMove registry x).state.has e t)
          (addsType ((w.pendingOps.lookup e).getD []) t)).toList
      else [] := by
  cases location : w.store.entityLocations.lookup x with
  | none =>
      have unchanged : w.commitDeferredMove registry x = .pure w := by
        unfold commitDeferredMove
        rw [location]
      rw [unchanged]
      split
      · rename_i isEntity
        subst isEntity
        have absent : w.has x t = false := by
          unfold has
          rw [location]
        rw [show (Traced.pure w : Traced Effect World).state.has x t = false
          from absent, absent]
        rfl
      · rfl
  | some loc =>
  cases queued : w.pendingOps.lookup x with
  | none =>
      have unchanged : w.commitDeferredMove registry x = .pure w := by
        unfold commitDeferredMove
        rw [location, queued]
      rw [unchanged]
      split
      · rename_i isEntity
        subst isEntity
        rw [queued]
        exact congrArg Option.toList (netEvent_unchanged (w.has x t)).symm
      · rfl
  | some ops =>
  have consistent := stable.consistent
  have sound := stable.pendingSound x ops queued
  have wellFormed := consistent.archetypeOf location
  have onceBefore : (w.store.deref loc.archetype).componentIds.Nodup :=
    wellFormed.ascending.imp fun less => ne_of_lt less
  have onceAfter : (sortIds (finalSet
      (w.store.deref loc.archetype).componentIds ops)).Nodup :=
    (finalIds_spec wellFormed sound).1.imp fun less => ne_of_lt less
  have before : w.has x t =
      decide (t ∈ (w.store.deref loc.archetype).componentIds) := by
    rw [Bool.eq_iff_iff, decide_eq_true_iff, has_iff_mem_types consistent,
      mem_types_iff consistent location]
  have after : (w.commitDeferredMove registry x).state.has x t =
      decide (t ∈ sortIds (finalSet
        (w.store.deref loc.archetype).componentIds ops)) := by
    rw [Bool.eq_iff_iff, decide_eq_true_iff,
      has_iff_mem_types (commitDeferredMove_stable stable x).consistent,
      commitDeferredMove_types stable location queued]
  have events : ∀ (silent : List Effect) (seen : World),
      (∀ effect ∈ silent, effect.IsSilent) →
      eventsOf (silent ++ commitEvents x
        (w.store.deref loc.archetype).componentIds
        (sortIds (finalSet (w.store.deref loc.archetype).componentIds ops))
        (lastAddData ops) seen) e t = if x = e then
          (netEvent (w.has e t)
            ((w.commitDeferredMove registry x).state.has e t)
            (addsType ((w.pendingOps.lookup e).getD []) t)).toList
        else [] := by
    intro silent seen isSilent
    rw [eventsOf_append, eventsOf_silent isSilent, List.nil_append,
      commitEvents_eventsOf onceBefore onceAfter, lastAddData_isSome,
      ← addsType]
    refine if_ctx_congr Iff.rfl (fun isEntity => ?_) fun _ => rfl
    subst isEntity
    rw [before, after, queued, Option.getD_some]
  conv_lhs => unfold commitDeferredMove
  rw [location, queued]
  dsimp only
  split
  · refine events (_ :: _) _ fun effect member => ?_
    obtain rfl | member := List.mem_cons.mp member
    · trivial
    · exact commitWrites_silent x _ _ _ _ effect member
  · exact events _ _ (commitWrites_silent x loc _ _ w)

/-- The events of a committed entity are about it, and dispatched when it is
done. -/
theorem commitDeferredMove_seen
    {type : ObserverEventType} {name : String} {seen : World}
    (member : .dispatched type e t name seen ∈
      (w.commitDeferredMove registry x).effects) :
    e = x ∧ seen.store = (w.commitDeferredMove registry x).state.store := by
  have announced : ∀ {original finalIds : List ComponentTypeId}
      {last : AList fun _ : ComponentTypeId => Option (List UInt8)}
      {silent : List Effect} {v : World},
      (∀ effect ∈ silent, effect.IsSilent) →
      .dispatched type e t name seen ∈
        silent ++ commitEvents x original finalIds last v →
      e = x ∧ seen = v := by
    intro original finalIds last silent v isSilent inEffects
    obtain inSilent | inEvents := List.mem_append.mp inEffects
    · exact (isSilent _ inSilent).elim
    · obtain inEvents | inEvents := List.mem_append.mp inEvents
      · obtain ⟨u, _, event⟩ := List.mem_filterMap.mp inEvents
        split at event
        · cases event
          exact ⟨rfl, rfl⟩
        · split at event
          · cases event
            exact ⟨rfl, rfl⟩
          · cases event
      · obtain ⟨u, _, event⟩ := List.mem_filterMap.mp inEvents
        split at event
        · cases event
          exact ⟨rfl, rfl⟩
        · cases event
  unfold commitDeferredMove at member ⊢
  cases location : w.store.entityLocations.lookup x with
  | none =>
      rw [location] at member
      exact absurd member List.not_mem_nil
  | some loc =>
  cases queued : w.pendingOps.lookup x with
  | none =>
      rw [location, queued] at member
      exact absurd member List.not_mem_nil
  | some ops =>
  rw [location, queued] at member
  dsimp only at member ⊢
  by_cases structural :
      sortIds (finalSet (w.store.deref loc.archetype).componentIds ops) ≠
        (w.store.deref loc.archetype).componentIds
  · rw [if_pos structural] at member ⊢
    obtain ⟨same, rfl⟩ := announced (fun effect inSilent => by
      obtain rfl | later := List.mem_cons.mp inSilent
      · trivial
      · exact commitWrites_silent x _ _ _ _ effect later) member
    exact ⟨same, (agrees_invalidateCache _ :
      Agrees registry _ _).store_eq.symm⟩
  · rw [if_neg structural] at member ⊢
    obtain ⟨same, rfl⟩ := announced (commitWrites_silent x loc _ _ w) member
    exact ⟨same, rfl⟩

end OneEntity

/-! ## The two loops -/

section Loops

variable {w w' : World} {e : Entity} {t : ComponentTypeId}
variable {entities : List Entity}

/-- Entities with the same components have the same ones. -/
theorem has_congr
    (consistent : w.store.Consistent registry)
    (consistent' : w'.store.Consistent registry)
    (same : w'.contents e = w.contents e) (t : ComponentTypeId) :
    w'.has e t = w.has e t := by
  rw [(represents_contents consistent').has_eq,
    (represents_contents consistent).has_eq, same]

/-- So does one at the end of a window. -/
theorem flushDestroy_eventsOf
    (stable : w.Stable registry) (outside : w.inIteration = false)
    (x e : Entity) (t : ComponentTypeId) :
    eventsOf (w.flushDestroy x).effects e t =
      if (x = e ∧ e ∈ w.pendingDestroy) ∧ w.has e t = true then [.removed]
      else [] := by
  unfold flushDestroy
  split
  · rename_i doomed
    rw [destroyEntity_eventsOf stable.consistent outside]
    refine if_congr (and_congr_left fun _ => ?_) rfl rfl
    exact ⟨fun same => ⟨same, same ▸ doomed⟩, fun both => both.1⟩
  · rename_i spared
    refine (if_neg ?_).symm
    rintro ⟨⟨rfl, doomed⟩, _⟩
    exact spared doomed

/-- The destroying loop removes each component of each doomed entity once. -/
theorem destroyLoop_eventsOf
    (stable : w.Stable registry) (outside : w.inIteration = false)
    (once : entities.Nodup) :
    eventsOf (Traced.forEach flushDestroy w entities).effects e t =
      if (e ∈ entities ∧ e ∈ w.pendingDestroy) ∧ w.has e t = true then
        [.removed]
      else [] := by
  induction entities generalizing w with
  | nil => simp [eventsOf]
  | cons x entities inductionHypothesis =>
      rw [List.nodup_cons] at once
      have control := flushDestroy_control w x
      have doomedSame : (w.flushDestroy x).state.pendingDestroy =
          w.pendingDestroy := congrArg Control.pendingDestroy control
      have stable' := flushDestroy_stable stable x
      have later := inductionHypothesis stable'
        ((inIteration_congr control).trans outside) once.2
      rw [Traced.forEach_cons, Traced.andThen_effects, eventsOf_append, later,
        flushDestroy_eventsOf stable outside, doomedSame]
      by_cases isHead : x = e
      · subst isHead
        simp [once.1]
      · have elsewhere : (w.flushDestroy x).state.contents e = w.contents e := by
          rw [flushDestroy_contents stable outside]
          split
          · exact Contents.kill_of_ne _ (Ne.symm isHead)
          · rfl
        rw [has_congr stable.consistent stable'.consistent elsewhere]
        simp [isHead, Ne.symm isHead]

/-- Only what is pending is destroyed. -/
theorem destroyLoop_seen
    {type : ObserverEventType} {name : String} {seen : World}
    (member : .dispatched type e t name seen ∈
      (Traced.forEach flushDestroy w entities).effects) :
    e ∈ w.pendingDestroy := by
  induction entities generalizing w with
  | nil => exact absurd member List.not_mem_nil
  | cons x entities inductionHypothesis =>
      have doomedSame : (w.flushDestroy x).state.pendingDestroy =
          w.pendingDestroy :=
        congrArg Control.pendingDestroy (flushDestroy_control w x)
      rw [Traced.forEach_cons, Traced.andThen_effects] at member
      obtain first | later := List.mem_append.mp member
      · unfold flushDestroy at first
        split at first
        · rename_i doomed
          unfold destroyEntity at first
          split at first
          · exact absurd first List.not_mem_nil
          · split at first
            · exact absurd first List.not_mem_nil
            · obtain ⟨_, _, same⟩ := List.mem_map.mp first
              cases same
              exact doomed
        · exact absurd first List.not_mem_nil
      · exact doomedSame ▸ inductionHypothesis later

/-- The moving loop dispatches the net changes of each entity it moves. -/
theorem moveLoop_eventsOf
    (stable : w.Stable registry) (once : entities.Nodup) :
    eventsOf (Traced.forEach (flushMove registry) w entities).effects e t =
      if e ∈ entities ∧ e ∉ w.pendingDestroy then
        (netEvent (w.has e t)
          ((Traced.forEach (flushMove registry) w entities).state.has e t)
          (addsType ((w.pendingOps.lookup e).getD []) t)).toList
      else [] := by
  induction entities generalizing w with
  | nil => simp [eventsOf]
  | cons x entities inductionHypothesis =>
      rw [List.nodup_cons] at once
      have control := flushMove_control registry w x
      have doomedSame : (w.flushMove registry x).state.pendingDestroy =
          w.pendingDestroy := congrArg Control.pendingDestroy control
      have opsSame : (w.flushMove registry x).state.pendingOps =
          w.pendingOps := congrArg Control.pendingOps control
      have stable' := flushMove_stable stable x
      obtain ⟨lastStable, last⟩ := moveLoop_spec stable' once.2
      have later := inductionHypothesis stable' once.2
      rw [Traced.forEach_cons, Traced.andThen_effects, Traced.andThen_state,
        eventsOf_append, later, doomedSame, opsSame]
      by_cases isHead : x = e
      · subst isHead
        have afterwards := has_congr stable'.consistent lastStable.consistent
          ((last x).trans (if_neg fun both => once.1 both.1)) t
        rw [if_neg fun both => once.1 both.1, List.append_nil, afterwards]
        unfold flushMove
        by_cases doomed : x ∈ w.pendingDestroy
        · rw [if_pos doomed, if_neg fun both => both.2 doomed]
          rfl
        · rw [if_neg doomed, if_pos ⟨List.mem_cons_self, doomed⟩,
            commitDeferredMove_eventsOf stable, if_pos rfl]
      · have nothing : eventsOf (w.flushMove registry x).effects e t = [] := by
          unfold flushMove
          split
          · rfl
          · rw [commitDeferredMove_eventsOf stable, if_neg isHead]
        have elsewhere : (w.flushMove registry x).state.contents e =
            w.contents e := by
          rw [flushMove_contents stable]
          split
          · rfl
          · exact Contents.adjust_of_ne _ _ (Ne.symm isHead)
        rw [nothing, has_congr stable.consistent stable'.consistent elsewhere]
        simp [Ne.symm isHead]

/-- Observers of a move see the world it leads to. -/
theorem moveLoop_seen
    (stable : w.Stable registry) (once : entities.Nodup)
    {type : ObserverEventType} {name : String} {seen : World}
    (member : .dispatched type e t name seen ∈
      (Traced.forEach (flushMove registry) w entities).effects) :
    seen.store.Consistent registry ∧
      seen.contents e =
        (Traced.forEach (flushMove registry) w entities).state.contents e := by
  induction entities generalizing w with
  | nil => exact absurd member List.not_mem_nil
  | cons x entities inductionHypothesis =>
      rw [List.nodup_cons] at once
      have stable' := flushMove_stable stable x
      obtain ⟨_, last⟩ := moveLoop_spec stable' once.2
      rw [Traced.forEach_cons, Traced.andThen_effects] at member
      rw [Traced.forEach_cons, Traced.andThen_state]
      obtain first | later := List.mem_append.mp member
      · unfold flushMove at first stable' last ⊢
        split at first
        · exact absurd first List.not_mem_nil
        · rename_i spared
          obtain ⟨rfl, sameStore⟩ := commitDeferredMove_seen first
          rw [if_neg spared] at stable' last ⊢
          refine ⟨sameStore ▸ stable'.consistent, ?_⟩
          rw [contents_congr sameStore]
          exact ((last e).trans (if_neg fun both => once.1 both.1)).symm
      · exact inductionHypothesis stable' once.2 later

end Loops

/-! ## The flush -/

section Flush

variable {start w : World} {e : Entity} {t : ComponentTypeId}

/-- A flush of a deferred window is its two loops. -/
theorem endDeferredMoves_loops (deferred : w.deferMoves = true) :
    let destroyed := Traced.forEach flushDestroy { w with deferMoves := false }
      w.deferredEntities
    let moved := Traced.forEach (flushMove registry) destroyed.state
      w.deferredEntities
    (w.endDeferredMoves registry).effects =
        destroyed.effects ++ moved.effects ∧
      (w.endDeferredMoves registry).state.store = moved.state.store := by
  unfold endDeferredMoves
  rw [deferred, if_neg (by simp)]
  exact ⟨rfl, ((agrees_clearPending _).trans (agrees_releaseInvalidation _) :
    Agrees registry _ _).store_eq⟩

/-- What the two loops of a flush do to one entity. -/
theorem Queued.loops
    (queued : Queued registry start w) :
    let closed : World := { w with deferMoves := false }
    let destroyed := Traced.forEach flushDestroy closed w.deferredEntities
    let moved := Traced.forEach (flushMove registry) destroyed.state
      w.deferredEntities
    closed.Stable registry ∧ destroyed.state.Stable registry ∧
    destroyed.state.pendingDestroy = w.pendingDestroy ∧
    destroyed.state.pendingOps = w.pendingOps ∧
    moved.state.Stable registry ∧
    (∀ x, destroyed.state.contents x =
      if x ∈ w.deferredEntities ∧ x ∈ w.pendingDestroy then none
      else w.contents x) ∧
    ∀ x, (x ∉ w.deferredEntities ∨ x ∈ w.pendingDestroy) →
      moved.state.contents x = destroyed.state.contents x := by
  have closedStable : World.Stable registry { w with deferMoves := false } :=
    ⟨queued.stable.consistent, queued.stable.pendingSound,
      queued.stable.poolReal⟩
  obtain ⟨destroyedStable, destroyed⟩ := destroyLoop_spec closedStable
    queued.outside w.deferredEntities
  obtain ⟨movedStable, moved⟩ := moveLoop_spec destroyedStable queued.once
  have control := forEach_control flushDestroy_control
    { w with deferMoves := false } w.deferredEntities
  have doomedSame : (Traced.forEach flushDestroy { w with deferMoves := false }
      w.deferredEntities).state.pendingDestroy = w.pendingDestroy :=
    congrArg Control.pendingDestroy control
  refine ⟨closedStable, destroyedStable, doomedSame,
    congrArg Control.pendingOps control, movedStable, destroyed,
    fun x others => ?_⟩
  rw [moved, if_neg]
  rintro ⟨visited, spared⟩
  obtain unvisited | doomed := others
  · exact unvisited visited
  · rw [doomedSame] at spared
    exact spared doomed

/-- A flush dispatches the net changes of the queued operations. -/
theorem endDeferredMoves_eventsOf
    (queued : Queued registry start w) :
    eventsOf (w.endDeferredMoves registry).effects e t =
      (netEvent (w.has e t) ((w.endDeferredMoves registry).state.has e t)
        (addsType ((w.pendingOps.lookup e).getD []) t)).toList := by
  obtain ⟨closedStable, destroyedStable, doomedSame, opsSame, movedStable,
    destroyed, unmoved⟩ := queued.loops
  obtain ⟨effects, sameStore⟩ := endDeferredMoves_loops queued.deferred
  have finalHas : (w.endDeferredMoves registry).state.has e t = _ :=
    has_congr movedStable.consistent (sameStore ▸ movedStable.consistent)
      (congrFun (contents_congr sameStore) e) t
  rw [finalHas, effects, eventsOf_append,
    destroyLoop_eventsOf closedStable queued.outside queued.once,
    moveLoop_eventsOf destroyedStable queued.once, doomedSame, opsSame]
  have closedHas : World.has { w with deferMoves := false } e t = w.has e t :=
    rfl
  have closedDoomed : World.pendingDestroy { w with deferMoves := false } =
      w.pendingDestroy := rfl
  rw [closedHas, closedDoomed]
  by_cases doomed : e ∈ w.pendingDestroy
  · have visited := (queued.listed e).mpr (Or.inl doomed)
    have gone := (unmoved e (Or.inr doomed)).trans
      ((destroyed e).trans (if_pos ⟨visited, doomed⟩))
    rw [(represents_contents movedStable.consistent).has_eq, gone]
    cases w.has e t <;> simp [netEvent, visited, doomed]
  · have kept := (destroyed e).trans (if_neg fun both => doomed both.2)
    rw [if_neg fun all => doomed all.1.2, List.nil_append,
      has_congr queued.stable.consistent destroyedStable.consistent kept]
    by_cases visited : e ∈ w.deferredEntities
    · rw [if_pos ⟨visited, doomed⟩]
    · have noOps : w.pendingOps.lookup e = none :=
        Option.not_isSome_iff_eq_none.mp fun isSome =>
          visited ((queued.listed e).mpr (Or.inr isSome))
      rw [if_neg fun both => visited both.1, noOps,
        has_congr queued.stable.consistent movedStable.consistent
          ((unmoved e (Or.inl visited)).trans kept)]
      exact congrArg Option.toList (netEvent_unchanged (w.has e t)).symm

/-- An event of an entity that survives the flush finds it as the flush leaves
it. -/
theorem endDeferredMoves_seen
    (queued : Queued registry start w) {type : ObserverEventType}
    {name : String} {seen : World}
    (member : .dispatched type e t name seen ∈
      (w.endDeferredMoves registry).effects)
    (alive : (w.endDeferredMoves registry).state.isAlive e = true) :
    seen.store.Consistent registry ∧
      seen.contents e = (w.endDeferredMoves registry).state.contents e := by
  obtain ⟨_, destroyedStable, _, _, _, destroyed, unmoved⟩ := queued.loops
  obtain ⟨effects, sameStore⟩ := endDeferredMoves_loops queued.deferred
  rw [effects] at member
  rw [contents_congr sameStore]
  obtain inDestroyed | inMoved := List.mem_append.mp member
  · have doomed : e ∈ World.pendingDestroy { w with deferMoves := false } :=
      destroyLoop_seen inDestroyed
    have visited := (queued.listed e).mpr (Or.inl doomed)
    rw [← contents_isSome, contents_congr sameStore,
      unmoved e (Or.inr doomed), destroyed e, if_pos ⟨visited, doomed⟩] at alive
    exact absurd alive (by simp)
  · exact moveLoop_seen destroyedStable queued.once inMoved

/-- The additions of a component, with one more operation. -/
theorem addsType_append (ops : List PendingComponentOp)
    (op : PendingComponentOp) :
    addsType (ops ++ [op]) t =
      (addsType ops t || (op.add && decide (op.type = t))) := by
  obtain ⟨u, add, data⟩ := op
  unfold addsType
  rw [List.map_append, List.contains_append]
  cases add with
  | false => simp
  | true =>
      have flipped : decide (t = u) = decide (u = t) :=
        decide_eq_decide.mpr eq_comm
      simp [flipped]

/-- What a command adds to the queued operations of a live entity. -/
theorem executeCommand_addsType
    (queued : Queued registry start w) {command : Command}
    (structural : command.Structural) (alive : w.isAlive e = true)
    (isRegistered : (registry.schemaOf t).isSome = true) :
    addsType (((w.executeCommand registry command).state.pendingOps.lookup
        e).getD []) t =
      (addsType ((w.pendingOps.lookup e).getD []) t ||
        addsComponent [command] e t) := by
  cases command with
  | addComponent x u data =>
      dsimp only [executeCommand]
      cases xAlive : w.isAlive x with
      | false =>
          have other : x ≠ e := by
            rintro rfl
            exact absurd (xAlive.symm.trans alive) Bool.false_ne_true
          rw [addRaw_dead _ xAlive]
          simp [addsComponent, other, Traced.pure]
      | true =>
          cases registered : registry.schemaOf u with
          | none =>
              have other : u ≠ t := by
                rintro rfl
                rw [registered] at isRegistered
                exact absurd isRegistered (by simp)
              rw [addRaw_unregistered _ registered]
              simp [addsComponent, other, Traced.pure]
          | some schema =>
              rw [addRaw_deferred _ xAlive registered queued.deferred]
              dsimp only [Traced.pure]
              rw [deferOp_lookup]
              by_cases isEntity : e = x
              · rw [if_pos isEntity, addsType_append]
                simp [addsComponent, isEntity]
              · rw [if_neg isEntity, List.append_nil]
                simp [addsComponent, Ne.symm isEntity]
  | removeComponent x u =>
      dsimp only [executeCommand]
      cases xAlive : w.isAlive x with
      | false =>
          rw [removeComponent_dead xAlive]
          exact (Bool.or_false _).symm
      | true =>
          rw [removeComponent_deferred xAlive queued.deferred]
          dsimp only [Traced.pure]
          rw [deferOp_lookup]
          split
          · rw [addsType_append]
            rfl
          · rw [List.append_nil]
            exact (Bool.or_false _).symm
  | removeEntity x =>
      dsimp only [executeCommand]
      unfold destroyEntityDeferred
      rw [if_pos queued.deferred]
      split
      · dsimp only [Traced.pure]
        rw [(queueDeferredMove_queues _ _).1]
        exact (Bool.or_false _).symm
      · exact (Bool.or_false _).symm
  | addEntity x => exact structural.elim
  | custom id data => exact structural.elim

/-- The queue adds a component if a command does. -/
theorem executeCommands_addsType
    (queued : Queued registry start w) {queue : List Command}
    (structural : ∀ command ∈ queue, command.Structural)
    (alive : w.isAlive e = true)
    (isRegistered : (registry.schemaOf t).isSome = true) :
    addsType (((Traced.forEach (executeCommand registry) w
        queue).state.pendingOps.lookup e).getD []) t =
      (addsType ((w.pendingOps.lookup e).getD []) t ||
        addsComponent queue e t) := by
  induction queue generalizing w with
  | nil => exact (Bool.or_false _).symm
  | cons command queue inductionHypothesis =>
      obtain ⟨nextQueued, _, _⟩ := executeCommand_queued queued
        (structural command List.mem_cons_self)
      have stillAlive :
          (w.executeCommand registry command).state.isAlive e = true := by
        rw [← contents_isSome, nextQueued.contents_eq, ← queued.contents_eq,
          contents_isSome]
        exact alive
      rw [Traced.forEach_cons, Traced.andThen_state,
        inductionHypothesis nextQueued
          (fun later member => structural later (List.mem_cons_of_mem _ member))
          stillAlive,
        executeCommand_addsType queued
          (structural command List.mem_cons_self) alive isRegistered,
        Bool.or_assoc]
      simp [addsComponent]

/-- Only registered components are there. -/
theorem registered_of_has
    (consistent : w.store.Consistent registry) (present : w.has e t = true) :
    (registry.schemaOf t).isSome = true := by
  obtain ⟨schema, _, registered, _⟩ := getRaw_of_mem_types consistent
    ((has_iff_mem_types consistent).mp present)
  rw [registered]
  rfl

/-- The last two arguments matter for components that are there before and
after. -/
theorem netEvent_congr
    {before after added added' : Bool}
    (same : before = true → added = added') :
    netEvent before after added = netEvent before after added' := by
  cases before with
  | false => cases after <;> rfl
  | true => rw [same rfl]

/-- Entities with the same components read the same. -/
theorem reads_eq_of_contents_eq
    (consistent : start.store.Consistent registry)
    (consistent' : w.store.Consistent registry)
    (same : start.contents e = w.contents e) :
    start.getEntityComponentTypes e = w.getEntityComponentTypes e ∧
      ∀ u, start.getRaw e u = w.getRaw e u := by
  refine ⟨types_eq_of_contents consistent' consistent fun u => by rw [same],
    fun u => ?_⟩
  rw [(represents_contents consistent).getRaw,
    (represents_contents consistent').getRaw, same]

/-- The events of a flush are the net changes, for every queue of structural
commands in an idle world. -/
theorem Stable.reportsNetChanges
    (stable : w.Stable registry) (idle : w.Idle) {queue : List Command}
    (structural : ∀ command ∈ queue, command.Structural) :
    w.ReportsNetChanges registry queue := by
  have stable' := (executeBuffer_spec stable idle structural).1
  by_cases isEmpty : queue.isEmpty = true
  · have unchanged : w.executeBuffer registry queue = .pure w := if_pos isEmpty
    rw [List.isEmpty_iff.mp isEmpty] at unchanged ⊢
    constructor
    · intro e _ t
      rw [unchanged]
      exact congrArg Option.toList (netEvent_unchanged (w.has e t)).symm
    · intro type e t name seen member
      rw [unchanged] at member
      exact absurd member List.not_mem_nil
  have start := stable.opened idle
  obtain ⟨queued, _, noEffects⟩ := executeCommands_queued start structural
  have flushed : w.executeBuffer registry queue =
      ((Traced.forEach (executeCommand registry)
        w.beginSuppress.beginDeferredMoves queue).andThen
          (endDeferredMoves registry)).mapState endSuppress := by
    unfold executeBuffer
    rw [if_neg isEmpty, idle.outside, if_neg Bool.false_ne_true]
  have adds : ∀ e t, w.isAlive e = true → w.has e t = true →
      addsType (((Traced.forEach (executeCommand registry)
        w.beginSuppress.beginDeferredMoves queue).state.pendingOps.lookup
          e).getD []) t = addsComponent queue e t := fun e t alive present => by
    have queues := executeCommands_addsType (e := e) (t := t) start structural
      alive (registered_of_has stable.consistent present)
    have nothing : addsType ((w.beginSuppress.beginDeferredMoves.pendingOps.lookup
        e).getD []) t = false := by
      rw [show w.beginSuppress.beginDeferredMoves.pendingOps = ∅ from
        idle.pendingOps]
      rfl
    rw [nothing, Bool.false_or] at queues
    exact queues
  generalize Traced.forEach (executeCommand registry) _ queue = executed
    at queued noEffects flushed adds
  have effects : (w.executeBuffer registry queue).effects =
      (executed.state.endDeferredMoves registry).effects := by
    rw [flushed, Traced.mapState_effects, Traced.andThen_effects, noEffects,
      List.nil_append]
  have contentsEq : (w.executeBuffer registry queue).state.contents =
      (executed.state.endDeferredMoves registry).state.contents := by
    rw [flushed, Traced.mapState_state, Traced.andThen_state]
    exact contents_congr (agrees_endSuppress _ : Agrees registry _ _).store_eq
  have ended := (endDeferredMoves_contents queued).1
  constructor
  · intro e alive t
    rw [effects, endDeferredMoves_eventsOf queued,
      has_congr stable.consistent queued.stable.consistent
        (congrFun queued.contents_eq e),
      has_congr ended.consistent stable'.consistent (congrFun contentsEq e)]
    exact congrArg Option.toList (netEvent_congr (adds e t alive))
  · intro type e t name seen member alive
    rw [effects] at member
    rw [← contents_isSome, contentsEq, contents_isSome] at alive
    obtain ⟨consistent, same⟩ := endDeferredMoves_seen queued member alive
    exact reads_eq_of_contents_eq consistent stable'.consistent
      (same.trans (congrFun contentsEq e).symm)

end Flush

end World
end VortarisECS
