import VortarisECS.Core.StoreRows
import VortarisECS.Core.World

/-!
# The elementary steps of a world

Every operation of a world is a sequence of elementary steps: an entity enters
or leaves, an archetype is created, an entity moves, a component is written, or
bookkeeping changes that no row depends on.  A property that every elementary
step keeps is kept by every operation.
-/

namespace VortarisECS

/-- A queued addition names a registered component and carries either no data or
an instance of it. -/
def PendingComponentOp.Sound (registry : ComponentRegistry)
    (op : PendingComponentOp) : Prop :=
  op.add = true → (registry.schemaOf op.type).isSome ∧
    (op.data = [] ∨ op.data.length = registry.sizeOf op.type)

namespace World

/-- Every queued operation is one that could be queued. -/
def PendingSound (registry : ComponentRegistry) (w : World) : Prop :=
  ∀ e ops, w.pendingOps.lookup e = some ops → ∀ op ∈ ops, op.Sound registry

/-- The worlds differ in bookkeeping at most: same rows, same allocator, same
clock, same log, same baselines. -/
structure Agrees (registry : ComponentRegistry) (w w' : World) : Prop where
  store_eq : w'.store = w.store
  slots_eq : w'.slots = w.slots
  changeTick_eq : w'.changeTick = w.changeTick
  changeLog_eq : w'.changeLog = w.changeLog
  changeLogGeneration_eq : w'.changeLogGeneration = w.changeLogGeneration
  changedBaselines_eq : w'.changedBaselines = w.changedBaselines
  pending : w.PendingSound registry → w'.PendingSound registry

variable {registry : ComponentRegistry}

theorem Agrees.refl (w : World) : Agrees registry w w :=
  ⟨rfl, rfl, rfl, rfl, rfl, rfl, id⟩

/-- Agreement carries over a third world. -/
theorem Agrees.trans {w w' w'' : World}
    (first : Agrees registry w w') (second : Agrees registry w' w'') :
    Agrees registry w w'' :=
  ⟨second.store_eq.trans first.store_eq,
    second.slots_eq.trans first.slots_eq,
    second.changeTick_eq.trans first.changeTick_eq,
    second.changeLog_eq.trans first.changeLog_eq,
    second.changeLogGeneration_eq.trans first.changeLogGeneration_eq,
    second.changedBaselines_eq.trans first.changedBaselines_eq,
    second.pending ∘ first.pending⟩

theorem agrees_invalidateCache (w : World) :
    Agrees registry w w.invalidateCache := by
  unfold invalidateCache
  split <;> exact ⟨rfl, rfl, rfl, rfl, rfl, rfl, id⟩

theorem agrees_queueDeferredMove (w : World) (e : Entity) :
    Agrees registry w (w.queueDeferredMove e) := by
  unfold queueDeferredMove
  split <;> exact ⟨rfl, rfl, rfl, rfl, rfl, rfl, id⟩

/-- A queued operation is bookkeeping, if it is one that could be queued. -/
theorem agrees_deferOp (w : World) (e : Entity) {op : PendingComponentOp}
    (sound : op.Sound registry) : Agrees registry w (w.deferOp e op) := by
  have queued : Agrees registry w { w with
      pendingOps := w.pendingOps.insert e
        ((w.pendingOps.lookup e).getD [] ++ [op]) } := by
    refine ⟨rfl, rfl, rfl, rfl, rfl, rfl, ?_⟩
    intro pendingSound x ops found
    dsimp only at found
    rw [AList.lookup_insert_if] at found
    by_cases same : x = e
    · rw [if_pos same, Option.some.injEq] at found
      subst found
      intro queuedOp member
      obtain member | member := List.mem_append.mp member
      · cases previous : w.pendingOps.lookup e with
        | none =>
            rw [previous] at member
            exact absurd member (by simp)
        | some earlier =>
            rw [previous] at member
            exact pendingSound e earlier previous queuedOp member
      · rw [List.mem_singleton.mp member]
        exact sound
    · rw [if_neg same] at found
      exact pendingSound x ops found
  exact queued.trans (agrees_queueDeferredMove _ e)

theorem agrees_releaseInvalidation (w : World) :
    Agrees registry w w.releaseInvalidation := by
  unfold releaseInvalidation
  split <;> exact ⟨rfl, rfl, rfl, rfl, rfl, rfl, id⟩

theorem agrees_endSuppress (w : World) : Agrees registry w w.endSuppress := by
  unfold endSuppress
  split
  · have popped : Agrees registry w
        { w with suppressDepth := w.suppressDepth - 1 } :=
      ⟨rfl, rfl, rfl, rfl, rfl, rfl, id⟩
    exact popped.trans (agrees_releaseInvalidation _)
  · exact Agrees.refl w

/-- What is pending is bookkeeping. -/
theorem agrees_clearPending (w : World) : Agrees registry w w.clearPending := by
  refine ⟨rfl, rfl, rfl, rfl, rfl, rfl, ?_⟩
  intro _ e ops found
  exact absurd found (by simp [clearPending])

end World

/-- Effects that change no row: events and custom commands. -/
def Effect.IsAnnouncement : Effect → Prop
  | .dispatched .. => True
  | .ranCustomCommand .. => True
  | _ => False

/-- The slots a creation leaves behind when it hands out `e`. -/
def EntitySlots.Issues (slots : EntitySlots) (e : Entity)
    (slots' : EntitySlots) : Prop :=
  slots.allocEntityId = (slots', e) ∨
    slots.poolSlots = e :: slots'.poolSlots ∧
      slots' = { slots with poolSlots := slots'.poolSlots }

/-- The slots a destruction leaves behind when it takes `e` back. -/
def EntitySlots.Releases (slots : EntitySlots) (e : Entity)
    (slots' : EntitySlots) : Prop :=
  slots' = slots.freeEntityId e ∨ slots' = slots.pushPool e

/-- One elementary step, with its effects. -/
inductive Step (registry : ComponentRegistry) :
    World → List Effect → World → Prop
  | quiet {w w' : World} {effects : List Effect}
      (agrees : World.Agrees registry w w')
      (announces : ∀ effect ∈ effects, effect.IsAnnouncement) :
      Step registry w effects w'
  | grow (w : World) (count : Nat) (bounded : count < 2 ^ 32) :
      Step registry w [] (w.setSlots (w.slots.growTo count))
  | exhaust {w : World} {slots : EntitySlots}
      (allocates : w.slots.allocEntityId = (slots, Entity.null)) :
      Step registry w [] (w.setSlots slots)
  | issue {w : World} {e : Entity} {slots : EntitySlots}
      (issues : w.slots.Issues e slots) (real : e ≠ Entity.null) :
      Step registry w [.issued e w] ((w.setSlots slots).enterEmpty e)
  | adopt {w : World} {e : Entity}
      (bounded : e.slot < maxPreassignedSlot)
      (dead : w.store.isAlive e = false) :
      Step registry w [.adopted e w]
        ((w.setSlots (w.slots.adopt e)).enterEmpty e)
  | leave {w : World} {e : Entity} {loc : EntityLocation}
      {slots : EntitySlots}
      (location : w.store.entityLocations.lookup e = some loc)
      (releases : w.slots.Releases e slots) :
      Step registry w []
        ((w.setStore (w.store.detach e loc)).setSlots slots)
  | ensure (w : World) {ids : List ComponentTypeId}
      (ascending : ids.Pairwise (· < ·))
      (registered : ∀ t ∈ ids, (registry.schemaOf t).isSome) :
      Step registry w []
        (w.setStore (w.store.ensureArchetype registry ids).1)
  | relocate {w : World} {e : Entity} {loc : EntityLocation} {target : Ptr}
      (location : w.store.entityLocations.lookup e = some loc)
      (listed : target ∈ w.store.archetypeList)
      (moves : loc.archetype ≠ target) :
      Step registry w [.moved e]
        (w.setStore (w.store.relocate registry e loc target w.changeTick).1)
  | write {w : World} {e : Entity} {loc : EntityLocation}
      {t : ComponentTypeId} {bytes : List UInt8}
      (location : w.store.entityLocations.lookup e = some loc)
      (present : t ∈ (w.store.deref loc.archetype).componentIds)
      (sized : bytes.length = registry.sizeOf t) :
      Step registry w [.wrote e t] (w.writeComponent e loc t bytes)
  | mark {w : World} {e : Entity} {loc : EntityLocation}
      {t : ComponentTypeId}
      (location : w.store.entityLocations.lookup e = some loc)
      (present : t ∈ (w.store.deref loc.archetype).componentIds) :
      Step registry w [.wrote e t] (w.markRow e loc t)
  | rawWrite {w : World} {e : Entity} {loc : EntityLocation}
      {t : ComponentTypeId} {bytes : List UInt8}
      (location : w.store.entityLocations.lookup e = some loc)
      (present : t ∈ (w.store.deref loc.archetype).componentIds)
      (sized : bytes.length = registry.sizeOf t) :
      Step registry w [] (w.modifyColumn loc t (·.setRow loc.row bytes))
  | compact (w : World) : Step registry w [] w.compact
  | rehash (w : World) (order : List Entity) :
      Step registry w [] (w.setStore (w.store.rehash order))
  | clearLog (w : World) :
      Step registry w [] { w with
        changeLog := []
        changeLogGeneration := w.changeLogGeneration + 1 }

/-- A sequence of elementary steps, with all their effects in order. -/
inductive Steps (registry : ComponentRegistry) :
    World → List Effect → World → Prop
  | refl (w : World) : Steps registry w [] w
  | tail {w w' w'' : World} {first second : List Effect}
      (before : Steps registry w first w')
      (step : Step registry w' second w'') :
      Steps registry w (first ++ second) w''

namespace Steps

variable {registry : ComponentRegistry} {w w' w'' : World}
variable {first second : List Effect}

/-- One step. -/
theorem single (step : Step registry w first w') :
    Steps registry w first w' := by
  have steps := (Steps.refl w).tail step
  rwa [List.nil_append] at steps

/-- Steps after steps. -/
theorem trans (before : Steps registry w first w')
    (after : Steps registry w' second w'') :
    Steps registry w (first ++ second) w'' := by
  induction after with
  | refl => rwa [List.append_nil]
  | tail _ step inductionHypothesis =>
      rw [← List.append_assoc]
      exact inductionHypothesis.tail step

/-- Bookkeeping without effects. -/
theorem agrees (agree : World.Agrees registry w w') : Steps registry w [] w' :=
  single (.quiet agree fun _ member => absurd member (by simp))

/-- Follow some steps by bookkeeping and announcements. -/
theorem andQuiet (before : Steps registry w first w')
    (agree : World.Agrees registry w' w'')
    (announces : ∀ effect ∈ second, effect.IsAnnouncement) :
    Steps registry w (first ++ second) w'' :=
  before.tail (.quiet agree announces)

/-- Bookkeeping after steps. -/
theorem andAgrees (before : Steps registry w first w')
    (agree : World.Agrees registry w' w'') : Steps registry w first w'' := by
  have steps := before.trans (agrees agree)
  rwa [List.append_nil] at steps

end Steps

/-! ## Inductive properties -/

/-- A property of worlds that elementary steps with acceptable effects keep, and
that implies that the store is consistent, that queued operations are sound and
that the pool holds real ids. -/
structure InductiveOn (registry : ComponentRegistry)
    (invariant : World → Prop) (accept : Effect → Prop) : Prop where
  consistent : ∀ w, invariant w → w.store.Consistent registry
  pendingSound : ∀ w, invariant w → w.PendingSound registry
  poolReal : ∀ w, invariant w → ∀ e ∈ w.slots.poolSlots, e ≠ Entity.null
  step : ∀ w effects w', invariant w → Step registry w effects w' →
    (∀ effect ∈ effects, accept effect) → invariant w'

/-- An invariant of the steps holds after acceptable steps. -/
theorem Steps.keeps
    {registry : ComponentRegistry} {invariant : World → Prop}
    {accept : Effect → Prop}
    (inductiveOn : InductiveOn registry invariant accept)
    {w w' : World} {effects : List Effect}
    (steps : Steps registry w effects w') (holds : invariant w)
    (accepted : ∀ effect ∈ effects, accept effect) : invariant w' := by
  induction steps with
  | refl => exact holds
  | tail _ step inductionHypothesis =>
      apply inductiveOn.step _ _ _ (inductionHypothesis ?_) step
      · exact fun effect member =>
          accepted effect (List.mem_append_right _ member)
      · exact fun effect member =>
          accepted effect (List.mem_append_left _ member)

/-- From states with the property, an operation whose effects are acceptable is
a sequence of elementary steps. -/
def Realizes (registry : ComponentRegistry) (invariant : World → Prop)
    (accept : Effect → Prop) (op : World → Traced Effect World) : Prop :=
  ∀ w, invariant w → Traced.Accepted accept (op w) →
    Steps registry w (op w).effects (op w).state

namespace Realizes

variable {registry : ComponentRegistry} {invariant : World → Prop}
variable {accept : Effect → Prop}
variable {first second : World → Traced Effect World}

/-- What takes steps keeps the invariant. -/
theorem keeps
    (inductiveOn : InductiveOn registry invariant accept)
    (realizes : Realizes registry invariant accept first) :
    Traced.Maintains invariant accept first :=
  fun w holds accepted =>
    (realizes w holds accepted).keeps inductiveOn holds accepted

/-- One thing after the other takes steps. -/
theorem andThen
    (inductiveOn : InductiveOn registry invariant accept)
    (firstRealizes : Realizes registry invariant accept first)
    (secondRealizes : Realizes registry invariant accept second) :
    Realizes registry invariant accept fun w => (first w).andThen second := by
  intro w holds accepted
  rw [Traced.accepted_andThen] at accepted
  have before := firstRealizes w holds accepted.1
  exact before.trans (secondRealizes _
    (firstRealizes.keeps inductiveOn w holds accepted.1) accepted.2)

/-- So do many items. -/
theorem forEach
    (inductiveOn : InductiveOn registry invariant accept)
    {step : World → α → Traced Effect World} {items : List α}
    (stepRealizes : ∀ item ∈ items,
      Realizes registry invariant accept fun w => step w item) :
    Realizes registry invariant accept fun w =>
      Traced.forEach step w items := by
  induction items with
  | nil => exact fun w _ _ => Steps.refl w
  | cons item items inductionHypothesis =>
      exact (stepRealizes item List.mem_cons_self).andThen inductiveOn
        (inductionHypothesis fun later member =>
          stepRealizes later (List.mem_cons_of_mem item member))

/-- Bookkeeping may follow. -/
theorem mapState
    (realizes : Realizes registry invariant accept first)
    (change : World → World) (agrees : ∀ w, World.Agrees registry w (change w)) :
    Realizes registry invariant accept fun w => (first w).mapState change :=
  fun w holds accepted => (realizes w holds accepted).andAgrees (agrees _)

/-- Doing nothing takes no step. -/
theorem pure :
    Realizes registry invariant accept fun w => Traced.pure w :=
  fun w _ _ => Steps.refl w

theorem ofAgrees (change : World → World)
    (agrees : ∀ w, World.Agrees registry w (change w)) :
    Realizes registry invariant accept fun w => Traced.pure (change w) :=
  fun w _ _ => Steps.agrees (agrees w)

end Realizes
end VortarisECS
