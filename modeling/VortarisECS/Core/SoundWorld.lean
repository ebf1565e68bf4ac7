import VortarisECS.Core.Allocator

/-!
# Sound worlds

A sound world has a consistent archetype store and an allocator that agrees with
it about who is alive.
-/

namespace VortarisECS

namespace World

/-- Only located entities are alive, so finitely many have to be looked at. -/
instance (w : World) (p : Entity → Prop) [DecidablePred p] :
    Decidable (∀ e, w.isAlive e = true → p e) :=
  decidable_of_iff
    (∀ e ∈ w.store.entityLocations.keys, w.isAlive e = true → p e)
    ⟨fun each e alive => each e (AList.mem_keys_iff_lookup_isSome.mpr
      (Bool.and_eq_true_iff.mp alive).2) alive, fun each e _ => each e⟩

/-- No live or pooled id uses the slot, and it is not free either. -/
def FreshSlot (w : World) (slot : Nat) : Prop :=
  slot ∉ w.slots.freeSlots ∧
    (∀ e, w.isAlive e = true → e.slot ≠ slot) ∧
    ∀ e ∈ w.slots.poolSlots, e.slot ≠ slot

instance (w : World) (slot : Nat) : Decidable (w.FreshSlot slot) :=
  inferInstanceAs (Decidable (_ ∧ _ ∧ _))

end World

/-- An accepted id from outside claimed a slot nobody owned. -/
def Effect.AdoptsFresh : Effect → Prop
  | .adopted e before => before.FreshSlot e.slot
  | _ => True

instance : DecidablePred Effect.AdoptsFresh
  | .adopted e before => inferInstanceAs (Decidable (before.FreshSlot e.slot))
  | .dispatched .. | .issued .. | .wrote .. | .moved .. | .ranCustomCommand .. =>
      inferInstanceAs (Decidable True)

namespace World

/-- A stable world whose allocator knows the entities that are alive. -/
structure Sound (registry : ComponentRegistry) (w : World) : Prop where
  stable : w.Stable registry
  slots : w.slots.Sound fun e => w.isAlive e = true

variable {registry : ComponentRegistry} {w w' : World}

/-- A new world has no entities. -/
theorem empty_isAlive (registry : ComponentRegistry) (e : Entity) :
    (World.empty registry).isAlive e = false := by
  rw [isAlive, show (World.empty registry).store.isAlive e = false from rfl,
    Bool.and_false]

/-- A new world is sound. -/
theorem empty_sound (registry : ComponentRegistry) :
    (World.empty registry).Sound registry where
  stable := empty_stable registry
  slots := by
    have nobody : ∀ e, ¬((World.empty registry).isAlive e = true ∨
        e ∈ (World.empty registry).slots.poolSlots) := by
      rintro e (alive | inPool)
      · rw [empty_isAlive] at alive
        exact absurd alive (by simp)
      · exact absurd inPool (by simp [World.empty])
    exact ⟨by simp [World.empty],
      fun slot => by simp [World.empty, EntitySlots.generationOf],
      List.nodup_nil, fun slot member => absurd member (by simp [World.empty]),
      fun e owned => absurd owned (nobody e),
      fun e owned => absurd owned (nobody e),
      fun e owned => absurd owned (nobody e), List.nodup_nil,
      fun e inPool => absurd (Or.inr inPool) (nobody e)⟩

/-! ## Who is alive after each step -/

/-- Who is alive depends on the locations. -/
theorem isAlive_congr (same : w'.store.entityLocations = w.store.entityLocations)
    (e : Entity) : w'.isAlive e = w.isAlive e := by
  unfold isAlive ArchetypeStore.isAlive
  rw [same]

/-- Of all entities, the one that enters comes to life. -/
theorem enterEmpty_isAlive
    (consistent : w.store.Consistent registry) {e : Entity}
    (real : e ≠ Entity.null)
    (dead : w.store.entityLocations.lookup e = none) (x : Entity) :
    (w.enterEmpty e).isAlive x = true ↔ x = e ∨ w.isAlive x = true := by
  have attached := ArchetypeStore.addTo_attached consistent
    consistent.emptyListed dead w.changeTick
  unfold isAlive
  rw [show (w.enterEmpty e).store.isAlive x =
    (decide (x = e) || w.store.isAlive x) from attached.isAlive x]
  by_cases isSelf : x = e
  · simp [isSelf, real]
  · simp [isSelf]

/-- Of all entities, the one that leaves dies. -/
theorem leave_isAlive
    (consistent : w.store.Consistent registry) {e : Entity}
    {loc : EntityLocation}
    (location : w.store.entityLocations.lookup e = some loc)
    (slots : EntitySlots) (x : Entity) :
    ((w.setStore (w.store.detach e loc)).setSlots slots).isAlive x = true ↔
      x ≠ e ∧ w.isAlive x = true := by
  unfold isAlive
  rw [show ((w.setStore (w.store.detach e loc)).setSlots
      slots).store.isAlive x = (decide (x ≠ e) && w.store.isAlive x) from
    ArchetypeStore.detach_isAlive consistent location x]
  by_cases isSelf : x = e
  · simp [isSelf]
  · simp [isSelf]

/-- A move leaves everybody alive. -/
theorem relocate_isAlive
    (consistent : w.store.Consistent registry) {e : Entity}
    {loc : EntityLocation} {target : Ptr}
    (location : w.store.entityLocations.lookup e = some loc)
    (listed : target ∈ w.store.archetypeList)
    (moves : loc.archetype ≠ target) (x : Entity) :
    (w.setStore (w.store.relocate registry e loc target
      w.changeTick).1).isAlive x = w.isAlive x := by
  unfold isAlive
  rw [show (w.setStore (w.store.relocate registry e loc target
      w.changeTick).1).store.isAlive x = w.store.isAlive x from
    ArchetypeStore.relocate_isAlive consistent location listed moves
      w.changeTick x]

/-! ## The step lemma -/

/-- In a sound world a creation hands out a dead id. -/
theorem Sound.issuesDead
    {effects : List Effect} (sound : w.Sound registry)
    (step : Step registry w effects w') :
    ∀ effect ∈ effects, effect.IssuesDead := by
  intro effect member
  cases step with
  | quiet _ announces =>
      have announced := announces effect member
      cases effect <;> trivial
  | issue issues real =>
      rw [List.mem_singleton] at member
      subst member
      exact Bool.eq_false_iff.mpr (sound.slots.issued_dead issues real)
  | adopt _ _ =>
      rw [List.mem_singleton] at member
      subst member
      trivial
  | relocate _ _ _ =>
      rw [List.mem_singleton] at member
      subst member
      trivial
  | write _ _ _ =>
      rw [List.mem_singleton] at member
      subst member
      trivial
  | mark _ _ =>
      rw [List.mem_singleton] at member
      subst member
      trivial
  | _ => exact absurd member (by simp)

/-- An allocator that is used up stays as it is. -/
theorem Sound.exhaust
    {slots : EntitySlots} (sound : w.slots.Sound fun e => w.isAlive e = true)
    (allocates : w.slots.allocEntityId = (slots, Entity.null)) :
    slots = w.slots := by
  obtain ⟨_, same⟩ | ⟨idx, bounded, isNull, _⟩ | ⟨idx, rest, bounded, isNull, _⟩
    := sound.allocates_cases allocates
  · exact same
  · exact absurd isNull.symm (Entity.ofSlot_ne_null bounded (by decide))
  · exact absurd isNull.symm
      (Entity.ofSlot_ne_null bounded (sound.generationBound idx))

/-- The step lemma of soundness. -/
theorem sound_step
    {effects : List Effect} (sound : w.Sound registry)
    (step : Step registry w effects w')
    (accepted : ∀ effect ∈ effects, effect.AdoptsFresh) :
    w'.Sound registry := by
  have issuesDead := sound.issuesDead step
  refine ⟨stable_step sound.stable step issuesDead, ?_⟩
  have consistent := sound.stable.consistent
  cases step with
  | quiet agrees _ =>
      rw [agrees.slots_eq]
      exact sound.slots.congr fun e => by
        rw [isAlive_congr (congrArg _ agrees.store_eq)]
  | grow count bounded => exact sound.slots.growTo bounded
  | exhaust allocates =>
      rw [Sound.exhaust sound.slots allocates]
      exact sound.slots
  | issue issues real =>
      have dead := lookup_eq_none_of_dead real
        (issuesDead _ (List.mem_singleton_self _))
      exact (sound.slots.issue issues real).congr
        (enterEmpty_isAlive (w := w.setSlots _) consistent real dead)
  | @adopt e bounded dead =>
      obtain ⟨notFree, notLive, notPooled⟩ :=
        accepted _ (List.mem_singleton_self _)
      have real : e ≠ Entity.null := by
        rintro rfl
        rw [null_slot] at bounded
        exact absurd bounded (by decide)
      have notLocated : w.store.entityLocations.lookup e = none :=
        Option.not_isSome_iff_eq_none.mp (Bool.eq_false_iff.mp dead)
      exact (sound.slots.adopt bounded notFree notLive notPooled).congr
        (enterEmpty_isAlive (w := w.setSlots _) consistent real notLocated)
  | @leave e loc slots location releases =>
      have alive : w.isAlive e = true := by
        rw [isAlive, decide_eq_true (real_of_location consistent location),
          Bool.true_and]
        exact ArchetypeStore.isAlive_iff.mpr ⟨loc, location⟩
      exact (sound.slots.release alive releases).congr
        (leave_isAlive consistent location slots)
  | ensure ascending registered =>
      obtain ⟨_, extends', _⟩ := ArchetypeStore.ensureArchetype_spec consistent
        ascending registered
      exact sound.slots.congr fun e => by
        rw [isAlive_congr extends'.locations_eq]
  | relocate location listed moves =>
      exact sound.slots.congr fun e => by
        rw [relocate_isAlive consistent location listed moves]
  | @write e loc t bytes _ _ _ =>
      rw [(writeComponent_frame w e loc t bytes).1]
      exact sound.slots.congr fun x => by rw [writeComponent_isAlive]
  | @mark e loc t _ _ =>
      rw [(markRow_frame w e loc t).1]
      exact sound.slots.congr fun x => by
        rw [isAlive_congr (markRow_entityLocations w e loc t)]
  | rawWrite _ _ _ => exact sound.slots
  | compact => exact sound.slots
  | rehash order =>
      exact sound.slots.congr fun e => by
        unfold isAlive
        rw [show (w.setStore (w.store.rehash order)).store.isAlive e =
          w.store.isAlive e from ArchetypeStore.rehash_isAlive _ _ _]
  | clearLog => exact sound.slots

/-- Soundness is kept by every step that adopts only fresh ids. -/
theorem sound_inductiveOn (registry : ComponentRegistry) :
    InductiveOn registry (Sound registry) Effect.AdoptsFresh where
  consistent _ sound := sound.stable.consistent
  pendingSound _ sound := sound.stable.pendingSound
  poolReal _ sound := sound.stable.poolReal
  step _ _ _ sound step accepted := sound_step sound step accepted

/-- Along a run of elementary steps from a sound world, every creation hands out
a dead id. -/
theorem Sound.steps_issueDead
    {effects : List Effect} (steps : Steps registry w effects w')
    (sound : w.Sound registry)
    (accepted : ∀ effect ∈ effects, effect.AdoptsFresh) :
    ∀ effect ∈ effects, effect.IssuesDead := by
  induction steps with
  | refl => exact fun _ member => absurd member (by simp)
  | tail before step inductionHypothesis =>
      have acceptedBefore := fun effect member =>
        accepted effect (List.mem_append_left _ member)
      have middle := before.keeps (sound_inductiveOn registry) sound
        acceptedBefore
      intro effect member
      obtain member | member := List.mem_append.mp member
      · exact inductionHypothesis acceptedBefore effect member
      · exact middle.issuesDead step effect member

end World
end VortarisECS
