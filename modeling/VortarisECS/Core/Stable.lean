import VortarisECS.Core.WorldCells

/-!
# Stable worlds

As long as no creation hands out the id of a live entity, every elementary step
keeps the archetype store consistent.
-/

namespace VortarisECS

/-- A creation handed out an id that was not alive. -/
def Effect.IssuesDead : Effect → Prop
  | .issued e before => before.isAlive e = false
  | _ => True

instance : DecidablePred Effect.IssuesDead
  | .issued e before => inferInstanceAs (Decidable (before.isAlive e = false))
  | .dispatched .. | .adopted .. | .wrote .. | .moved .. | .ranCustomCommand .. =>
      inferInstanceAs (Decidable True)

namespace World

/-- What elementary steps rely on: a consistent store, sound queued operations
and real ids in the pool. -/
structure Stable (registry : ComponentRegistry) (w : World) : Prop where
  consistent : w.store.Consistent registry
  pendingSound : w.PendingSound registry
  poolReal : ∀ e ∈ w.slots.poolSlots, e ≠ Entity.null

/-- A new world is stable. -/
theorem empty_stable (registry : ComponentRegistry) :
    (World.empty registry).Stable registry where
  consistent := ArchetypeStore.initial_consistent registry
  pendingSound _ _ found := absurd found (by simp [World.empty])
  poolReal _ member := absurd member (by simp [World.empty])

variable {registry : ComponentRegistry}

/-- The null entity has no location. -/
theorem real_of_location
    {w : World} (consistent : w.store.Consistent registry)
    {e : Entity} {loc : EntityLocation}
    (location : w.store.entityLocations.lookup e = some loc) :
    e ≠ Entity.null := by
  rintro rfl
  rw [consistent.nullDead] at location
  exact absurd location (by simp)

/-- For a real id, not alive means not located. -/
theorem lookup_eq_none_of_dead
    {w : World} {e : Entity} (real : e ≠ Entity.null)
    (dead : w.isAlive e = false) :
    w.store.entityLocations.lookup e = none := by
  rw [isAlive, decide_eq_true real, Bool.true_and] at dead
  exact Option.not_isSome_iff_eq_none.mp (by
    rw [← Bool.not_eq_true] at dead
    exact dead)

/-- An entity that enters keeps the store consistent. -/
theorem enterEmpty_consistent
    {w : World} (consistent : w.store.Consistent registry) {e : Entity}
    (real : e ≠ Entity.null)
    (dead : w.store.entityLocations.lookup e = none) :
    (w.enterEmpty e).store.Consistent registry :=
  (ArchetypeStore.addTo_attached consistent consistent.emptyListed dead
    w.changeTick).consistent consistent consistent.emptyListed dead real

/-- Allocation leaves the pool alone. -/
theorem allocEntityId_poolSlots
    {slots slots' : EntitySlots} {e : Entity}
    (allocates : slots.allocEntityId = (slots', e)) :
    slots'.poolSlots = slots.poolSlots := by
  have pools : slots.allocEntityId.1.poolSlots = slots.poolSlots := by
    unfold EntitySlots.allocEntityId
    split
    · split <;> rfl
    · rfl
  rw [allocates] at pools
  exact pools

/-- Freeing leaves the pool alone. -/
theorem freeEntityId_poolSlots (slots : EntitySlots) (e : Entity) :
    (slots.freeEntityId e).poolSlots = slots.poolSlots := by
  unfold EntitySlots.freeEntityId
  split
  · rfl
  · split
    · rfl
    · split <;> rfl

/-- The slot below all others. -/
theorem null_slot : Entity.null.slot = 2 ^ 32 - 1 := by decide

/-- The step lemma of stability. -/
theorem stable_step
    {w w' : World} {effects : List Effect} (stable : w.Stable registry)
    (step : Step registry w effects w')
    (accepted : ∀ effect ∈ effects, effect.IssuesDead) :
    w'.Stable registry := by
  have consistent := stable.consistent
  cases step with
  | quiet agrees _ =>
      refine ⟨?_, agrees.pending stable.pendingSound, ?_⟩
      · rw [agrees.store_eq]
        exact consistent
      · rw [agrees.slots_eq]
        exact stable.poolReal
  | grow count => exact ⟨consistent, stable.pendingSound, stable.poolReal⟩
  | @exhaust slots allocates =>
      refine ⟨consistent, stable.pendingSound, ?_⟩
      change ∀ x ∈ slots.poolSlots, x ≠ Entity.null
      rw [allocEntityId_poolSlots allocates]
      exact stable.poolReal
  | @issue e slots issues real =>
      have dead := accepted _ (List.mem_singleton_self _)
      refine ⟨enterEmpty_consistent (w := w.setSlots _) consistent real
        (lookup_eq_none_of_dead real dead), stable.pendingSound, ?_⟩
      change ∀ x ∈ slots.poolSlots, x ≠ Entity.null
      obtain allocates | ⟨pooled, _⟩ := issues
      · rw [allocEntityId_poolSlots allocates]
        exact stable.poolReal
      · intro x member
        apply stable.poolReal
        rw [pooled]
        exact List.mem_cons_of_mem _ member
  | adopt bounded dead =>
      have real : ∀ e : Entity, e.slot < maxPreassignedSlot →
          e ≠ Entity.null := by
        rintro e slotBound rfl
        rw [null_slot] at slotBound
        exact absurd slotBound (by decide)
      refine ⟨enterEmpty_consistent (w := w.setSlots _) consistent
        (real _ bounded) ?_, stable.pendingSound, stable.poolReal⟩
      exact Option.not_isSome_iff_eq_none.mp (Bool.eq_false_iff.mp dead)
  | @leave e loc slots location releases =>
      refine ⟨ArchetypeStore.detach_consistent consistent location,
        stable.pendingSound, ?_⟩
      change ∀ x ∈ slots.poolSlots, x ≠ Entity.null
      obtain rfl | rfl := releases
      · rw [freeEntityId_poolSlots]
        exact stable.poolReal
      · intro x member
        obtain rfl | member := List.mem_cons.mp member
        · exact real_of_location consistent location
        · exact stable.poolReal x member
  | ensure ascending registered =>
      exact ⟨(ArchetypeStore.ensureArchetype_spec consistent ascending
        registered).1, stable.pendingSound, stable.poolReal⟩
  | relocate location listed moves =>
      exact ⟨ArchetypeStore.relocate_consistent consistent location listed moves
        w.changeTick, stable.pendingSound, stable.poolReal⟩
  | @write e loc t bytes location present sized =>
      obtain ⟨slotsEq, _, pendingEq, _⟩ :=
        writeComponent_frame w e loc t bytes
      refine ⟨writeComponent_consistent consistent location present sized, ?_, ?_⟩
      · unfold PendingSound
        rw [pendingEq]
        exact stable.pendingSound
      · rw [slotsEq]
        exact stable.poolReal
  | @mark e loc t location present =>
      obtain ⟨slotsEq, _, pendingEq, _⟩ := markRow_frame w e loc t
      refine ⟨markRow_consistent consistent location present, ?_, ?_⟩
      · unfold PendingSound
        rw [pendingEq]
        exact stable.pendingSound
      · rw [slotsEq]
        exact stable.poolReal
  | rawWrite location present sized =>
      exact ⟨overwrite_consistent consistent location present sized,
        stable.pendingSound, stable.poolReal⟩
  | compact =>
      exact ⟨ArchetypeStore.compact_consistent consistent, stable.pendingSound,
        stable.poolReal⟩
  | rehash order =>
      exact ⟨ArchetypeStore.rehash_consistent consistent order,
        stable.pendingSound, stable.poolReal⟩
  | clearLog => exact ⟨consistent, stable.pendingSound, stable.poolReal⟩

/-- Stability is kept by every step that hands out no live id. -/
theorem stable_inductiveOn (registry : ComponentRegistry) :
    InductiveOn registry (Stable registry) Effect.IssuesDead where
  consistent _ stable := stable.consistent
  pendingSound _ stable := stable.pendingSound
  poolReal _ stable := stable.poolReal
  step _ _ _ stable step accepted := stable_step stable step accepted

end World
end VortarisECS
