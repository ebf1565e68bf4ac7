import VortarisECS.Core.FiniteMap
import VortarisECS.Core.SlotSteps

/-!
# Stale handles

Without ids from outside and without pooling, an id is handed out once.  Ids that
were handed out are spent: their slot has moved on to a later generation, or it
has their generation and is not free, be it in use or retired.
-/

namespace VortarisECS

namespace EntitySlots

variable {slots slots' : EntitySlots} {e x : Entity}

/-- No allocation will hand out the id. -/
def Spent (slots : EntitySlots) (e : Entity) : Prop :=
  e.slot < slots.slotGenerations.length ∧
    (e.generation < slots.generationOf e.slot ∨
      e.generation = slots.generationOf e.slot ∧ e.slot ∉ slots.freeSlots)

/-- Spent ids stay spent when slots are added. -/
theorem Spent.growTo (spent : slots.Spent e) (count : Nat) :
    (slots.growTo count).Spent e := by
  unfold Spent
  rw [generationOf_growTo, length_growTo]
  exact ⟨lt_max_of_lt_left spent.1, spent.2⟩

/-- Taking an id back leaves spent ids spent, also where the slot is retired. -/
theorem Spent.freeEntityId (spent : slots.Spent e) (x : Entity) :
    (slots.freeEntityId x).Spent e := by
  obtain ⟨inRange, passed⟩ := spent
  unfold EntitySlots.freeEntityId
  split
  · exact ⟨inRange, passed⟩
  · rename_i freed
    rw [not_le] at freed
    split
    · exact ⟨inRange, passed⟩
    · rename_i current
      rw [not_not] at current
      split
      · rename_i last
        have setEq := generationOf_set freed (2 ^ 32 - 1)
        unfold Spent
        rw [setEq, List.length_set]
        split
        · rename_i same
          rw [same, current, last] at passed
          exact ⟨inRange, passed.imp_right fun both => ⟨both.1, by
            rw [same]; exact both.2⟩⟩
        · exact ⟨inRange, passed⟩
      · have setEq := generationOf_set freed (x.generation + 1)
        have later : ∀ generations, ({ slots with
            slotGenerations := generations
            freeSlots := x.slot :: slots.freeSlots } :
              EntitySlots).generationOf e.slot =
            ({ slots with slotGenerations := generations } :
              EntitySlots).generationOf e.slot := fun _ => rfl
        unfold Spent
        rw [later, setEq, List.length_set]
        refine ⟨inRange, ?_⟩
        split
        · rename_i same
          rw [same, current] at passed
          exact Or.inl (by omega)
        · rename_i other
          exact passed.imp_right fun both => ⟨both.1, fun member =>
            (List.mem_cons.mp member).elim other both.2⟩

/-- An allocation leaves spent ids spent. -/
theorem Spent.alloc (spent : slots.Spent e) :
    slots.allocEntityId.1.Spent e := by
  obtain ⟨inRange, passed⟩ := spent
  unfold EntitySlots.allocEntityId
  split
  · split
    · exact ⟨inRange, passed⟩
    · dsimp only
      rw [← growTo_succ]
      exact Spent.growTo ⟨inRange, passed⟩ _
  · rename_i idx rest freeEq
    refine ⟨inRange, passed.imp_right fun both => ⟨both.1, fun member => ?_⟩⟩
    apply both.2
    rw [freeEq]
    exact List.mem_cons_of_mem idx member

/-- What an allocation hands out was not spent before and is spent after it. -/
theorem Sound.alloc_spends
    {live : Entity → Prop} (sound : slots.Sound live)
    (issued : slots.allocEntityId.2 ≠ Entity.null) :
    ¬slots.Spent slots.allocEntityId.2 ∧
      slots.allocEntityId.1.Spent slots.allocEntityId.2 := by
  have after := sound.issue (Or.inl (Prod.mk.eta (p := slots.allocEntityId)).symm)
    issued
  refine ⟨?_, after.ownedBound _ (Or.inl (Or.inl rfl)),
    Or.inr ⟨(after.ownedGeneration _ (Or.inl (Or.inl rfl))).symm,
      after.ownedNotFree _ (Or.inl (Or.inl rfl))⟩⟩
  rintro ⟨inRange, passed⟩
  obtain ⟨isNull, _⟩ | ⟨idx, bounded, eEq, isLength, _⟩ |
    ⟨idx, rest, bounded, eEq, freeEq, _⟩ :=
      sound.allocates_cases (Prod.mk.eta (p := slots.allocEntityId)).symm
  · exact issued isNull
  · rw [eEq, Entity.slot_ofSlot bounded (by decide)] at inRange
    omega
  · have generationBound := sound.generationBound idx
    rw [eEq, Entity.slot_ofSlot bounded generationBound,
      Entity.generation_ofSlot bounded generationBound, freeEq] at passed
    obtain passed | ⟨_, notFree⟩ := passed
    · exact absurd passed (lt_irrefl _)
    · exact notFree List.mem_cons_self

end EntitySlots

namespace World

variable {registry : ComponentRegistry} {w w' : World}

/-- An elementary step that creates nothing leaves spent ids spent and brings
nobody to life. -/
theorem Sound.step_createsNothing
    {effects : List Effect} (sound : w.Sound registry)
    (step : Step registry w effects w')
    (nothing : ∀ effect ∈ effects, effect.NotCreation) :
    (∀ e, w.slots.Spent e → w'.slots.Spent e) ∧
      ∀ e, w'.isAlive e = true → w.isAlive e = true := by
  have consistent := sound.stable.consistent
  cases step with
  | quiet agrees _ =>
      rw [agrees.slots_eq]
      exact ⟨fun _ spent => spent, fun e alive => by
        rwa [isAlive_congr (congrArg _ agrees.store_eq)] at alive⟩
  | grow count bounded =>
      exact ⟨fun _ spent => spent.growTo count, fun _ alive => alive⟩
  | exhaust allocates =>
      rw [Sound.exhaust sound.slots allocates]
      exact ⟨fun _ spent => spent, fun _ alive => alive⟩
  | issue issues real =>
      exact (nothing _ (List.mem_singleton_self _)).elim
  | adopt bounded dead =>
      exact (nothing _ (List.mem_singleton_self _)).elim
  | @leave e loc slots location releases =>
      refine ⟨fun x spent => ?_, fun x alive =>
        ((leave_isAlive consistent location slots x).mp alive).2⟩
      obtain rfl | rfl := releases
      · exact spent.freeEntityId e
      · exact spent
  | ensure ascending registered =>
      obtain ⟨_, extends', _⟩ := ArchetypeStore.ensureArchetype_spec consistent
        ascending registered
      exact ⟨fun _ spent => spent, fun e alive => by
        rwa [isAlive_congr extends'.locations_eq] at alive⟩
  | relocate location listed moves =>
      exact ⟨fun _ spent => spent, fun e alive => by
        rwa [relocate_isAlive consistent location listed moves] at alive⟩
  | @write e loc t bytes _ _ _ =>
      rw [(writeComponent_frame w e loc t bytes).1]
      exact ⟨fun _ spent => spent, fun x alive => by
        rwa [writeComponent_isAlive] at alive⟩
  | @mark e loc t _ _ =>
      rw [(markRow_frame w e loc t).1]
      exact ⟨fun _ spent => spent, fun x alive => by
        rwa [isAlive_congr (markRow_entityLocations w e loc t)] at alive⟩
  | rawWrite location present sized =>
      exact ⟨fun _ spent => spent, fun x alive => by
        rwa [isAlive_congr (modifyColumn_entityLocations ..)] at alive⟩
  | compact => exact ⟨fun _ spent => spent, fun _ alive => alive⟩
  | rehash order =>
      refine ⟨fun _ spent => spent, fun e alive => ?_⟩
      unfold isAlive at alive ⊢
      rwa [show (w.setStore (w.store.rehash order)).store.isAlive e =
        w.store.isAlive e from ArchetypeStore.rehash_isAlive _ _ _] at alive
  | clearLog => exact ⟨fun _ spent => spent, fun _ alive => alive⟩

/-- What creates nothing neither returns a spent id nor wakes the dead. -/
theorem Sound.steps_createNothing
    {effects : List Effect} (sound : w.Sound registry)
    (steps : Steps registry w effects w')
    (nothing : ∀ effect ∈ effects, effect.NotCreation) :
    (∀ e, w.slots.Spent e → w'.slots.Spent e) ∧
      ∀ e, w'.isAlive e = true → w.isAlive e = true := by
  induction steps with
  | refl => exact ⟨fun _ spent => spent, fun _ alive => alive⟩
  | tail before step inductionHypothesis =>
      have first := fun effect member =>
        nothing effect (List.mem_append_left _ member)
      obtain ⟨spentBefore, aliveBefore⟩ := inductionHypothesis first
      have middle := before.keeps (sound_inductiveOn registry) sound
        fun effect member => (first effect member).adoptsFresh
      obtain ⟨spentAfter, aliveAfter⟩ := middle.step_createsNothing step
        fun effect member => nothing effect (List.mem_append_right _ member)
      exact ⟨fun e spent => spentAfter e (spentBefore e spent),
        fun e alive => aliveBefore e (aliveAfter e alive)⟩

/-- What `create_entity` returns was not spent before and is spent after it, and
nobody else comes to life. -/
theorem Sound.createEntity_spends (sound : w.Sound registry) :
    (w.createEntity.2 ≠ Entity.null →
      ¬w.slots.Spent w.createEntity.2 ∧
        w.createEntity.1.state.slots.Spent w.createEntity.2) ∧
    (∀ e, w.slots.Spent e → w.createEntity.1.state.slots.Spent e) ∧
    ∀ e, w.createEntity.1.state.isAlive e = true →
      (w.createEntity.2 ≠ Entity.null ∧ e = w.createEntity.2) ∨
        w.isAlive e = true := by
  have slotsEq : w.createEntity.1.state.slots = w.slots.allocEntityId.1 := by
    unfold createEntity
    dsimp only
    split
    · rfl
    · exact slots_invalidateCache _
  rw [slotsEq]
  refine ⟨fun issued => ?_, fun e spent => spent.alloc, fun e alive => ?_⟩
  · rw [createEntity_handle] at issued ⊢
    exact sound.slots.alloc_spends issued
  · rw [← contents_isSome, createEntity_contents sound.stable.consistent
      sound.createEntity_dead] at alive
    by_cases issued : w.createEntity.2 = Entity.null
    · rw [if_pos issued, contents_isSome] at alive
      exact Or.inr alive
    · rw [if_neg issued] at alive
      by_cases isSelf : e = w.createEntity.2
      · exact Or.inl ⟨issued, isSelf⟩
      · rw [Contents.spawn, if_neg isSelf, contents_isSome] at alive
        exact Or.inr alive

end World

namespace WorldOp

variable {registry : ComponentRegistry}

/-- The operation brings no id from outside and pools none. -/
def IsPlain : WorldOp → Prop
  | createEntityPreassigned _ => False
  | createEntityPooled => False
  | destroyEntityPooled _ => False
  | executeBuffer ops => ∀ e, Command.addEntity e ∉ ops
  | _ => True

/-- Plain operations give no ids. -/
theorem IsPlain.preassignsNothing {op : WorldOp} (plain : op.IsPlain) :
    op.PreassignsNothing := by
  cases op with
  | createEntityPreassigned id => exact plain
  | executeBuffer ops => exact plain
  | _ => trivial

/-- The ids that the `create_entity` calls of a run return. -/
def returned (registry : ComponentRegistry) : World → List WorldOp → List Entity
  | _, [] => []
  | w, op :: ops =>
      (match op with
        | createEntity => [w.createEntity.2]
        | _ => []) ++ returned registry (op.apply registry w).state ops

/-- Apart from creations, plain operations create nothing. -/
theorem apply_createsNothing
    {op : WorldOp} (plain : op.IsPlain) (other : op ≠ createEntity) (w : World) :
    World.CreatesNothing (op.apply registry w) := by
  cases op with
  | createEntity => exact absurd rfl other
  | createEntityPreassigned id => exact plain.elim
  | createEntityPooled => exact plain.elim
  | destroyEntity e => exact World.destroyEntity_createsNothing w e
  | destroyEntityPooled e => exact plain.elim
  | addRaw e t data => exact World.addRaw_createsNothing w e t data
  | removeComponent e t => exact World.removeComponent_createsNothing w e t
  | markChanged e t field => exact World.markChanged_createsNothing w e t field
  | setField e t name value =>
      exact World.setField_createsNothing w e t name value
  | executeBuffer ops => exact World.executeBuffer_createsNothing w plain
  | clear => exact World.clear_createsNothing w
  | _ => exact Traced.accepted_pure _ _

/-- What a plain operation does to spent ids. -/
theorem IsPlain.keepsSpent
    {op : WorldOp} (plain : op.IsPlain) {w : World} (sound : w.Sound registry) :
    (op.apply registry w).state.Sound registry ∧
    ∀ e, w.slots.Spent e → (op.apply registry w).state.slots.Spent e ∧
      (w.isAlive e = false →
        (op.apply registry w).state.isAlive e = false) := by
  have realizes := apply_realizes (World.sound_inductiveOn registry) op
  have adoptsFresh : Traced.Accepted Effect.AdoptsFresh (op.apply registry w) :=
    apply_adoptsFresh plain.preassignsNothing w
  refine ⟨realizes.keeps (World.sound_inductiveOn registry) w sound adoptsFresh,
    fun e spent => ?_⟩
  by_cases creates : op = createEntity
  · subst creates
    obtain ⟨fresh, keeps, alive⟩ := sound.createEntity_spends
    refine ⟨keeps e spent, fun dead => ?_⟩
    rw [← Bool.not_eq_true] at dead ⊢
    intro aliveNow
    obtain ⟨issued, rfl⟩ | old := alive e aliveNow
    · exact (fresh issued).1 spent
    · exact dead old
  · have nothing : World.CreatesNothing (op.apply registry w) :=
      apply_createsNothing plain creates w
    obtain ⟨keeps, alive⟩ :=
      sound.steps_createNothing (realizes w sound adoptsFresh) nothing
    refine ⟨keeps e spent, fun dead => ?_⟩
    rw [← Bool.not_eq_true] at dead ⊢
    exact mt (alive e) dead

/-- A spent id that is dead stays dead, and is not returned again. -/
theorem plain_spent
    {ops : List WorldOp} (plain : ∀ op ∈ ops, op.IsPlain) {w : World}
    (sound : w.Sound registry) {e : Entity} (spent : w.slots.Spent e) :
    (e ≠ Entity.null → e ∉ returned registry w ops) ∧
    (Traced.forEach (apply registry) w ops).state.slots.Spent e ∧
    (w.isAlive e = false →
      (Traced.forEach (apply registry) w ops).state.isAlive e = false) := by
  induction ops generalizing w with
  | nil => exact ⟨fun _ => List.not_mem_nil, spent, fun dead => dead⟩
  | cons op ops inductionHypothesis =>
      have plainHere := plain op List.mem_cons_self
      obtain ⟨next, keeps⟩ := plainHere.keepsSpent sound
      obtain ⟨spentNext, deadNext⟩ := keeps e spent
      obtain ⟨unreturned, staysSpent, stays⟩ := inductionHypothesis
        (fun later member => plain later (List.mem_cons_of_mem op member)) next
        spentNext
      refine ⟨fun real member => ?_, staysSpent,
        fun dead => stays (deadNext dead)⟩
      unfold returned at member
      obtain here | later := List.mem_append.mp member
      · cases op with
        | createEntity =>
            obtain rfl := List.mem_singleton.mp here
            exact (sound.createEntity_spends.1 real).1 spent
        | _ => exact absurd here List.not_mem_nil
      · exact unreturned real later

/-- The ids that a plain run returns are all different. -/
theorem returned_nodup
    {ops : List WorldOp} (plain : ∀ op ∈ ops, op.IsPlain) {w : World}
    (sound : w.Sound registry) :
    ((returned registry w ops).filter (· ≠ Entity.null)).Nodup := by
  induction ops generalizing w with
  | nil => exact List.nodup_nil
  | cons op ops inductionHypothesis =>
      have plainHere := plain op List.mem_cons_self
      have plainLater := fun later member =>
        plain later (List.mem_cons_of_mem op member)
      have next := (plainHere.keepsSpent sound).1
      have later := inductionHypothesis plainLater next
      unfold returned
      cases op with
      | createEntity =>
          rw [List.singleton_append]
          by_cases real : w.createEntity.2 ≠ Entity.null
          · rw [List.filter_cons_of_pos (by simpa using real)]
            refine List.nodup_cons.mpr ⟨fun member => ?_, later⟩
            have spent := (sound.createEntity_spends.1 real).2
            exact (plain_spent plainLater next spent).1 real
              (List.mem_of_mem_filter member)
          · rw [List.filter_cons_of_neg (by simpa using real)]
            exact later
      | _ => exact later

/-- An id that was returned is spent from then on. -/
theorem returned_spent
    {ops : List WorldOp} (plain : ∀ op ∈ ops, op.IsPlain) {w : World}
    (sound : w.Sound registry) {e : Entity} (real : e ≠ Entity.null)
    (member : e ∈ returned registry w ops) :
    (Traced.forEach (apply registry) w ops).state.slots.Spent e := by
  induction ops generalizing w with
  | nil => exact absurd member List.not_mem_nil
  | cons op ops inductionHypothesis =>
      have plainLater := fun later member =>
        plain later (List.mem_cons_of_mem op member)
      have next := ((plain op List.mem_cons_self).keepsSpent sound).1
      unfold returned at member
      obtain here | later := List.mem_append.mp member
      · cases op with
        | createEntity =>
            obtain rfl := List.mem_singleton.mp here
            have spent := (sound.createEntity_spends.1 real).2
            exact (plain_spent plainLater next spent).2.1
        | _ => exact absurd here List.not_mem_nil
      · exact inductionHypothesis plainLater next later

/-- Along a plain run no id is returned twice, and a returned id that is dead at
some point is dead ever after. -/
theorem run_staleHandles
    {ops : List WorldOp} (plain : ∀ op ∈ ops, op.IsPlain) :
    ((returned registry (World.empty registry) ops).filter
      (· ≠ Entity.null)).Nodup ∧
    ∀ before after, ops = before ++ after →
      ∀ e ∈ returned registry (World.empty registry) before, e ≠ Entity.null →
      (run registry before).state.isAlive e = false →
      (run registry ops).state.isAlive e = false := by
  have fresh := World.empty_sound registry
  refine ⟨returned_nodup plain fresh, ?_⟩
  rintro before after rfl e member real dead
  have plainBefore := fun op inBefore =>
    plain op (List.mem_append_left after inBefore)
  have plainAfter := fun op inAfter =>
    plain op (List.mem_append_right before inAfter)
  have sound : (run registry before).state.Sound registry :=
    run_sound fun op inBefore => (plainBefore op inBefore).preassignsNothing
  have spent := returned_spent plainBefore fresh real member
  unfold run at dead sound ⊢
  rw [Traced.forEach_append_state]
  exact (plain_spent plainAfter sound spent).2.2 dead

/-- A slot used three times. -/
theorem run_staleHandles_recycled :
    let ops := [createEntity, destroyEntity ⟨1⟩, createEntity, clear,
      createEntity]
    ((returned .healthRegistry (World.empty .healthRegistry) ops).filter
      (· ≠ Entity.null)).Nodup ∧
    ∀ before after, ops = before ++ after →
      ∀ e ∈ returned .healthRegistry (World.empty .healthRegistry) before,
      e ≠ Entity.null → (run .healthRegistry before).state.isAlive e = false →
      (run .healthRegistry ops).state.isAlive e = false :=
  run_staleHandles (by simp [IsPlain])

end WorldOp
end VortarisECS
