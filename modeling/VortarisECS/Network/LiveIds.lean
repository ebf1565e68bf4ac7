import VortarisECS.Core.SlotSteps
import VortarisECS.Network.Session

/-!
# Ids of live entities

Two paths hand out ids: the free list, and ids from outside.  They share the slots
without asking each other.  As long as every id from outside claims a slot nobody
uses and the free list does not hold, no live entity is aliased.
-/

namespace VortarisECS
namespace World

variable {registry : ComponentRegistry} {w : World}

/-- In a sound world live entities with one slot are one. -/
theorem Sound.slot_injective
    (sound : w.Sound registry) {e x : Entity} (alive : w.isAlive e = true)
    (alive' : w.isAlive x = true) (sameSlot : x.slot = e.slot) : x = e :=
  sound.slots.owner_unique (Or.inl alive) (Or.inl alive') sameSlot

/-- The entities with a location are those that are alive. -/
theorem mem_keys_iff_isAlive
    (consistent : w.store.Consistent registry) {e : Entity} :
    e ∈ w.store.entityLocations.keys ↔ w.isAlive e = true := by
  rw [AList.mem_keys_iff_lookup_isSome]
  constructor
  · intro located
    obtain ⟨loc, location⟩ := Option.isSome_iff_exists.mp located
    exact isAlive_of_location consistent location
  · intro alive
    obtain ⟨loc, location⟩ := location_of_isAlive alive
    rw [location]
    rfl

/-- A sound world has fewer entities than a 32-bit number can count. -/
theorem Sound.size_lt (sound : w.Sound registry) :
    w.store.entityLocations.size < 2 ^ 32 := by
  have consistent := sound.stable.consistent
  have apart : (w.store.entityLocations.keys.map Entity.slot).Nodup := by
    apply List.Nodup.map_on ?_ w.store.entityLocations.keys_nodup
    intro e member x member' same
    exact sound.slot_injective ((mem_keys_iff_isAlive consistent).mp member')
      ((mem_keys_iff_isAlive consistent).mp member) same
  have inRange : w.store.entityLocations.keys.map Entity.slot ⊆
      List.range w.slots.slotGenerations.length := by
    intro slot member
    obtain ⟨e, eMember, rfl⟩ := List.mem_map.mp member
    exact List.mem_range.mpr (sound.slots.ownedBound e
      (Or.inl ((mem_keys_iff_isAlive consistent).mp eMember)))
  have shorter := (List.subperm_of_subset apart inRange).length_le
  rw [List.length_map, List.length_range] at shorter
  exact shorter.trans_lt sound.slots.lengthBound

/-- A sound world counts its entities without overflow. -/
theorem Sound.entityCount_toNat (sound : w.Sound registry) :
    w.entityCount.toNat = w.store.entityLocations.size := by
  unfold entityCount
  rw [UInt32.toNat_ofNat', Nat.mod_eq_of_lt sound.size_lt]

/-- The next creation does not alias: the id it hands out is dead, no live slot
is free, and the creation adds one entity and leaves the others alone. -/
structure CreatesApart (w : World) : Prop where
  dead : w.createEntity.2 ≠ Entity.null → w.isAlive w.createEntity.2 = false
  notFree : ∀ e, w.isAlive e = true → e.slot ∉ w.slots.freeSlots
  counted : w.createEntity.2 ≠ Entity.null →
    w.createEntity.1.state.entityCount.toNat = w.entityCount.toNat + 1
  untouched : w.createEntity.2 ≠ Entity.null → ∀ e, w.isAlive e = true →
    w.createEntity.1.state.contents e = w.contents e

/-- Live entities with one slot are one. -/
def LiveApart (w : World) : Prop :=
  ∀ e x, w.isAlive e = true → w.isAlive x = true → x.slot = e.slot → x = e

/-- If a live entity occupies the slot of the id, creation under the id is
refused and changes nobody. -/
def RefusesOccupied (w : World) (id : UInt64) : Prop :=
  (∃ e, w.isAlive e = true ∧ e.slot = (Entity.mk id).slot) →
    w.preassignedHandle id = Entity.null ∧
      (w.createEntityPreassigned id).state.contents = w.contents

/-- No two live entities share a slot, and an id whose slot is occupied is
refused. -/
structure OnePerSlot (w : World) : Prop where
  apart : w.LiveApart
  refuses : ∀ id, w.RefusesOccupied id

/-- A creation adds one entity. -/
theorem createEntity_size
    (issued : w.createEntity.2 ≠ Entity.null)
    (dead : w.store.entityLocations.lookup w.createEntity.2 = none) :
    w.createEntity.1.state.store.entityLocations.size =
      w.store.entityLocations.size + 1 := by
  unfold createEntity at issued dead ⊢
  generalize w.slots.allocEntityId = allocated at issued dead ⊢
  obtain ⟨slots, e⟩ := allocated
  dsimp only at issued dead ⊢
  by_cases isNull : e = Entity.null
  · rw [if_pos isNull] at issued
    exact absurd isNull issued
  · rw [if_neg isNull] at dead ⊢
    dsimp only
    rw [(agrees_invalidateCache _ : Agrees {} _ _).store_eq]
    exact AList.size_insert_new _ dead

/-- In a sound world a new id is not alive. -/
theorem Sound.createsApart (sound : w.Sound registry) : w.CreatesApart := by
  have consistent := sound.stable.consistent
  refine ⟨sound.createEntity_dead,
    fun e alive => sound.slots.ownedNotFree e (Or.inl alive), ?_, ?_⟩
  · intro issued
    have steps : Steps registry _ _ _ :=
      createEntity_realizes w sound (createEntity_adoptsFresh w)
    have after : w.createEntity.1.state.Sound registry :=
      steps.keeps (sound_inductiveOn registry) sound (createEntity_adoptsFresh w)
    rw [after.entityCount_toNat, sound.entityCount_toNat]
    exact createEntity_size issued
      (lookup_eq_none_of_dead issued (sound.createEntity_dead issued))
  · intro issued e alive
    rw [createEntity_contents consistent sound.createEntity_dead,
      if_neg issued]
    apply if_neg
    rintro rfl
    rw [sound.createEntity_dead issued] at alive
    exact absurd alive (by simp)

/-- The slot of a live entity is a real one. -/
theorem Sound.slot_ne_last
    (sound : w.Sound registry) {e : Entity} (alive : w.isAlive e = true) :
    e.slot ≠ 2 ^ 32 - 1 := by
  have bound := sound.slots.ownedBound e (Or.inl alive)
  have fits := sound.slots.lengthBound
  omega

/-- Creation under the id of a dead entity is refused exactly out of range. -/
theorem preassignedHandle_eq_null_iff {x : Entity} (real : x ≠ Entity.null)
    (notLast : x.slot ≠ 2 ^ 32 - 1) :
    w.preassignedHandle x.id = Entity.null ↔
      maxPreassignedSlot ≤ x.slot ∨ w.isAlive x = true := by
  unfold preassignedHandle isAlive
  rw [decide_eq_true real, Bool.true_and]
  dsimp only
  rw [if_neg notLast]
  by_cases far : x.slot ≥ maxPreassignedSlot
  · rw [if_pos far]
    exact iff_of_true rfl (Or.inl far)
  · rw [if_neg far]
    by_cases alive : w.store.isAlive x = true
    · rw [if_pos alive]
      exact iff_of_true rfl (Or.inr alive)
    · rw [if_neg alive]
      exact iff_of_false real (not_or.mpr ⟨far, alive⟩)

/-- Live entities of a sound world are in different slots. -/
theorem Sound.liveApart (sound : w.Sound registry) : w.LiveApart :=
  fun _ _ alive alive' same => sound.slot_injective alive alive' same

/-- An id whose slot a live entity occupies is refused exactly if it is the id of
that entity or out of range: another generation of the slot is accepted. -/
theorem Sound.refusesOccupied_iff (sound : w.Sound registry) (id : UInt64) :
    w.RefusesOccupied id ↔ ∀ e, w.isAlive e = true →
      e.slot = (Entity.mk id).slot → e = ⟨id⟩ ∨ maxPreassignedSlot ≤ e.slot := by
  have accepts : ∀ e, w.isAlive e = true → e.slot = (Entity.mk id).slot →
      (w.preassignedHandle id = Entity.null ↔
        e = ⟨id⟩ ∨ maxPreassignedSlot ≤ e.slot) := by
    intro e alive same
    have notLast : (Entity.mk id).slot ≠ 2 ^ 32 - 1 :=
      same ▸ sound.slot_ne_last alive
    have real : (⟨id⟩ : Entity) ≠ Entity.null :=
      fun isNull => notLast (by rw [isNull]; rfl)
    rw [preassignedHandle_eq_null_iff real notLast, same, or_comm]
    refine or_congr_left ⟨fun alive' => ?_, fun self => self ▸ alive⟩
    exact sound.slot_injective alive' alive same
  constructor
  · intro refuses e alive same
    exact (accepts e alive same).mp (refuses ⟨e, alive, same⟩).1
  · rintro condition ⟨e, alive, same⟩
    have refused := (accepts e alive same).mpr (condition e alive same)
    exact ⟨refused, createEntityPreassigned_refused refused⟩

/-- Every slot has a second generation. -/
theorem exists_otherGeneration {e : Entity} (near : e.slot + 1 < 2 ^ 32) :
    ∃ x : Entity, x.slot = e.slot ∧ x ≠ e := by
  by_cases first : e.generation = 0
  · refine ⟨.ofSlot e.slot 1, Entity.slot_ofSlot near (by decide), fun same => ?_⟩
    have generation := Entity.generation_ofSlot near (by decide : 1 < 2 ^ 32)
    rw [same, first] at generation
    exact absurd generation (by decide)
  · refine ⟨.ofSlot e.slot 0, Entity.slot_ofSlot near (by decide), fun same => ?_⟩
    have generation := Entity.generation_ofSlot near (by decide : 0 < 2 ^ 32)
    rw [same] at generation
    exact first generation

/-- As soon as an entity lives in a slot that ids from outside can name, one of
them is accepted for that slot. -/
theorem Sound.onePerSlot_iff (sound : w.Sound registry) :
    w.OnePerSlot ↔ ∀ e, w.isAlive e = true → maxPreassignedSlot ≤ e.slot := by
  constructor
  · intro one e alive
    by_contra near
    have bound : e.slot < 2 ^ 24 := Nat.lt_of_not_le near
    obtain ⟨x, same, other⟩ := exists_otherGeneration (e := e) (by omega)
    obtain isSelf | far := (sound.refusesOccupied_iff x.id).mp (one.refuses x.id)
      e alive same.symm
    · exact other isSelf.symm
    · exact near far
  · intro far
    exact ⟨sound.liveApart, fun id => (sound.refusesOccupied_iff id).mpr
      fun e alive _ => Or.inr (far e alive)⟩

/-- No pooled id is alive or pooled twice, `create_entity` hands out none of them
and `create_entity_pooled` no live id. -/
structure PoolApart (w : World) : Prop where
  dead : ∀ e ∈ w.slots.poolSlots, w.isAlive e = false
  once : w.slots.poolSlots.Nodup
  notCreated : w.createEntity.2 ∉ w.slots.poolSlots
  pooledDead : w.createEntityPooled.2 ≠ Entity.null →
    w.isAlive w.createEntityPooled.2 = false

/-- The null id names no slot, so it is never pooled. -/
theorem Sound.null_not_pooled (sound : w.Sound registry) :
    Entity.null ∉ w.slots.poolSlots := by
  intro inPool
  have bound := sound.slots.ownedBound Entity.null (Or.inr inPool)
  have fits := sound.slots.lengthBound
  rw [null_slot] at bound
  omega

/-- Pooled ids of a sound world are dead. -/
theorem Sound.poolApart (sound : w.Sound registry) : w.PoolApart where
  dead e inPool := Bool.eq_false_iff.mpr (sound.slots.poolDead e inPool)
  once := sound.slots.poolNodup
  notCreated := by
    intro inPool
    rw [createEntity_handle] at inPool
    have bound := sound.slots.ownedBound _ (Or.inr inPool)
    have notFree := sound.slots.ownedNotFree _ (Or.inr inPool)
    obtain ⟨isNull, _⟩ | ⟨idx, bounded, eEq, isLength, _⟩ |
      ⟨idx, rest, bounded, eEq, freeEq, _⟩ :=
        sound.slots.allocates_cases
          (Prod.mk.eta (p := w.slots.allocEntityId)).symm
    · rw [isNull] at inPool
      exact sound.null_not_pooled inPool
    · rw [eEq, Entity.slot_ofSlot bounded (by decide)] at bound
      omega
    · rw [eEq, Entity.slot_ofSlot bounded (sound.slots.generationBound idx),
        freeEq] at notFree
      exact notFree List.mem_cons_self
  pooledDead := by
    unfold createEntityPooled
    cases pool : w.slots.poolSlots with
    | nil => exact sound.createEntity_dead
    | cons e rest =>
        intro _
        apply Bool.eq_false_iff.mpr
        apply sound.slots.poolDead e
        rw [pool]
        exact List.mem_cons_self

end World

/-- An id that a creation hands out is not alive, and an id from outside that is
accepted is not pooled. -/
def Effect.AvoidsOwned : Effect → Prop
  | .issued e before => before.isAlive e = false
  | .adopted e before => e ∉ before.slots.poolSlots
  | _ => True

namespace SessionOp

variable {registry : ComponentRegistry} {ops : List SessionOp}

/-- Along a session in which every accepted id from outside claims a fresh slot,
creations never alias. -/
theorem run_createsApart
    (adoptsFresh : Traced.Accepted Effect.AdoptsFresh (run registry ops)) :
    (run registry ops).state.CreatesApart :=
  (run_sound adoptsFresh).createsApart

/-- An entity destroyed, and one spawned by a packet in a slot of its own. -/
theorem run_createsApart_spawn :
    (run .healthRegistry [.world .createEntity, .world (.destroyEntity ⟨1⟩),
      .applyPacket [] .spawn
        [2, 0, 5, 0, 0, 0, 0, 0, 0, 0, 0, 0]]).state.CreatesApart :=
  run_createsApart (by decide)

/-- An id from outside takes a slot that is free: the next creation hands out
the id again. -/
theorem not_run_createsApart_freeSlot :
    ¬(run .healthRegistry [.world .createEntity, .world (.destroyEntity ⟨1⟩),
      .world (.createEntityPreassigned 0x100000001)]).state.CreatesApart :=
  fun apart => absurd (apart.dead (by decide)) (by decide)

/-- Along a session in which every accepted id from outside claims a fresh slot,
no two live entities share one.  An id whose slot is occupied is refused only if
it is alive itself or out of range, so that not all of them are refused as soon as
an entity lives in a slot in range. -/
theorem run_onePerSlot
    (adoptsFresh : Traced.Accepted Effect.AdoptsFresh (run registry ops)) :
    let w := (run registry ops).state
    w.LiveApart ∧
    (∀ id, w.RefusesOccupied id ↔ ∀ e, w.isAlive e = true →
      e.slot = (Entity.mk id).slot → e = ⟨id⟩ ∨ maxPreassignedSlot ≤ e.slot) ∧
    (w.OnePerSlot ↔ ∀ e, w.isAlive e = true → maxPreassignedSlot ≤ e.slot) :=
  have sound := run_sound adoptsFresh
  ⟨sound.liveApart, sound.refusesOccupied_iff, sound.onePerSlot_iff⟩

/-- An entity created, and one spawned by a packet in a slot of its own. -/
theorem run_onePerSlot_spawn :
    let w := (run .healthRegistry [.world .createEntity, .applyPacket [] .spawn
      [2, 0, 5, 0, 0, 0, 0, 0, 0, 0, 0, 0]]).state
    w.LiveApart ∧
    (∀ id, w.RefusesOccupied id ↔ ∀ e, w.isAlive e = true →
      e.slot = (Entity.mk id).slot → e = ⟨id⟩ ∨ maxPreassignedSlot ≤ e.slot) ∧
    (w.OnePerSlot ↔ ∀ e, w.isAlive e = true → maxPreassignedSlot ≤ e.slot) :=
  run_onePerSlot (by decide)

/-- Occupancy is tested by the whole id: another generation of a live entity's
slot is accepted, and both are alive. -/
theorem not_run_onePerSlot_generation :
    ¬(run .healthRegistry [.world .createEntity]).state.RefusesOccupied
      0x100000001 ∧
    ¬(run .healthRegistry [.world .createEntity,
      .world (.createEntityPreassigned 0x100000001)]).state.LiveApart := by
  refine ⟨fun refuses => ?_, fun one => ?_⟩
  · exact absurd (refuses ⟨⟨1⟩, by decide, by decide⟩).1 (by decide)
  · exact absurd (one ⟨1⟩ ⟨0x100000001⟩ (by decide) (by decide) (by decide))
      (by decide)

/-- Along a session in which every accepted id from outside claims a fresh slot,
pooled ids are exclusive. -/
theorem run_poolApart
    (adoptsFresh : Traced.Accepted Effect.AdoptsFresh (run registry ops)) :
    (run registry ops).state.PoolApart ∧
      Traced.Accepted Effect.AvoidsOwned (run registry ops) := by
  refine ⟨(run_sound adoptsFresh).poolApart, fun effect member => ?_⟩
  have issuesDead := World.Sound.steps_issueDead
    (run_realizes (World.sound_inductiveOn registry) ops _
      (World.empty_sound registry) adoptsFresh)
    (World.empty_sound registry) adoptsFresh effect member
  have fresh := adoptsFresh effect member
  cases effect with
  | issued e before => exact issuesDead
  | adopted e before => exact fun inPool => fresh.2.2 e inPool rfl
  | _ => trivial

/-- A pooled id, and one from outside in a slot of its own. -/
theorem run_poolApart_pooled :
    (run .healthRegistry [.world .createEntity, .world (.destroyEntityPooled ⟨1⟩),
      .world (.createEntityPreassigned 5)]).state.PoolApart ∧
    Traced.Accepted Effect.AvoidsOwned (run .healthRegistry
      [.world .createEntity, .world (.destroyEntityPooled ⟨1⟩),
        .world (.createEntityPreassigned 5)]) :=
  run_poolApart (by decide)

/-- An id from outside may be a pooled one: it comes to life and stays in the
pool. -/
theorem not_run_poolApart_preassigned :
    ¬(run .healthRegistry [.world .createEntity,
      .world (.destroyEntityPooled ⟨1⟩),
      .world (.createEntityPreassigned 1)]).state.PoolApart :=
  fun apart => absurd (apart.dead ⟨1⟩ (by decide)) (by decide)

end SessionOp
end VortarisECS
