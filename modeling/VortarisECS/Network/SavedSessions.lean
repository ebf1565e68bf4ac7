import VortarisECS.Network.Session
import VortarisECS.Serialization.Resave

/-!
# Saving sessions

The world a session ends in can be saved, and what is saved can be loaded, as
long as its ids are in range and no creation has handed out the id of a live
entity.
-/

namespace VortarisECS
namespace SessionOp

variable {registry : ComponentRegistry} {ops ops' : List SessionOp}
variable {order : List Ptr}

/-- A fresh world loads the save of a session exactly when its live ids are in
range and can be counted. -/
theorem run_loadsBack_iff
    (issuesDead : Traced.Accepted Effect.IssuesDead (run registry ops))
    (counted : registry.schemas.length < 2 ^ 16)
    (sorted : SortedBySignature (run registry ops).state.store order)
    (inMemory : (serializeWorldSnapshot registry (run registry ops).state
      order).data.length < sizeLimit) :
    (run registry ops).state.LoadsBack registry order ↔
      (∀ e, (run registry ops).state.isAlive e = true →
        e.slot < maxPreassignedSlot) ∧
      (run registry ops).state.store.entityLocations.size < 2 ^ 32 := by
  have consistent := (run_stable issuesDead).consistent
  exact World.loadsBack_iff consistent sorted.perm
    (fun e => (World.getEntityComponentTypes_length_le consistent e).trans_lt
      counted) inMemory

/-- Pooled entities, one in use again, and one with a component. -/
theorem run_loadsBack_iff_pooled :
    let w := (run .healthRegistry [.world .createEntityPooled,
      .world (.destroyEntityPooled ⟨1⟩), .world .createEntityPooled,
      .world .createEntity, .world (.addRaw ⟨2⟩ 1 (some [7]))]).state
    w.LoadsBack .healthRegistry [1, 0] ↔
      (∀ e, w.isAlive e = true → e.slot < maxPreassignedSlot) ∧
      w.store.entityLocations.size < 2 ^ 32 :=
  run_loadsBack_iff (by decide) (by decide) ⟨by decide, by decide⟩ (by decide)

/-- The entity created behind a reserved range takes the first slot behind it. -/
theorem run_createEntity_behindRange
    {base : UInt32} (small : base.toNat < maxSlots)
    (real : Entity.ofSlot base.toNat 0 ≠ Entity.null) :
    (run registry [.world (.setEntityRange base), .world .createEntity]).state =
      (((World.empty registry).setSlots
        ⟨List.replicate base.toNat 0 ++ [0], [], []⟩).enterEmpty
        (Entity.ofSlot base.toNat 0)).invalidateCache := by
  have allocated :
      (⟨List.replicate base.toNat 0, [], []⟩ : EntitySlots).allocEntityId =
        (⟨List.replicate base.toNat 0 ++ [0], [], []⟩,
          Entity.ofSlot base.toNat 0) := by
    unfold EntitySlots.allocEntityId EntitySlots.generationOf
    dsimp only
    rw [List.length_replicate, if_neg (Nat.not_le_of_lt small),
      List.getElem?_append_right (by simp), List.length_replicate, Nat.sub_self]
    rfl
  change ((World.empty registry).setSlots
    ⟨List.replicate base.toNat 0, [], []⟩).createEntity.1.state = _
  unfold World.createEntity
  rw [show ((World.empty registry).setSlots
    ⟨List.replicate base.toNat 0, [], []⟩).slots.allocEntityId = _ from
      allocated]
  dsimp only
  rw [if_neg real]
  rfl

/-- A range of 2 ^ 24 slots is accepted, and so is the entity behind it: its id
is saved and refused by every loader. -/
theorem not_run_loadsBack_range :
    let w := (run .healthRegistry
      [.world (.setEntityRange 0x1000000), .world .createEntity]).state
    SortedBySignature w.store [0] ∧ ¬w.LoadsBack .healthRegistry [0] := by
  have range : (0x1000000 : UInt32).toNat = maxPreassignedSlot := rfl
  have real : Entity.ofSlot maxPreassignedSlot 0 ≠ Entity.null :=
    Entity.ofSlot_ne_null (by decide) (by decide)
  have slotEq : (Entity.ofSlot maxPreassignedSlot 0).slot =
      maxPreassignedSlot := Entity.slot_ofSlot (by decide) (by decide)
  dsimp only
  rw [run_createEntity_behindRange (by decide) (by rw [range]; exact real), range]
  generalize Entity.ofSlot maxPreassignedSlot 0 = e at real slotEq
  generalize (⟨List.replicate maxPreassignedSlot 0 ++ [0], [], []⟩ :
    EntitySlots) = slots
  refine ⟨⟨List.Perm.refl _, List.pairwise_singleton _ _⟩, fun loads => ?_⟩
  have entered := World.enterEmpty_consistent (w :=
      (World.empty .healthRegistry).setSlots slots)
    (ArchetypeStore.initial_consistent _) real rfl
  have consistent : (((World.empty .healthRegistry).setSlots slots).enterEmpty
      e).invalidateCache.store.Consistent .healthRegistry := entered
  have small : (serializeWorldSnapshot .healthRegistry
      (((World.empty .healthRegistry).setSlots slots).enterEmpty
        e).invalidateCache [0]).data.length < sizeLimit :=
    (by decide : 16 < sizeLimit)
  obtain ⟨inRange, _⟩ := (World.loadsBack_iff consistent (List.Perm.refl _)
    (fun e => (World.getEntityComponentTypes_length_le consistent e).trans_lt
      (by decide)) small).mp loads
  have alive : (((World.empty .healthRegistry).setSlots slots).enterEmpty
      e).invalidateCache.isAlive e = true :=
    (World.enterEmpty_isAlive (ArchetypeStore.initial_consistent _) real rfl
      e).mpr (Or.inl rfl)
  exact absurd (inRange e alive) (by rw [slotEq]; exact lt_irrefl _)

/-- The save of a session is saved again byte for byte by any session that loads
it. -/
theorem run_resavesSame
    (issuesDead : Traced.Accepted Effect.IssuesDead (run registry ops))
    (issuesDead' : Traced.Accepted Effect.IssuesDead (run registry ops'))
    (sorted : SortedBySignature (run registry ops).state.store order)
    (differ : (run registry ops).state.store.SignaturesDiffer)
    (inRange : ∀ e, (run registry ops).state.isAlive e = true →
      e.slot < maxPreassignedSlot)
    (small : (run registry ops).state.store.entityLocations.size < 2 ^ 32)
    (counted : ∀ e,
      ((run registry ops).state.getEntityComponentTypes e).length < 2 ^ 16)
    (agree : (run registry ops).state.FieldsAgree registry)
    (inMemory : (serializeWorldSnapshot registry (run registry ops).state
      order).data.length < sizeLimit) :
    World.ResavesSame registry (run registry ops).state
      (run registry ops').state order :=
  World.resavesSame (run_stable issuesDead).consistent sorted differ inRange
    small counted agree inMemory (run_stable issuesDead')
    (run_idle registry ops')

/-- Loading a save over a world with entities of its own. -/
theorem run_resavesSame_health :
    World.ResavesSame .healthRegistry
      (run .healthRegistry [.world .createEntity, .world .createEntity,
        .world (.addRaw ⟨1⟩ 1 (some [7]))]).state
      (run .healthRegistry [.world .createEntity,
        .world (.addRaw ⟨1⟩ 1 (some [9]))]).state [1, 0] := by
  have lays : layoutSchema .singlePrecision "Health"
      [{ name := "hp", type := .u8 }] = some _ := rfl
  refine run_resavesSame (by decide) (by decide) ⟨by decide, by decide⟩
    (by decide) (by decide) (by decide) ?_ ?_ (by decide)
  · exact fun e => (World.getEntityComponentTypes_length_le
      (run_stable (by decide)).consistent e).trans_lt (by decide)
  · apply World.fieldsAgree_of_laidOut
    intro schema member
    rw [List.mem_singleton.mp member]
    exact (layoutSchema_laidOut lays (by decide)).1

/-- A slot that is free is claimed from outside and handed out again: the save
has two rows and counts one. -/
theorem not_run_resavesSame_freeSlot :
    let source := (run .healthRegistry [.world .createEntity,
      .world (.destroyEntity ⟨1⟩),
      .world (.createEntityPreassigned 0x100000001),
      .world .createEntity]).state
    SortedBySignature source.store [0] ∧ source.store.SignaturesDiffer ∧
    (∀ e, source.isAlive e = true → e.slot < maxPreassignedSlot) ∧
    ¬World.ResavesSame .healthRegistry source
      (run .healthRegistry []).state [0] := by
  refine ⟨⟨by decide, by decide⟩, by decide, by decide, ?_⟩
  rintro ⟨_, same⟩
  have saved := same [0] ⟨by decide, by decide⟩
  revert saved
  decide

end SessionOp
end VortarisECS
