import VortarisECS.Core.SlotSteps
import VortarisECS.Network.Session

/-!
# Reserved ranges of ids

`set_entity_range` keeps the slots below a base for ids from elsewhere.  It only
makes the array of generations longer: a new slot is never below the base, but a
slot that was freed is handed out again wherever it lies.
-/

namespace VortarisECS

variable {registry : ComponentRegistry}

/-- Whatever is built changes the allocator by its steps only. -/
theorem Builds.allocates
    {w w' : World} {effects : List Effect}
    (builds : Builds registry w effects w') : SlotSteps w.slots w'.slots := by
  induction builds with
  | refl w => exact .refl
  | create w id => exact World.createEntityPreassigned_allocates id w
  | destroy w e => exact World.destroyEntity_allocates e w
  | add w e t => exact .of_eq (World.addRaw_slots w e t none)
  | write _ _ => exact .of_eq (World.writeRaw_slots _ _ _ _)
  | clear w => exact World.clear_allocates w
  | trans _ _ first second => exact first.trans second

namespace SessionOp

/-- Every step of a session takes steps of the allocator. -/
theorem apply_allocates (op : SessionOp) :
    World.Allocates fun w => op.apply registry w := by
  intro w
  cases op with
  | world op => exact op.apply_allocates w
  | deserializeSnapshot data =>
      exact (World.deserializeWorldSnapshot_builds w data).allocates
  | applyPacket former kind data =>
      exact (Client.applyPacket_builds ⟨w, former⟩ kind data).allocates

/-- The slots stay numbered in every session. -/
theorem run_bounded (registry : ComponentRegistry) (ops : List SessionOp) :
    (run registry ops).state.slots.Bounded := by
  have fresh : (World.empty registry).slots.Bounded :=
    ⟨Nat.two_pow_pos 32, fun slot => Nat.two_pow_pos 32,
      fun slot member => absurd member List.not_mem_nil⟩
  exact (fresh.steps (World.Allocates.forEach apply_allocates ops _)).1

/-- Every step of a session has a property where it is taken. -/
def Along (registry : ComponentRegistry) (holds : World → SessionOp → Prop) :
    World → List SessionOp → Prop
  | _, [] => True
  | w, op :: ops =>
      holds w op ∧ Along registry holds (op.apply registry w).state ops

/-- A `create_entity` that hands out an id hands out none below the base. -/
def CreatesFrom (base : UInt32) (w : World) : SessionOp → Prop
  | .world .createEntity => w.createEntity.2 ≠ Entity.null →
      base.toNat ≤ w.createEntity.2.slot
  | _ => True

/-- The slot that a `create_entity` recycles, if any, is none below the base. -/
def RecyclesFrom (base : UInt32) (w : World) : SessionOp → Prop
  | .world .createEntity =>
      ∀ slot, w.slots.freeSlots.head? = some slot → base.toNat ≤ slot
  | _ => True

/-- A new slot is never below the base. -/
theorem createsFrom_iff_recyclesFrom
    {w : World} {base : UInt32} (bounded : w.slots.Bounded)
    (reserved : base.toNat ≤ w.slots.slotGenerations.length) (op : SessionOp) :
    op.CreatesFrom base w ↔ op.RecyclesFrom base w := by
  cases op with
  | world op =>
      cases op with
      | createEntity =>
          unfold CreatesFrom RecyclesFrom
          dsimp only
          rw [World.createEntity_handle]
          constructor
          · intro creates slot recycled
            have inFree : slot ∈ w.slots.freeSlots :=
              List.mem_of_mem_head? recycled
            have inRange := bounded.free slot inFree
            have small := bounded.length
            have allocated : w.slots.allocEntityId.2 =
                Entity.ofSlot slot (w.slots.generationOf slot) := by
              obtain ⟨rest, freeEq⟩ := List.head?_eq_some_iff.mp recycled
              unfold EntitySlots.allocEntityId
              rw [freeEq]
            have issued : w.slots.allocEntityId.2 ≠ Entity.null := by
              rw [allocated]
              exact Entity.ofSlot_ne_null (by omega) (bounded.generation slot)
            have slotEq := bounded.allocEntityId_slot issued
            rw [recycled, Option.getD_some] at slotEq
            exact slotEq ▸ creates issued
          · intro recycles issued
            rw [bounded.allocEntityId_slot issued]
            cases recycled : w.slots.freeSlots.head? with
            | none => exact reserved
            | some slot => exact recycles slot recycled
      | _ => exact Iff.rfl
  | _ => exact Iff.rfl

/-- After a reservation, creations stay off the range exactly if they recycle no
slot of it. -/
theorem run_createsFrom_iff
    (before after : List SessionOp) (base : UInt32) :
    Along registry (fun w op => op.CreatesFrom base w)
      (run registry (before ++ [.world (.setEntityRange base)])).state after ↔
    Along registry (fun w op => op.RecyclesFrom base w)
      (run registry (before ++ [.world (.setEntityRange base)])).state after := by
  have general : ∀ (after : List SessionOp) (w : World), w.slots.Bounded →
      base.toNat ≤ w.slots.slotGenerations.length →
      (Along registry (fun w op => op.CreatesFrom base w) w after ↔
        Along registry (fun w op => op.RecyclesFrom base w) w after) := by
    intro after
    induction after with
    | nil => exact fun _ _ _ => Iff.rfl
    | cons op ops inductionHypothesis =>
        intro w bounded reserved
        obtain ⟨next, longer⟩ := bounded.steps (op.apply_allocates w)
        exact and_congr (createsFrom_iff_recyclesFrom bounded reserved op)
          (inductionHypothesis _ next (reserved.trans longer))
  refine general after _ (run_bounded registry _) ?_
  unfold run
  rw [Traced.forEach_append_state]
  change base.toNat ≤ (EntitySlots.growTo _ _).slotGenerations.length
  rw [EntitySlots.length_growTo]
  exact le_max_right _ _

/-- A slot below the base that was freed before the reservation is handed out
after it. -/
theorem not_run_createsFrom_recycled :
    ¬Along .healthRegistry (fun w op => op.CreatesFrom 10 w)
      (run .healthRegistry ([.world .createEntity, .world (.destroyEntity ⟨1⟩)] ++
        [.world (.setEntityRange 10)])).state [.world .createEntity] :=
  fun creates => absurd (creates.1 (by decide)) (by decide)

end SessionOp
end VortarisECS
