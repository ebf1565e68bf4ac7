import VortarisECS.Core.NetEvents
import VortarisECS.Network.Session

/-!
# Flushes in a session

Whatever led to a world, operations, loads or packets, a flush reports its net
changes, as long as no creation handed out a live id.
-/

namespace VortarisECS

/-- A surviving entity was found with the bytes of `t` that the flush left. -/
def Effect.foundAsLeft (flushed : World) (t : ComponentTypeId) :
    Effect → Bool
  | .dispatched _ e _ _ seen =>
      !flushed.isAlive e || decide (seen.getRaw e t = flushed.getRaw e t)
  | _ => true

namespace SessionOp

variable {registry : ComponentRegistry}

/-- In a world reached by a session in which no creation hands out a live id,
the events of a flush are the net changes of its commands, and the observers
find a surviving entity as the flush leaves it. -/
theorem run_reportsNetChanges
    (ops : List SessionOp)
    (issuesDead : Traced.Accepted Effect.IssuesDead (run registry ops))
    {queue : List Command} (structural : ∀ command ∈ queue, command.Structural) :
    (run registry ops).state.ReportsNetChanges registry queue :=
  (run_stable issuesDead).reportsNetChanges (run_idle registry ops) structural

/-- A queue with chains on two components, an overwritten one and a doomed
entity. -/
theorem run_reportsNetChanges_mixed :
    (run ComponentRegistry.healthRegistry
      [.world .createEntity, .world .createEntity,
        .world (.addRaw ⟨1⟩ 1 (some [7])),
        .world (.addRaw ⟨2⟩ 1 (some [8]))]).state.ReportsNetChanges
      ComponentRegistry.healthRegistry
      [.removeComponent ⟨1⟩ 1, .addComponent ⟨1⟩ 1 [9], .removeEntity ⟨2⟩,
        .addComponent ⟨2⟩ 1 []] :=
  run_reportsNetChanges _ (by decide +kernel) (by simp [Command.Structural])

/-- An entity that sits in two rows is moved first and loses the row to the
other entity's move: the event has told of bytes that it does not keep. -/
theorem not_run_reportsNetChanges_twice :
    ¬(run ComponentRegistry.healthRegistry
      [.world .createEntity, .world (.addRaw ⟨1⟩ 1 (some [1])),
        .world .createEntity, .world .createEntity,
        .world (.destroyEntity ⟨3⟩),
        .world (.createEntityPreassigned 0x100000003),
        .world .createEntity]).state.ReportsNetChanges
      ComponentRegistry.healthRegistry
      [.addComponent ⟨0x100000003⟩ 1 [2], .addComponent ⟨2⟩ 1 [3]] := by
  rintro ⟨_, found⟩
  generalize flush : World.executeBuffer _ _ _ = flushed at found
  have agree :
      (flushed.effects.all (Effect.foundAsLeft flushed.state 1)) = true := by
    refine List.all_eq_true.mpr fun effect member => ?_
    cases effect with
    | dispatched type e t name seen =>
        rw [Effect.foundAsLeft, Bool.or_eq_true, Bool.not_eq_true',
          decide_eq_true_iff]
        cases alive : flushed.state.isAlive e with
        | false => exact Or.inl rfl
        | true => exact Or.inr ((found type e t name seen member alive).2 1)
    | _ => rfl
  subst flush
  exact absurd agree (by decide +kernel)

end SessionOp
end VortarisECS
