import Mathlib.Data.List.Induction
import Mathlib.Algebra.Ring.Rat
import VortarisECS.Core.Scheduler

/-!
# Which systems run

A system is registered from the call that adds it to the call that removes it.
The scheduler finds it again through its group, which may change in between.
-/

namespace VortarisECS

variable {ι : Type u} {τ : Type v}

/-- The calls of a script around a scheduler. -/
inductive SchedulerCall (ι : Type u) (τ : Type v)
  | addSystem (sys : ι)
  | setGroup (sys : ι) (group : String)
  | removeSystem (sys : ι)
  | process (delta : τ) (group : String)
  deriving DecidableEq, Repr

/-- The systems of a program with the scheduler of its world. -/
structure Scheduled (ι : Type u) (τ : Type v) where
  systems : ι → VECSSystem τ
  scheduler : SystemScheduler ι τ := {}

namespace Scheduled

variable [DecidableEq ι]

/-- Change the group of a system, wherever the system is filed. -/
def setGroup (st : Scheduled ι τ) (sys : ι) (group : String) :
    Scheduled ι τ :=
  { st with
    systems :=
      Function.update st.systems sys { st.systems sys with group := group } }

variable [Zero τ] [Add τ] [LT τ] [DecidableLT τ]

/-- Perform one call. -/
def apply (st : Scheduled ι τ) :
    SchedulerCall ι τ → Traced (SystemEvent ι τ) (Scheduled ι τ)
  | .addSystem sys =>
      .pure { st with scheduler := st.scheduler.addSystem st.systems sys }
  | .setGroup sys group => .pure (st.setGroup sys group)
  | .removeSystem sys =>
      .pure { st with scheduler := st.scheduler.removeSystem st.systems sys }
  | .process delta group =>
      let processed := st.scheduler.process st.systems delta group
      ⟨{ st with scheduler := processed.state }, processed.effects⟩

/-- Perform calls one after the other. -/
def run (st : Scheduled ι τ) (calls : List (SchedulerCall ι τ)) :
    Scheduled ι τ :=
  (Traced.forEach apply st calls).state

/-- The systems that run in the next `process` call, in order. -/
def handles (st : Scheduled ι τ) (delta : τ) (group : String) : List ι :=
  SystemScheduler.handledOf (st.apply (.process delta group)).effects

/-- Calls after calls. -/
theorem run_append (st : Scheduled ι τ)
    (calls later : List (SchedulerCall ι τ)) :
    st.run (calls ++ later) = (st.run calls).run later := by
  unfold run
  exact Traced.forEach_append_state apply st calls later

end Scheduled

/-- The calls add the system and do not remove it afterwards. -/
def Registered (calls : List (SchedulerCall ι τ)) (sys : ι) : Prop :=
  ∃ before after, calls = before ++ .addSystem sys :: after ∧
    .removeSystem sys ∉ after

/-- A group in which a system is filed exists. -/
theorem mem_keys_of_filed
    {scheduler : SystemScheduler ι τ} {group : String} {sys : ι}
    (member : sys ∈ scheduler.filed group) :
    group ∈ scheduler.systemsByGroup.keys := by
  rw [AList.mem_keys_iff_lookup_isSome]
  unfold SystemScheduler.filed at member
  cases known : scheduler.systemsByGroup.lookup group with
  | none =>
      rw [known] at member
      exact absurd member List.not_mem_nil
  | some filed => rfl

/-- A system that was just added is registered. -/
theorem registered_addSystem
    (calls : List (SchedulerCall ι τ)) (sys : ι) :
    Registered (calls ++ [.addSystem sys]) sys :=
  ⟨calls, [], rfl, List.not_mem_nil⟩

/-- It stays registered until it is removed. -/
theorem Registered.later
    {calls : List (SchedulerCall ι τ)} {sys : ι}
    (registered : Registered calls sys) {call : SchedulerCall ι τ}
    (keeps : call ≠ .removeSystem sys) :
    Registered (calls ++ [call]) sys := by
  obtain ⟨before, after, rfl, kept⟩ := registered
  refine ⟨before, after ++ [call], ?_, ?_⟩
  · rw [List.append_assoc, List.cons_append]
  · rw [List.mem_append, List.mem_singleton]
    rintro (removed | removed)
    · exact kept removed
    · exact keeps removed.symm

namespace Scheduled

variable [DecidableEq ι] [Zero τ] [Add τ] [LT τ] [DecidableLT τ]

/-- In every `process` call of the run only registered systems of the group
run. -/
def RunsRegistered (start : Scheduled ι τ)
    (calls : List (SchedulerCall ι τ)) : Prop :=
  ∀ before delta group after,
    calls = before ++ .process delta group :: after →
    ∀ sys ∈ (start.run before).handles delta group,
      Registered before sys ∧ ((start.run before).systems sys).group = group

/-- The call finds the systems it is about under the group they have now. -/
def FindsFiled (st : Scheduled ι τ) : SchedulerCall ι τ → Prop
  | .addSystem _ => True
  | .setGroup _ _ => True
  | .removeSystem sys =>
      ∀ group ∈ st.scheduler.systemsByGroup.keys,
        sys ∈ st.scheduler.filed group → (st.systems sys).group = group
  | .process _ group =>
      ∀ sys ∈ st.scheduler.filed group, (st.systems sys).group = group

instance (st : Scheduled ι τ) (call : SchedulerCall ι τ) :
    Decidable (st.FindsFiled call) :=
  match call with
  | .addSystem _ => inferInstanceAs (Decidable True)
  | .setGroup _ _ => inferInstanceAs (Decidable True)
  | .removeSystem sys => inferInstanceAs (Decidable
      (∀ group ∈ st.scheduler.systemsByGroup.keys,
        sys ∈ st.scheduler.filed group → (st.systems sys).group = group))
  | .process _ group => inferInstanceAs (Decidable
      (∀ sys ∈ st.scheduler.filed group, (st.systems sys).group = group))

/-- Every call of the run finds its systems. -/
def AlwaysFindsFiled (start : Scheduled ι τ) :
    List (SchedulerCall ι τ) → Prop
  | [] => True
  | call :: calls =>
      start.FindsFiled call ∧ AlwaysFindsFiled (start.apply call).state calls

instance decidableAlwaysFindsFiled :
    ∀ (start : Scheduled ι τ) (calls : List (SchedulerCall ι τ)),
      Decidable (start.AlwaysFindsFiled calls)
  | _, [] => inferInstanceAs (Decidable True)
  | start, call :: calls =>
      have := decidableAlwaysFindsFiled (start.apply call).state calls
      inferInstanceAs (Decidable (start.FindsFiled call ∧
        AlwaysFindsFiled (start.apply call).state calls))

/-- Systems are found in both parts of a run. -/
theorem alwaysFindsFiled_append
    (start : Scheduled ι τ) (calls later : List (SchedulerCall ι τ)) :
    start.AlwaysFindsFiled (calls ++ later) ↔
      start.AlwaysFindsFiled calls ∧
        (start.run calls).AlwaysFindsFiled later := by
  induction calls generalizing start with
  | nil => exact (true_and _).to_iff.symm
  | cons call calls inductionHypothesis =>
      rw [List.cons_append, AlwaysFindsFiled, AlwaysFindsFiled,
        inductionHypothesis, and_assoc]
      rfl

/-! ## Filed systems are registered -/

/-- Only registered systems are filed, and the cached orders follow the
files. -/
structure FilesRegistered (st : Scheduled ι τ)
    (calls : List (SchedulerCall ι τ)) : Prop where
  follows : st.scheduler.CacheFollows
  registered : ∀ group, ∀ sys ∈ st.scheduler.filed group, Registered calls sys

variable {st : Scheduled ι τ} {calls : List (SchedulerCall ι τ)}

/-- A call that finds its system keeps the files to the registered ones. -/
theorem FilesRegistered.apply
    (files : st.FilesRegistered calls) (call : SchedulerCall ι τ)
    (finds : st.FindsFiled call) :
    (st.apply call).state.FilesRegistered (calls ++ [call]) := by
  cases call with
  | addSystem added =>
      refine ⟨files.follows.addSystem st.systems added,
        fun group sys member => ?_⟩
      have member : sys ∈ (st.scheduler.addSystem st.systems added).filed
        group := member
      rw [SystemScheduler.filed_addSystem] at member
      split at member
      · obtain old | new := List.mem_append.mp member
        · exact (files.registered group sys old).later nofun
        · rw [List.mem_singleton.mp new]
          exact registered_addSystem calls added
      · exact (files.registered group sys member).later nofun
  | setGroup changed group =>
      exact ⟨files.follows, fun group sys member =>
        (files.registered group sys member).later nofun⟩
  | removeSystem removed =>
      refine ⟨files.follows.removeSystem st.systems removed,
        fun group sys member => ?_⟩
      have member : sys ∈ (st.scheduler.removeSystem st.systems removed).filed
        group := member
      rw [SystemScheduler.filed_removeSystem] at member
      split at member
      next =>
          obtain ⟨old, other⟩ := List.mem_filter.mp member
          refine (files.registered group sys old).later fun same => ?_
          cases same
          exact of_decide_eq_true other rfl
      next elsewhere =>
          refine (files.registered group sys member).later fun same => ?_
          cases same
          exact elsewhere
            (finds group (mem_keys_of_filed member) member).symm
  | process delta group =>
      obtain ⟨sameFiles, follows, _⟩ := SystemScheduler.process_spec st.systems
        files.follows delta group
      refine ⟨follows, fun group sys member => ?_⟩
      have member : sys ∈ (st.scheduler.process st.systems delta _).state.filed
        group := member
      unfold SystemScheduler.filed at member
      rw [sameFiles] at member
      exact (files.registered group sys member).later nofun

/-- After every run that finds its systems, only registered ones are filed. -/
theorem run_filesRegistered
    (systems : ι → VECSSystem τ) (calls : List (SchedulerCall ι τ))
    (finds : (Scheduled.mk systems {}).AlwaysFindsFiled calls) :
    ((Scheduled.mk systems {}).run calls).FilesRegistered calls := by
  induction calls using List.reverseRecOn with
  | nil =>
      exact ⟨fun _ _ none => (nomatch none),
        fun _ _ none => absurd none List.not_mem_nil⟩
  | append_singleton calls call inductionHypothesis =>
      rw [alwaysFindsFiled_append] at finds
      rw [run_append]
      exact (inductionHypothesis finds.1).apply call finds.2.1

/-- As long as every call finds the systems it is about under the group they
have now, only registered systems of the group run. -/
theorem run_runsRegistered
    (systems : ι → VECSSystem τ) (calls : List (SchedulerCall ι τ))
    (finds : (Scheduled.mk systems {}).AlwaysFindsFiled calls) :
    (Scheduled.mk systems {}).RunsRegistered calls := by
  rintro before delta group after rfl sys runs
  rw [alwaysFindsFiled_append] at finds
  have files := run_filesRegistered systems before finds.1
  obtain ⟨_, _, handled⟩ := SystemScheduler.process_spec
    ((Scheduled.mk systems {}).run before).systems files.follows delta group
  have filed := handled.subset runs
  exact ⟨files.registered group sys filed, finds.2.1 sys filed⟩

/-! A system that changes its group while it is registered is neither found by
the call that removes it nor left alone by its former group. -/

/-- One system, in the group `a`. -/
def lonelySystem (_ : Unit) : VECSSystem ℚ :=
  { systemName := "MoveSystem", group := "a", tickInterval := 0 }

/-- A system whose group was changed before it was removed still runs: the removal
looks in the wrong group. -/
theorem run_runsRegistered_regrouped :
    ¬(Scheduled.mk lonelySystem {}).RunsRegistered
      [.addSystem (), .setGroup () "b", .removeSystem (), .process 1 "a"] := by
  intro runsRegistered
  have runs := runsRegistered
    [.addSystem (), .setGroup () "b", .removeSystem ()] 1 "a" [] rfl ()
    (by decide +kernel)
  exact absurd runs.2 (by decide +kernel)

/-- A run in which every system is removed from the group it was added to. -/
theorem run_runsRegistered_inGroup :
    (Scheduled.mk lonelySystem {}).RunsRegistered
      [.addSystem (), .process 1 "a", .removeSystem (), .setGroup () "b",
        .addSystem (), .process 1 "a", .process 1 "b"] :=
  run_runsRegistered lonelySystem _ (by decide +kernel)

/-! ## Systems that keep their group -/

/-- The call gives no filed system another group. -/
def KeepsGroup (st : Scheduled ι τ) : SchedulerCall ι τ → Prop
  | .setGroup sys group =>
      ∀ filedUnder, sys ∈ st.scheduler.filed filedUnder →
        group = (st.systems sys).group
  | _ => True

/-- No call of the run gives a filed system another group. -/
def AlwaysKeepsGroup (start : Scheduled ι τ) :
    List (SchedulerCall ι τ) → Prop
  | [] => True
  | call :: calls =>
      start.KeepsGroup call ∧ AlwaysKeepsGroup (start.apply call).state calls

/-- Every filed system has the group it is filed under. -/
structure FilesUpToDate (st : Scheduled ι τ) : Prop where
  follows : st.scheduler.CacheFollows
  upToDate : ∀ group, ∀ sys ∈ st.scheduler.filed group,
    (st.systems sys).group = group

omit [DecidableEq ι] [Zero τ] [Add τ] [LT τ] [DecidableLT τ] in
/-- Up to date files are found. -/
theorem FilesUpToDate.findsFiled
    (files : st.FilesUpToDate) (call : SchedulerCall ι τ) :
    st.FindsFiled call := by
  cases call with
  | addSystem sys => trivial
  | setGroup sys group => trivial
  | removeSystem sys => exact fun group _ => files.upToDate group sys
  | process delta group => exact files.upToDate group

/-- A call that keeps the groups keeps the files up to date. -/
theorem FilesUpToDate.apply
    (files : st.FilesUpToDate) (call : SchedulerCall ι τ)
    (keeps : st.KeepsGroup call) :
    (st.apply call).state.FilesUpToDate := by
  cases call with
  | addSystem added =>
      refine ⟨files.follows.addSystem st.systems added,
        fun group sys member => ?_⟩
      have member : sys ∈ (st.scheduler.addSystem st.systems added).filed
        group := member
      rw [SystemScheduler.filed_addSystem] at member
      split at member
      next same =>
          obtain old | new := List.mem_append.mp member
          · exact files.upToDate group sys old
          · rw [List.mem_singleton.mp new]
            exact same.symm
      next => exact files.upToDate group sys member
  | setGroup changed group =>
      refine ⟨files.follows, fun filedUnder sys member => ?_⟩
      have member : sys ∈ st.scheduler.filed filedUnder := member
      have before := files.upToDate filedUnder sys member
      show (Function.update st.systems changed _ sys).group = filedUnder
      by_cases same : sys = changed
      · subst same
        rw [Function.update_self]
        exact (keeps filedUnder member).trans before
      · rw [Function.update_of_ne same]
        exact before
  | removeSystem removed =>
      refine ⟨files.follows.removeSystem st.systems removed,
        fun group sys member => ?_⟩
      have member : sys ∈ (st.scheduler.removeSystem st.systems removed).filed
        group := member
      rw [SystemScheduler.filed_removeSystem] at member
      split at member
      · exact files.upToDate group sys (List.mem_of_mem_filter member)
      · exact files.upToDate group sys member
  | process delta group =>
      obtain ⟨sameFiles, follows, _⟩ := SystemScheduler.process_spec st.systems
        files.follows delta group
      refine ⟨follows, fun group sys member => ?_⟩
      have member : sys ∈ (st.scheduler.process st.systems delta _).state.filed
        group := member
      unfold SystemScheduler.filed at member
      rw [sameFiles] at member
      exact files.upToDate group sys member

/-- Systems that keep their group while they are filed are always found. -/
theorem FilesUpToDate.alwaysFindsFiled
    (files : st.FilesUpToDate) (keeps : st.AlwaysKeepsGroup calls) :
    st.AlwaysFindsFiled calls := by
  induction calls generalizing st with
  | nil => trivial
  | cons call calls inductionHypothesis =>
      exact ⟨files.findsFiled call,
        inductionHypothesis (files.apply call keeps.1) keeps.2⟩

end Scheduled

end VortarisECS
