import VortarisECS.Core.Registration

/-!
# Registration during a pass

`process` walks over the cached order of its group by reference.  A handler that
adds or removes a system of this group erases the order the walk still reads; a
handler that adds or removes systems of other groups leaves it alone.
-/

namespace VortarisECS

variable {ι : Type u} {τ : Type v}

/-- What a handler does with the scheduler. -/
inductive RegistrationCall (ι : Type u)
  | addSystem (sys : ι)
  | removeSystem (sys : ι)
  deriving DecidableEq, Repr

/-- The system a call is about. -/
def RegistrationCall.sys : RegistrationCall ι → ι
  | .addSystem sys => sys
  | .removeSystem sys => sys

/-- The calls a handler makes, given the systems handled so far, its own last. -/
abbrev Handlers (ι : Type u) := List ι → List (RegistrationCall ι)

/-- A system that was reached, the scheduler at that moment and whether it was
handled. -/
structure Turn (ι : Type u) (τ : Type v) where
  sys : ι
  scheduler : SystemScheduler ι τ
  handled : Bool

/-- A pass on its way. -/
structure Pass (ι : Type u) (τ : Type v) where
  scheduler : SystemScheduler ι τ
  turns : List (Turn ι τ) := []
  /-- It read an order that was erased; what it does from then on is not
  defined. -/
  readErased : Bool := false

namespace SystemScheduler

variable [DecidableEq ι] (systems : ι → VECSSystem τ)

/-- What a call of a handler does to the scheduler. -/
def register (scheduler : SystemScheduler ι τ) :
    RegistrationCall ι → SystemScheduler ι τ
  | .addSystem sys => scheduler.addSystem systems sys
  | .removeSystem sys => scheduler.removeSystem systems sys

/-- The call is about a system of another group. -/
def LeavesGroup (group : String) (call : RegistrationCall ι) : Prop :=
  (systems call.sys).group ≠ group

/-- A call about another group leaves this one alone. -/
theorem filed_register
    (scheduler : SystemScheduler ι τ) {group : String}
    {call : RegistrationCall ι} (leaves : LeavesGroup systems group call) :
    (scheduler.register systems call).filed group = scheduler.filed group := by
  cases call with
  | addSystem sys =>
      exact (filed_addSystem systems sys group).trans
        (if_neg (Ne.symm leaves))
  | removeSystem sys =>
      exact (filed_removeSystem systems sys group).trans
        (if_neg (Ne.symm leaves))

/-- A call drops the cached order of the group of its system. -/
theorem lookup_orderCache_register
    (scheduler : SystemScheduler ι τ) (group : String)
    (call : RegistrationCall ι) :
    (scheduler.register systems call).orderCache.lookup group =
      if group = (systems call.sys).group then none
      else scheduler.orderCache.lookup group := by
  cases call with
  | addSystem sys => exact AList.lookup_erase_if ..
  | removeSystem sys => exact AList.lookup_erase_if ..

/-- The order of the group survives calls about other groups, and no others. -/
theorem isSome_orderCache_foldl_register
    (scheduler : SystemScheduler ι τ) (group : String)
    (calls : List (RegistrationCall ι)) :
    ((calls.foldl (register systems) scheduler).orderCache.lookup
        group).isSome ↔
      (scheduler.orderCache.lookup group).isSome ∧
        ∀ call ∈ calls, LeavesGroup systems group call := by
  induction calls generalizing scheduler with
  | nil => simp
  | cons call calls inductionHypothesis =>
      rw [List.foldl_cons, inductionHypothesis, lookup_orderCache_register,
        List.forall_mem_cons]
      by_cases same : group = (systems call.sys).group
      · rw [if_pos same]
        exact ⟨fun none => absurd none.1 Bool.false_ne_true,
          fun leaves => absurd same.symm leaves.2.1⟩
      · rw [if_neg same]
        exact and_congr_right fun _ =>
          (and_iff_right (Ne.symm same)).symm

/-- So do many. -/
theorem filed_foldl_register
    (scheduler : SystemScheduler ι τ) {group : String}
    {calls : List (RegistrationCall ι)}
    (leave : ∀ call ∈ calls, LeavesGroup systems group call) :
    (calls.foldl (register systems) scheduler).filed group =
      scheduler.filed group := by
  induction calls generalizing scheduler with
  | nil => rfl
  | cons call calls inductionHypothesis =>
      rw [List.forall_mem_cons] at leave
      rw [List.foldl_cons, inductionHypothesis _ leave.2,
        filed_register systems scheduler leave.1]

end SystemScheduler

/-! ## The walk -/

namespace Pass

variable [DecidableEq ι] [Zero τ] [Add τ] [LT τ] [DecidableLT τ]
  (systems : ι → VECSSystem τ) (handlers : Handlers ι) (group : String)
  (delta elapsed : τ)

/-- The order the walk refers to is still there. -/
def orderAlive (pass : Pass ι τ) : Bool :=
  (pass.scheduler.orderCache.lookup group).isSome

/-- The systems handled so far. -/
def handled (pass : Pass ι τ) : List ι :=
  (pass.turns.filter (·.handled)).map (·.sys)

/-- The system is due at its turn. -/
def isDue (pass : Pass ι τ) (sys : ι) : Bool :=
  !(SystemScheduler.handledOf
    (pass.scheduler.runSystem systems delta elapsed sys).effects).isEmpty

/-- The calls the handler of the system makes at its turn. -/
def calls (pass : Pass ι τ) (sys : ι) : List (RegistrationCall ι) :=
  if pass.isDue systems delta elapsed sys then handlers (pass.handled ++ [sys])
  else []

/-- The turn of the next system of the order. -/
def turn (pass : Pass ι τ) (sys : ι) : Pass ι τ :=
  if pass.readErased then pass
  else if !pass.orderAlive group then { pass with readErased := true }
  else
    { scheduler :=
        (pass.calls systems handlers delta elapsed sys).foldl
          (SystemScheduler.register systems)
          (pass.scheduler.runSystem systems delta elapsed sys).state
      turns := pass.turns ++ [{
        sys := sys
        scheduler := pass.scheduler
        handled := pass.isDue systems delta elapsed sys }] }

/-- The loop behind the walk looks through the order for a system to flush
for. -/
def finish (pass : Pass ι τ) : Pass ι τ :=
  if pass.readErased then pass
  else { pass with readErased := !pass.orderAlive group }

/-- All turns of a pass, and its end. -/
def walk (pass : Pass ι τ) (order : List ι) : Pass ι τ :=
  (order.foldl (turn systems handlers group delta elapsed) pass).finish group

/-- No handler that is called adds or removes a system of the group. -/
def Undisturbed : Pass ι τ → List ι → Prop
  | _, [] => True
  | pass, sys :: order =>
      (∀ call ∈ pass.calls systems handlers delta elapsed sys,
        SystemScheduler.LeavesGroup systems group call) ∧
      Undisturbed (pass.turn systems handlers group delta elapsed sys) order

end Pass

namespace SystemScheduler

variable [DecidableEq ι] [Zero τ] [Add τ] [LT τ] [DecidableLT τ]
  (systems : ι → VECSSystem τ) (handlers : Handlers ι)

/-- The clock of the group at a `process` call. -/
def clock (scheduler : SystemScheduler ι τ) (delta : τ) (group : String) : τ :=
  (scheduler.elapsedByGroup.lookup group).getD 0 + delta

/-- The scheduler and the order a `process` call walks over. -/
def enter (scheduler : SystemScheduler ι τ) (delta : τ) (group : String) :
    SystemScheduler ι τ × List ι :=
  SystemScheduler.ordered systems
    { scheduler with
      elapsedByGroup := scheduler.elapsedByGroup.insert group
        (scheduler.clock delta group) } group

/-- `process`, with handlers that add and remove systems. -/
def processWith (scheduler : SystemScheduler ι τ) (delta : τ)
    (group : String) : Pass ι τ :=
  if (scheduler.filed group).isEmpty then
    { scheduler := { scheduler with
        elapsedByGroup := scheduler.elapsedByGroup.insert group
          (scheduler.clock delta group) } }
  else
    let (entered, order) := scheduler.enter systems delta group
    Pass.walk systems handlers group delta (scheduler.clock delta group)
      { scheduler := entered } order

/-- The system is handled whenever its turn comes. -/
def AlwaysDue (sys : ι) : Prop :=
  (systems sys).active = true ∧ (systems sys).paused = false ∧
    ¬ 0 < (systems sys).tickInterval

/-- The pass reads no erased order, reaches every system filed at its start,
handles the systems that are always due once each, and handles only systems
that are still filed. -/
structure SurvivesRegistration (scheduler : SystemScheduler ι τ) (delta : τ)
    (group : String) : Prop where
  alive :
    (scheduler.processWith systems handlers delta group).readErased = false
  complete : ((scheduler.processWith systems handlers delta group).turns.map
    (·.sys)).Perm (scheduler.filed group)
  once : ∀ sys ∈ scheduler.filed group, AlwaysDue systems sys →
    (∀ turn ∈ (scheduler.processWith systems handlers delta group).turns,
      turn.sys = sys → sys ∈ turn.scheduler.filed group) →
    (scheduler.processWith systems handlers delta group).handled.count sys = 1
  filed : ∀ turn ∈ (scheduler.processWith systems handlers delta group).turns,
    turn.handled = true → turn.sys ∈ turn.scheduler.filed group

/-- No handler the pass calls adds or removes a system of the group, and no
system that is always due is filed twice. -/
structure KeepsOrder (scheduler : SystemScheduler ι τ) (delta : τ)
    (group : String) : Prop where
  undisturbed : scheduler.filed group ≠ [] →
    Pass.Undisturbed systems handlers group delta (scheduler.clock delta group)
      { scheduler := (scheduler.enter systems delta group).1 }
      (scheduler.enter systems delta group).2
  filedOnce : ∀ sys ∈ scheduler.filed group, AlwaysDue systems sys →
    (scheduler.filed group).count sys = 1

end SystemScheduler

/-! ## One turn -/

namespace Pass

variable [DecidableEq ι] [Zero τ] [Add τ] [LT τ] [DecidableLT τ]
  {systems : ι → VECSSystem τ} {handlers : Handlers ι} {group : String}
  {delta elapsed : τ}

/-- A system without an interval is due at every turn. -/
theorem isDue_of_alwaysDue
    (pass : Pass ι τ) {sys : ι} (due : SystemScheduler.AlwaysDue systems sys) :
    pass.isDue systems delta elapsed sys = true := by
  obtain ⟨active, unpaused, unlimited⟩ := due
  unfold isDue SystemScheduler.runSystem
  dsimp only
  rw [active, unpaused, if_neg (by simp), if_neg fun both => unlimited both.1]
  rfl

/-- The order of the group outlives the turn if the handler leaves the group
alone. -/
theorem orderAlive_turn
    {pass : Pass ι τ} (live : pass.readErased = false)
    (alive : pass.orderAlive group = true) (sys : ι) :
    (pass.turn systems handlers group delta elapsed sys).orderAlive group =
        true ↔
      ∀ call ∈ pass.calls systems handlers delta elapsed sys,
        SystemScheduler.LeavesGroup systems group call := by
  have same := (SystemScheduler.runSystem_spec systems pass.scheduler delta
    elapsed sys).2.1
  unfold turn
  rw [live, if_neg Bool.false_ne_true, alive, if_neg (by simp)]
  unfold orderAlive at alive ⊢
  dsimp only
  rw [SystemScheduler.isSome_orderCache_foldl_register, same]
  exact and_iff_right alive

/-- A turn with a live order reads nothing that was erased. -/
theorem readErased_turn
    {pass : Pass ι τ} (live : pass.readErased = false)
    (alive : pass.orderAlive group = true) (sys : ι) :
    (pass.turn systems handlers group delta elapsed sys).readErased = false := by
  unfold turn
  rw [live, if_neg Bool.false_ne_true, alive, if_neg (by simp)]

/-- A turn is noted down. -/
theorem turns_turn
    {pass : Pass ι τ} (live : pass.readErased = false)
    (alive : pass.orderAlive group = true) (sys : ι) :
    (pass.turn systems handlers group delta elapsed sys).turns =
      pass.turns ++ [{
        sys := sys
        scheduler := pass.scheduler
        handled := pass.isDue systems delta elapsed sys }] := by
  unfold turn
  rw [live, if_neg Bool.false_ne_true, alive, if_neg (by simp)]

/-- A turn whose calls leave the group alone keeps its files. -/
theorem filed_turn
    {pass : Pass ι τ} {sys : ι}
    (leave : ∀ call ∈ pass.calls systems handlers delta elapsed sys,
      SystemScheduler.LeavesGroup systems group call) :
    (pass.turn systems handlers group delta elapsed sys).scheduler.filed group =
      pass.scheduler.filed group := by
  have same := (SystemScheduler.runSystem_spec systems pass.scheduler delta
    elapsed sys).1
  unfold turn
  split
  · rfl
  · split
    · rfl
    · dsimp only
      rw [SystemScheduler.filed_foldl_register systems _ leave,
        SystemScheduler.filed, same]
      rfl

/-- A pass that has lost its order reads it when it goes on. -/
theorem readErased_walk
    {pass : Pass ι τ}
    (lost : pass.readErased = true ∨ pass.orderAlive group = false)
    (order : List ι) :
    (pass.walk systems handlers group delta elapsed order).readErased =
      true := by
  induction order generalizing pass with
  | nil =>
      unfold walk finish
      rw [List.foldl_nil]
      obtain erased | gone := lost
      · rw [if_pos erased, erased]
      · split
        · assumption
        · rw [gone]
          rfl
  | cons sys order inductionHypothesis =>
      refine inductionHypothesis (.inl ?_)
      unfold turn
      split
      · assumption
      · rename_i live
        have gone := lost.resolve_left live
        rw [gone, if_pos (by rfl)]

/-- What an undisturbed walk does. -/
structure Walked (systems : ι → VECSSystem τ) (group : String)
    (start : Pass ι τ) (order : List ι) (walked : Pass ι τ) : Prop where
  alive : walked.readErased = false
  turns : ∃ turns, walked.turns = start.turns ++ turns ∧
    turns.map (·.sys) = order ∧
    ∀ turn ∈ turns, turn.scheduler.filed group = start.scheduler.filed group ∧
      (SystemScheduler.AlwaysDue systems turn.sys → turn.handled = true)

/-- A pass that nobody disturbs takes all turns of the order. -/
theorem walk_undisturbed
    {pass : Pass ι τ} (live : pass.readErased = false)
    (alive : pass.orderAlive group = true) {order : List ι}
    (undisturbed : pass.Undisturbed systems handlers group delta elapsed
      order) :
    Walked systems group pass order
      (pass.walk systems handlers group delta elapsed order) := by
  induction order generalizing pass with
  | nil =>
      unfold walk finish
      rw [List.foldl_nil, live, if_neg Bool.false_ne_true, alive]
      exact ⟨rfl, [], (List.append_nil _).symm, rfl, nofun⟩
  | cons sys order inductionHypothesis =>
      obtain ⟨leave, later⟩ := undisturbed
      have step := inductionHypothesis (readErased_turn live alive sys)
        ((orderAlive_turn live alive sys).mpr leave) later
      obtain ⟨turns, extended, listed, each⟩ := step.turns
      rw [turns_turn live alive, List.append_assoc] at extended
      refine ⟨step.alive, _, extended, ?_, ?_⟩
      · rw [List.map_append, listed]
        rfl
      · rw [List.singleton_append, List.forall_mem_cons]
        refine ⟨⟨rfl, fun due => pass.isDue_of_alwaysDue due⟩,
          fun turn member => ?_⟩
        rw [← filed_turn leave]
        exact each turn member

/-- A walk that never reads an erased order is undisturbed. -/
theorem undisturbed_of_walk
    {pass : Pass ι τ} (live : pass.readErased = false)
    (alive : pass.orderAlive group = true) {order : List ι}
    (walked : (pass.walk systems handlers group delta elapsed
      order).readErased = false) :
    pass.Undisturbed systems handlers group delta elapsed order := by
  induction order generalizing pass with
  | nil => exact trivial
  | cons sys order inductionHypothesis =>
      cases kept : (pass.turn systems handlers group delta elapsed
          sys).orderAlive group with
      | true =>
          exact ⟨(orderAlive_turn live alive sys).mp kept,
            inductionHypothesis (readErased_turn live alive sys) kept walked⟩
      | false =>
          have lost : ((pass.turn systems handlers group delta elapsed
              sys).walk systems handlers group delta elapsed
                order).readErased = true := readErased_walk (.inr kept) order
          have walked : ((pass.turn systems handlers group delta elapsed
              sys).walk systems handlers group delta elapsed
                order).readErased = false := walked
          rw [lost] at walked
          cases walked

end Pass

/-! ## The pass -/

/-- A system that is handled at all its turns is handled as often. -/
theorem count_handled
    [DecidableEq ι] {turns : List (Turn ι τ)} {sys : ι}
    (handled : ∀ turn ∈ turns, turn.sys = sys → turn.handled = true) :
    ((turns.filter (·.handled)).map (·.sys)).count sys =
      (turns.map (·.sys)).count sys := by
  induction turns with
  | nil => rfl
  | cons turn turns inductionHypothesis =>
      rw [List.forall_mem_cons] at handled
      have rest := inductionHypothesis handled.2
      rw [List.filter_cons, List.map_cons, List.count_cons, ← rest]
      by_cases same : turn.sys = sys
      · rw [if_pos (handled.1 same), List.map_cons, List.count_cons]
      · have differs : ¬ (turn.sys == sys) = true := by simpa using same
        rw [if_neg differs, Nat.add_zero]
        split
        · rw [List.map_cons, List.count_cons, if_neg differs, Nat.add_zero]
        · rfl

namespace SystemScheduler

section Enter

variable [Zero τ] [Add τ] (systems : ι → VECSSystem τ)
  {scheduler : SystemScheduler ι τ}

/-- A pass begins with the systems that are filed. -/
theorem enter_spec (follows : scheduler.CacheFollows) (delta : τ)
    (group : String) :
    (scheduler.enter systems delta group).1.filed group =
        scheduler.filed group ∧
      (scheduler.enter systems delta group).2.Perm (scheduler.filed group) := by
  have clocked : ({ scheduler with
      elapsedByGroup := scheduler.elapsedByGroup.insert group
        (scheduler.clock delta group) } : SystemScheduler ι τ).CacheFollows :=
    follows
  obtain ⟨files, -, perm⟩ := ordered_spec systems clocked group
  refine ⟨?_, perm⟩
  unfold enter filed
  rw [files]

/-- A group with systems has its order in the cache when the walk starts. -/
theorem orderAlive_enter
    {group : String} (inhabited : scheduler.filed group ≠ []) (delta : τ) :
    Pass.orderAlive group
      { scheduler := (scheduler.enter systems delta group).1 } = true := by
  unfold Pass.orderAlive enter ordered recomputeOrder
  dsimp only
  unfold filed at inhabited
  cases cached : scheduler.orderCache.lookup group with
  | some order =>
      dsimp only
      rw [cached]
      rfl
  | none =>
      cases isFiled : scheduler.systemsByGroup.lookup group with
      | none => exact absurd (by rw [isFiled]; rfl) inhabited
      | some filed =>
          dsimp only
          rw [AList.lookup_insert]
          rfl

end Enter

variable [DecidableEq ι] [Zero τ] [Add τ] [LT τ] [DecidableLT τ]
  {systems : ι → VECSSystem τ} {handlers : Handlers ι}
  {scheduler : SystemScheduler ι τ}

/-- A pass survives what its handlers do exactly if they leave its group alone
and no system that is always due is filed twice. -/
theorem survivesRegistration_iff
    (follows : scheduler.CacheFollows) (delta : τ) (group : String) :
    scheduler.SurvivesRegistration systems handlers delta group ↔
      scheduler.KeepsOrder systems handlers delta group := by
  by_cases inhabited : scheduler.filed group = []
  · -- nothing is walked
    have pass : scheduler.processWith systems handlers delta group =
        { scheduler := { scheduler with
            elapsedByGroup := scheduler.elapsedByGroup.insert group
              (scheduler.clock delta group) } } := by
      unfold processWith
      rw [inhabited]
      rfl
    constructor
    · intro _
      refine ⟨fun some' => absurd inhabited some', fun sys member => ?_⟩
      rw [inhabited] at member
      exact absurd member List.not_mem_nil
    · intro _
      refine ⟨by rw [pass], by rw [pass, inhabited]; rfl,
        fun sys member => ?_, fun turn member => ?_⟩
      · rw [inhabited] at member
        exact absurd member List.not_mem_nil
      · rw [pass] at member
        exact absurd member List.not_mem_nil
  have pass : scheduler.processWith systems handlers delta group =
      Pass.walk systems handlers group delta (scheduler.clock delta group)
        { scheduler := (scheduler.enter systems delta group).1 }
        (scheduler.enter systems delta group).2 := by
    unfold processWith
    rw [if_neg (by simpa using inhabited)]
  obtain ⟨sameFiles, perm⟩ := enter_spec systems follows delta group
  have alive := orderAlive_enter systems inhabited delta
  -- an undisturbed walk gives every filed system its turn
  have walked : Pass.Undisturbed systems handlers group delta
      (scheduler.clock delta group)
      { scheduler := (scheduler.enter systems delta group).1 }
      (scheduler.enter systems delta group).2 →
      (scheduler.processWith systems handlers delta group).readErased = false ∧
      ((scheduler.processWith systems handlers delta group).turns.map
        (·.sys)).Perm (scheduler.filed group) ∧
      ∀ turn ∈ (scheduler.processWith systems handlers delta group).turns,
        turn.scheduler.filed group = scheduler.filed group ∧
          (AlwaysDue systems turn.sys → turn.handled = true) := by
    intro undisturbed
    rw [pass]
    obtain ⟨live, turns, extended, listed, each⟩ :=
      Pass.walk_undisturbed rfl alive undisturbed
    rw [List.nil_append] at extended
    rw [extended, listed]
    refine ⟨live, perm, fun turn member => ?_⟩
    rw [← sameFiles]
    exact each turn member
  have counts : ∀ sys, AlwaysDue systems sys →
      Pass.Undisturbed systems handlers group delta
        (scheduler.clock delta group)
        { scheduler := (scheduler.enter systems delta group).1 }
        (scheduler.enter systems delta group).2 →
      (scheduler.processWith systems handlers delta group).handled.count sys =
        (scheduler.filed group).count sys := by
    intro sys due undisturbed
    obtain ⟨-, complete, each⟩ := walked undisturbed
    rw [← complete.count_eq, Pass.handled, count_handled]
    rintro turn member rfl
    exact (each turn member).2 due
  constructor
  · intro survives
    have undisturbed := Pass.undisturbed_of_walk rfl alive
      (pass ▸ survives.alive)
    obtain ⟨-, -, each⟩ := walked undisturbed
    refine ⟨fun _ => undisturbed, fun sys member due => ?_⟩
    rw [← counts sys due undisturbed]
    exact survives.once sys member due fun turn isTurn same => by
      rw [(each turn isTurn).1]
      exact member
  · intro keeps
    have undisturbed := keeps.undisturbed inhabited
    obtain ⟨live, complete, each⟩ := walked undisturbed
    refine ⟨live, complete, fun sys member due _ => ?_, fun turn isTurn _ => ?_⟩
    · rw [counts sys due undisturbed]
      exact keeps.filedOnce sys member due
    · rw [(each turn isTurn).1]
      exact complete.subset (List.mem_map_of_mem isTurn)

end SystemScheduler

/-! ## Handlers that do nothing -/

section Quiet

variable [DecidableEq ι] [Zero τ] [Add τ] [LT τ] [DecidableLT τ]
  {systems : ι → VECSSystem τ} {delta elapsed : τ}

/-- Running a system handles it if it is due. -/
theorem Pass.handledOf_runSystem (pass : Pass ι τ) (sys : ι) :
    SystemScheduler.handledOf
        (pass.scheduler.runSystem systems delta elapsed sys).effects =
      if pass.isDue systems delta elapsed sys then [sys] else [] := by
  have listed := (SystemScheduler.runSystem_spec systems pass.scheduler delta
    elapsed sys).2.2
  unfold Pass.isDue
  obtain none | one := List.sublist_singleton.mp listed
  · rw [none]
    rfl
  · rw [one]
    rfl

/-- Handlers that make no calls have the systems handled in order. -/
theorem Pass.handled_walk_quiet
    {pass : Pass ι τ} (live : pass.readErased = false) {group : String}
    (alive : pass.orderAlive group = true) (order : List ι) :
    (pass.walk systems (fun _ => []) group delta elapsed order).handled =
      pass.handled ++ SystemScheduler.handledOf
        (Traced.forEach (SystemScheduler.runSystem systems delta elapsed)
          pass.scheduler order).effects := by
  induction order generalizing pass with
  | nil =>
      unfold Pass.walk Pass.finish
      rw [List.foldl_nil, live]
      exact (List.append_nil _).symm
  | cons sys order inductionHypothesis =>
      have silent : pass.calls systems (fun _ => []) delta elapsed sys = [] := by
        unfold Pass.calls
        split <;> rfl
      have scheduler : (pass.turn systems (fun _ => []) group delta elapsed
          sys).scheduler =
            (pass.scheduler.runSystem systems delta elapsed sys).state := by
        unfold Pass.turn
        rw [live, if_neg Bool.false_ne_true, alive, if_neg (by simp), silent]
        rfl
      have stays : (pass.turn systems (fun _ => []) group delta elapsed
          sys).readErased = false := Pass.readErased_turn live alive sys
      have later := inductionHypothesis stays
        ((Pass.orderAlive_turn live alive sys).mpr (by rw [silent]; nofun))
      rw [scheduler] at later
      refine later.trans ?_
      rw [Traced.forEach_cons, Traced.andThen_effects,
        SystemScheduler.handledOf_append, ← List.append_assoc,
        pass.handledOf_runSystem]
      congr 1
      unfold Pass.handled
      rw [Pass.turns_turn live alive, List.filter_append, List.map_append]
      congr 1
      cases pass.isDue systems delta elapsed sys <;> rfl

/-- With handlers that do nothing it is the pass of `process`. -/
theorem SystemScheduler.handled_processWith_quiet
    (scheduler : SystemScheduler ι τ) (delta : τ) (group : String) :
    (scheduler.processWith systems (fun _ => []) delta group).handled =
      handledOf (scheduler.process systems delta group).effects := by
  by_cases inhabited : scheduler.filed group = []
  · have none : ({ scheduler with
        elapsedByGroup := scheduler.elapsedByGroup.insert group
          (scheduler.clock delta group) } : SystemScheduler ι τ).filed group =
        [] := inhabited
    unfold processWith process
    rw [inhabited]
    dsimp only
    unfold clock at none
    rw [none]
    rfl
  · have some' : ¬ (({ scheduler with
        elapsedByGroup := scheduler.elapsedByGroup.insert group
          ((scheduler.elapsedByGroup.lookup group).getD 0 + delta) } :
        SystemScheduler ι τ).filed group).isEmpty = true := by
      rw [List.isEmpty_iff]
      exact inhabited
    unfold processWith process
    dsimp only
    rw [if_neg (by simpa using inhabited), if_neg some',
      Pass.handled_walk_quiet rfl (orderAlive_enter systems inhabited delta),
      Traced.andThen_effects, handledOf_append, handledOf_flush,
      List.append_nil]
    rfl

end Quiet

/-! ## Every pass of a run -/

namespace Scheduled

variable [DecidableEq ι] [Zero τ] [Add τ] [LT τ] [DecidableLT τ]

/-- The cached orders are right after every run of calls. -/
theorem run_cacheFollows
    (systems : ι → VECSSystem τ) (calls : List (SchedulerCall ι τ)) :
    ((Scheduled.mk systems {}).run calls).scheduler.CacheFollows := by
  induction calls using List.reverseRecOn with
  | nil => exact fun _ _ none => nomatch none
  | append_singleton calls call inductionHypothesis =>
      rw [run_append]
      cases call with
      | addSystem sys => exact inductionHypothesis.addSystem _ sys
      | setGroup sys group => exact inductionHypothesis
      | removeSystem sys => exact inductionHypothesis.removeSystem _ sys
      | process delta group =>
          exact (SystemScheduler.process_spec _ inductionHypothesis delta
            group).2.1

/-- After any calls a pass survives the registrations of its handlers exactly
if it keeps the order it walks over. -/
theorem run_survivesRegistration_iff
    (systems : ι → VECSSystem τ) (calls : List (SchedulerCall ι τ))
    (handlers : Handlers ι) (delta : τ) (group : String) :
    ((Scheduled.mk systems {}).run calls).scheduler.SurvivesRegistration
        ((Scheduled.mk systems {}).run calls).systems handlers delta group ↔
      ((Scheduled.mk systems {}).run calls).scheduler.KeepsOrder
        ((Scheduled.mk systems {}).run calls).systems handlers delta group :=
  SystemScheduler.survivesRegistration_iff (run_cacheFollows systems calls)
    delta group

end Scheduled

/-- A system without interval, in the group `a`. -/
def spawnerSystem (_ : Nat) : VECSSystem ℚ :=
  { systemName := "SpawnerSystem", group := "a", tickInterval := 0 }

/-- The first system adds a second one to its own group, and the pass goes on in
an erased order. -/
theorem Scheduled.run_not_survivesRegistration_spawner :
    ¬ ((Scheduled.mk spawnerSystem {}).run
        [.addSystem 0]).scheduler.SurvivesRegistration
      ((Scheduled.mk spawnerSystem {}).run [.addSystem 0]).systems
      (fun _ => [.addSystem 1]) 1 "a" := by
  intro survives
  exact absurd survives.alive (by decide +kernel)

end VortarisECS
