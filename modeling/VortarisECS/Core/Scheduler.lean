import VortarisECS.Library.Association
import VortarisECS.Library.TopologicalOrder
import VortarisECS.Library.Traced

/-!
# The system scheduler

Systems are filed under the group they have when they are added.  `process`
drives one group: it runs the systems filed under it in the order of their
dependencies, each at most as often as its interval allows.  The clock is any
type with a zero, a sum and an order; the source's is the double.
-/

namespace VortarisECS

/-- What a dependency says of the order of two systems. -/
inductive SystemOrder
  | any
  | after
  | before
  deriving DecidableEq, Repr

/-- A constraint relative to the system with the target's name. -/
structure SystemDep where
  order : SystemOrder := .any
  target : String
  deriving DecidableEq, Repr

namespace FlushMode

/-- Commands are executed after every system. -/
def perSystem : Int := 0

/-- Commands are executed after the last system of a group. -/
def perGroup : Int := 1

/-- Commands wait until they are executed by hand. -/
def manual : Int := 2

end FlushMode

/-- What the scheduler reads of a system. -/
structure VECSSystem (τ : Type v) where
  systemName : String
  group : String := ""
  active : Bool := true
  paused : Bool := false
  flushMode : Int := FlushMode.perSystem
  tickInterval : τ
  deps : List SystemDep := []
  deriving DecidableEq, Repr

/-- What a `process` call does to the outside. -/
inductive SystemEvent (ι : Type u) (τ : Type v)
  | handled (sys : ι) (delta : τ)
  | flushedCommandBuffers
  deriving DecidableEq, Repr

/-- The systems of each group in the order they were added, the orders computed
from them, and the clocks. -/
structure SystemScheduler (ι : Type u) (τ : Type v) where
  systemsByGroup : AList fun _ : String => List ι := ∅
  orderCache : AList fun _ : String => List ι := ∅
  nextRun : AList fun _ : ι => τ := ∅
  elapsedByGroup : AList fun _ : String => τ := ∅

variable {ι : Type u} {τ : Type v}

/-! ## The dependency order -/

/-- The index of a system by its name; of systems with one name the last. -/
def nameToIdx (systems : ι → VECSSystem τ) (filed : List ι) :
    AList fun _ : String => Nat :=
  filed.zipIdx.foldl
    (fun names entry => names.insert (systems entry.1).systemName entry.2) ∅

/-- The edge of one dependency; a name that no system of the group has adds
none. -/
def addDep (names : AList fun _ : String => Nat) (i : Nat)
    (graph : TopologicalOrder.Graph) (dep : SystemDep) :
    TopologicalOrder.Graph :=
  match names.lookup dep.target with
  | none => graph
  | some j =>
      match dep.order with
      | .any => graph
      | .after => graph.addEdge j i
      | .before => graph.addEdge i j

/-- The edges of all dependencies in a group. -/
def dependencyGraph (systems : ι → VECSSystem τ) (filed : List ι) :
    TopologicalOrder.Graph :=
  filed.zipIdx.foldl
    (fun graph entry =>
      (systems entry.1).deps.foldl (addDep (nameToIdx systems filed) entry.2)
        graph)
    .empty

/-- The systems of a group in the order they run in. -/
def sortSystems (systems : ι → VECSSystem τ) (filed : List ι) : List ι :=
  ((dependencyGraph systems filed).order filed.length).filterMap (filed[·]?)

namespace SystemScheduler

variable (systems : ι → VECSSystem τ)

/-- The systems filed under a group. -/
def filed (scheduler : SystemScheduler ι τ) (group : String) : List ι :=
  (scheduler.systemsByGroup.lookup group).getD []

/-- Sort a group anew; a group that is gone loses its order. -/
def recomputeOrder (scheduler : SystemScheduler ι τ) (group : String) :
    SystemScheduler ι τ :=
  match scheduler.systemsByGroup.lookup group with
  | none => { scheduler with orderCache := scheduler.orderCache.erase group }
  | some filed =>
      { scheduler with
        orderCache := scheduler.orderCache.insert group
          (sortSystems systems filed) }

/-- The cached order of a group, computed when it is not cached. -/
def ordered (scheduler : SystemScheduler ι τ) (group : String) :
    SystemScheduler ι τ × List ι :=
  match scheduler.orderCache.lookup group with
  | some order => (scheduler, order)
  | none =>
      let computed := scheduler.recomputeOrder systems group
      (computed, (computed.orderCache.lookup group).getD [])

/-! ## The calls -/

/-- File a system under its present group. -/
def addSystem (scheduler : SystemScheduler ι τ) (sys : ι) :
    SystemScheduler ι τ :=
  let key := (systems sys).group
  { scheduler with
    systemsByGroup :=
      scheduler.systemsByGroup.insert key (scheduler.filed key ++ [sys])
    orderCache := scheduler.orderCache.erase key }

variable [DecidableEq ι]

/-- Remove a system from its present group, and the group with its last one. -/
def removeSystem (scheduler : SystemScheduler ι τ) (sys : ι) :
    SystemScheduler ι τ :=
  let key := (systems sys).group
  { scheduler with
    systemsByGroup :=
      match scheduler.systemsByGroup.lookup key with
      | none => scheduler.systemsByGroup
      | some filed =>
          let others := filed.filter (· ≠ sys)
          if others.isEmpty then scheduler.systemsByGroup.erase key
          else scheduler.systemsByGroup.insert key others
    orderCache := scheduler.orderCache.erase key
    nextRun := scheduler.nextRun.erase sys }

variable [Zero τ] [Add τ] [LT τ] [DecidableLT τ]

/-- The turn of one system; the handler itself does nothing. -/
def runSystem (delta elapsed : τ) (scheduler : SystemScheduler ι τ)
    (sys : ι) : Traced (SystemEvent ι τ) (SystemScheduler ι τ) :=
  let interval := (systems sys).tickInterval
  let last := (scheduler.nextRun.lookup sys).getD 0
  if !(systems sys).active || (systems sys).paused then .pure scheduler
  else if 0 < interval ∧ elapsed < last + interval then .pure scheduler
  else
    { state :=
        if 0 < interval then
          { scheduler with nextRun := scheduler.nextRun.insert sys elapsed }
        else scheduler
      effects :=
        .handled sys delta ::
          if (systems sys).flushMode = FlushMode.perSystem then
            [.flushedCommandBuffers]
          else [] }

/-- Run the systems of a group in order, those that are due. -/
def process (scheduler : SystemScheduler ι τ) (delta : τ) (group : String) :
    Traced (SystemEvent ι τ) (SystemScheduler ι τ) :=
  let elapsed := (scheduler.elapsedByGroup.lookup group).getD 0 + delta
  let scheduler := { scheduler with
    elapsedByGroup := scheduler.elapsedByGroup.insert group elapsed }
  if (scheduler.filed group).isEmpty then .pure scheduler
  else
    let (scheduler, order) := scheduler.ordered systems group
    (Traced.forEach (runSystem systems delta elapsed) scheduler order).andThen
      fun scheduler =>
        { state := scheduler
          effects :=
            if order.any fun sys =>
                (systems sys).flushMode = FlushMode.perGroup then
              [.flushedCommandBuffers]
            else [] }

end SystemScheduler

/-! ## The order of a group lists its systems -/

section Order

variable (systems : ι → VECSSystem τ) (filed : List ι)

/-- Names stand for systems of the group. -/
theorem lookup_nameToIdx_lt
    {name : String} {j : Nat}
    (found : (nameToIdx systems filed).lookup name = some j) :
    j < filed.length := by
  have within : ∀ (entries : List (ι × Nat))
      (names : AList fun _ : String => Nat),
      (∀ entry ∈ entries, entry.2 < filed.length) →
      (∀ name j, names.lookup name = some j → j < filed.length) →
      ∀ name j, (entries.foldl (fun names entry =>
        names.insert (systems entry.1).systemName entry.2) names).lookup
          name = some j → j < filed.length := by
    intro entries
    induction entries with
    | nil => exact fun _ _ known => known
    | cons entry entries inductionHypothesis =>
        intro names inRange known
        refine inductionHypothesis _
          (fun later member => inRange later (List.mem_cons_of_mem _ member))
          fun name j found => ?_
        rw [AList.lookup_insert_if] at found
        split at found
        · cases found
          exact inRange entry List.mem_cons_self
        · exact known name j found
  exact within filed.zipIdx ∅
    (fun entry member => (List.mem_zipIdx' member).1)
    (fun name j none => nomatch none) name j found

/-- A dependency keeps the edges within the group. -/
theorem within_addDep
    {graph : TopologicalOrder.Graph} (within : graph.Within filed.length)
    {i : Nat} (inRange : i < filed.length) (dep : SystemDep) :
    (addDep (nameToIdx systems filed) i graph dep).Within filed.length := by
  unfold addDep
  split
  next => exact within
  next j found =>
      split
      · exact within
      · exact within.addEdge j inRange
      · exact within.addEdge i (lookup_nameToIdx_lt systems filed found)

/-- So do all dependencies together. -/
theorem within_dependencyGraph :
    (dependencyGraph systems filed).Within filed.length := by
  have dependencies : ∀ entry ∈ filed.zipIdx,
      ∀ graph : TopologicalOrder.Graph, graph.Within filed.length →
        ((systems entry.1).deps.foldl
          (addDep (nameToIdx systems filed) entry.2) graph).Within
            filed.length := by
    intro entry member graph within
    exact List.foldlRecOn
      (motive := fun graph : TopologicalOrder.Graph =>
        graph.Within filed.length)
      (systems entry.1).deps _ within
      fun graph within dep _ => within_addDep systems filed within
        (List.mem_zipIdx' member).1 dep
  exact List.foldlRecOn
    (motive := fun graph : TopologicalOrder.Graph =>
      graph.Within filed.length)
    filed.zipIdx _ (TopologicalOrder.Graph.within_empty _)
    fun graph within entry member => dependencies entry member graph within

/-- The places of a list give the list back. -/
theorem filterMap_range_getElem? :
    (List.range filed.length).filterMap (filed[·]?) = filed := by
  induction filed with
  | nil => rfl
  | cons sys filed inductionHypothesis =>
      rw [List.length_cons, List.range_succ_eq_map, List.filterMap_cons,
        List.filterMap_map]
      exact congrArg (sys :: ·) inductionHypothesis

/-- Every system of a group is in its order exactly as often as it is filed. -/
theorem sortSystems_perm : (sortSystems systems filed).Perm filed := by
  have sorted := (TopologicalOrder.order_perm
    (within_dependencyGraph systems filed)).filterMap (filed[·]?)
  rwa [filterMap_range_getElem?] at sorted

end Order

namespace SystemScheduler

/-- The systems that run, in order. -/
def handledOf (effects : List (SystemEvent ι τ)) : List ι :=
  effects.filterMap fun
    | .handled sys _ => some sys
    | .flushedCommandBuffers => none

@[simp] theorem handledOf_append (first second : List (SystemEvent ι τ)) :
    handledOf (first ++ second) = handledOf first ++ handledOf second :=
  List.filterMap_append

@[simp] theorem handledOf_flush (flush : Prop) [Decidable flush] :
    handledOf (if flush then [.flushedCommandBuffers] else [] :
      List (SystemEvent ι τ)) = [] := by
  split <;> rfl

/-- Every cached order is an order of the systems filed now. -/
def CacheFollows (scheduler : SystemScheduler ι τ) : Prop :=
  ∀ group order, scheduler.orderCache.lookup group = some order →
    order.Perm (scheduler.filed group)

variable (systems : ι → VECSSystem τ) {scheduler : SystemScheduler ι τ}

/-- The order of a group has the systems that are filed in it. -/
theorem ordered_spec (follows : scheduler.CacheFollows) (group : String) :
    (scheduler.ordered systems group).1.systemsByGroup =
        scheduler.systemsByGroup ∧
      (scheduler.ordered systems group).1.CacheFollows ∧
      (scheduler.ordered systems group).2.Perm (scheduler.filed group) := by
  unfold ordered
  cases cached : scheduler.orderCache.lookup group with
  | some order => exact ⟨rfl, follows, follows group order cached⟩
  | none =>
      dsimp only
      unfold recomputeOrder
      cases isFiled : scheduler.systemsByGroup.lookup group with
      | none =>
          dsimp only
          refine ⟨rfl, fun other order found => ?_, ?_⟩
          · rw [AList.lookup_erase_if] at found
            split at found
            · cases found
            · exact follows other order found
          · rw [AList.lookup_erase]
            unfold filed
            rw [isFiled]
      | some filed =>
          dsimp only
          have sorted : (sortSystems systems filed).Perm
              (scheduler.filed group) := by
            unfold SystemScheduler.filed
            rw [isFiled]
            exact sortSystems_perm systems filed
          refine ⟨rfl, fun other order found => ?_, ?_⟩
          · rw [AList.lookup_insert_if] at found
            split at found
            next same =>
                rw [same, ← Option.some.inj found]
                exact sorted
            next => exact follows other order found
          · rw [AList.lookup_insert, Option.getD_some]
            exact sorted

/-- Adding files a system at the end of its present group. -/
theorem filed_addSystem (sys : ι) (group : String) :
    (scheduler.addSystem systems sys).filed group =
      if group = (systems sys).group then scheduler.filed group ++ [sys]
      else scheduler.filed group := by
  unfold addSystem
  dsimp only [filed]
  rw [AList.lookup_insert_if]
  split
  next same =>
      rw [same]
      rfl
  next => rfl

/-- Adding a system keeps the cached orders right. -/
theorem CacheFollows.addSystem
    (follows : scheduler.CacheFollows) (sys : ι) :
    (scheduler.addSystem systems sys).CacheFollows := by
  intro group order cached
  unfold SystemScheduler.addSystem at cached
  rw [AList.lookup_erase_if] at cached
  split at cached
  · cases cached
  · rw [filed_addSystem, if_neg (by assumption)]
    exact follows group order cached

variable [DecidableEq ι]

/-- Removing takes a system out of its present group. -/
theorem filed_removeSystem (sys : ι) (group : String) :
    (scheduler.removeSystem systems sys).filed group =
      if group = (systems sys).group then
        (scheduler.filed group).filter (· ≠ sys)
      else scheduler.filed group := by
  unfold removeSystem
  dsimp only [filed]
  cases known : scheduler.systemsByGroup.lookup (systems sys).group with
  | none =>
      dsimp only
      split
      next same =>
          rw [same, known]
          rfl
      next => rfl
  | some filed =>
      dsimp only
      split
      next none =>
          rw [AList.lookup_erase_if]
          split
          next same =>
              rw [same, known]
              exact (List.isEmpty_iff.mp none).symm
          next => rfl
      next =>
          rw [AList.lookup_insert_if]
          split
          next same =>
              rw [same, known]
              rfl
          next => rfl

/-- Removing a system keeps the cached orders right. -/
theorem CacheFollows.removeSystem
    (follows : scheduler.CacheFollows) (sys : ι) :
    (scheduler.removeSystem systems sys).CacheFollows := by
  intro group order cached
  unfold SystemScheduler.removeSystem at cached
  rw [AList.lookup_erase_if] at cached
  split at cached
  · cases cached
  · rw [filed_removeSystem, if_neg (by assumption)]
    exact follows group order cached

/-! ## A `process` call runs what is filed -/

variable [Zero τ] [Add τ] [LT τ] [DecidableLT τ]

/-- A system that runs changes no file and no order. -/
theorem runSystem_spec (scheduler : SystemScheduler ι τ) (delta elapsed : τ) (sys : ι) :
    (scheduler.runSystem systems delta elapsed sys).state.systemsByGroup =
        scheduler.systemsByGroup ∧
      (scheduler.runSystem systems delta elapsed sys).state.orderCache =
        scheduler.orderCache ∧
      (handledOf (scheduler.runSystem systems delta elapsed sys).effects
        ).Sublist [sys] := by
  unfold runSystem
  dsimp only
  split
  · exact ⟨rfl, rfl, List.nil_sublist _⟩
  · split
    · exact ⟨rfl, rfl, List.nil_sublist _⟩
    · refine ⟨by split <;> rfl, by split <;> rfl, ?_⟩
      show (sys :: handledOf (if _ then _ else _)).Sublist [sys]
      rw [handledOf_flush]

/-- Systems that run change no file, and those that are due are handled in
turn. -/
theorem forEach_runSystem_spec
    (scheduler : SystemScheduler ι τ) (delta elapsed : τ) (order : List ι) :
    let ran := Traced.forEach (runSystem systems delta elapsed) scheduler order
    ran.state.systemsByGroup = scheduler.systemsByGroup ∧
      ran.state.orderCache = scheduler.orderCache ∧
      (handledOf ran.effects).Sublist order := by
  dsimp only
  induction order generalizing scheduler with
  | nil => exact ⟨rfl, rfl, List.nil_sublist _⟩
  | cons sys order inductionHypothesis =>
      obtain ⟨files, caches, first⟩ :=
        runSystem_spec systems scheduler delta elapsed sys
      obtain ⟨filesLater, cachesLater, later⟩ := inductionHypothesis
        (scheduler.runSystem systems delta elapsed sys).state
      rw [Traced.forEach_cons, Traced.andThen_state, Traced.andThen_effects]
      refine ⟨filesLater.trans files, cachesLater.trans caches, ?_⟩
      rw [handledOf_append]
      exact first.append later

/-- A `process` call leaves the files alone and runs systems filed under its
group only, each at most as often as it is filed. -/
theorem process_spec
    (follows : scheduler.CacheFollows) (delta : τ) (group : String) :
    (scheduler.process systems delta group).state.systemsByGroup =
        scheduler.systemsByGroup ∧
      (scheduler.process systems delta group).state.CacheFollows ∧
      (handledOf (scheduler.process systems delta group).effects).Subperm
        (scheduler.filed group) := by
  unfold process
  dsimp only
  split
  · exact ⟨rfl, follows, List.nil_subperm⟩
  · generalize known : SystemScheduler.mk _ _ _ _ = clocked
    have sameFiles : clocked.systemsByGroup = scheduler.systemsByGroup := by
      rw [← known]
    have clockedFollows : clocked.CacheFollows := by
      rw [← known]
      exact follows
    obtain ⟨files, caches, perm⟩ :=
      ordered_spec systems clockedFollows group
    obtain ⟨filesRun, cachesRun, sublist⟩ :=
      forEach_runSystem_spec systems (clocked.ordered systems group).1 delta
        ((scheduler.elapsedByGroup.lookup group).getD 0 + delta)
        (clocked.ordered systems group).2
    rw [Traced.andThen_state, Traced.andThen_effects]
    refine ⟨(filesRun.trans files).trans sameFiles, ?_, ?_⟩
    · intro other order cached
      have followed := caches other order (cachesRun ▸ cached)
      unfold filed at followed ⊢
      dsimp only
      rwa [filesRun]
    · rw [handledOf_append, handledOf_flush, List.append_nil]
      unfold filed at perm ⊢
      rw [← sameFiles]
      exact sublist.subperm.trans perm.subperm

end SystemScheduler

end VortarisECS
