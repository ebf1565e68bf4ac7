import VortarisECS.Core.Scheduler
import VortarisECS.Library.CycleOrder

/-!
# The order of a group

The dependencies of the systems of a group are edges between their places in
it.  The order respects all that start outside the cycles, and keeps the places
apart from them.
-/

namespace VortarisECS

open TopologicalOrder

variable {ι : Type u} {τ : Type v} (systems : ι → VECSSystem τ)

/-- The last place of a system with the name. -/
def NamedLast (filed : List ι) (name : String) (j : Nat) : Prop :=
  (∃ sys, filed[j]? = some sys ∧ (systems sys).systemName = name) ∧
    ∀ k sys, j < k → filed[k]? = some sys → (systems sys).systemName ≠ name

/-- A dependency of the system in one of the places puts place `i` before
place `j`. -/
def Precedes (filed : List ι) (i j : Nat) : Prop :=
  (∃ sys dep, filed[i]? = some sys ∧ dep ∈ (systems sys).deps ∧
      dep.order = .before ∧ NamedLast systems filed dep.target j) ∨
    ∃ sys dep, filed[j]? = some sys ∧ dep ∈ (systems sys).deps ∧
      dep.order = .after ∧ NamedLast systems filed dep.target i

/-! ## The graph -/

/-- A name stands for the last system that has it. -/
theorem lookup_nameToIdx (filed : List ι) (name : String) (j : Nat) :
    (nameToIdx systems filed).lookup name = some j ↔
      NamedLast systems filed name j := by
  unfold nameToIdx NamedLast
  induction filed using List.reverseRecOn generalizing j with
  | nil => simp
  | append_singleton filed sys inductionHypothesis =>
      rw [List.zipIdx_append, List.foldl_append]
      simp only [List.zipIdx_singleton, List.foldl_cons, List.foldl_nil,
        Nat.zero_add]
      rw [AList.lookup_insert_if]
      split
      next same =>
          -- the new system is the last of its name
          have atEnd : (filed ++ [sys])[filed.length]? = some sys :=
            List.getElem?_concat_length
          constructor
          · rintro ⟨⟩
            refine ⟨⟨sys, atEnd, same.symm⟩, fun k later above found => ?_⟩
            rw [List.getElem?_eq_none (by simp; omega)] at found
            cases found
          · rintro ⟨⟨named, found, -⟩, last⟩
            have below : j < (filed ++ [sys]).length :=
              (List.getElem?_eq_some_iff.mp found).1
            rw [List.length_append, List.length_singleton] at below
            have above : ¬ j < filed.length := fun inside =>
              last filed.length sys inside atEnd same.symm
            exact congrArg some (by omega)
      next other =>
          rw [inductionHypothesis]
          grind

/-- A dependency adds the edge it asks for. -/
theorem edge_addDep
    (names : AList fun _ : String => Nat) (place : Nat) (graph : Graph)
    (dep : SystemDep) (i j : Nat) :
    (addDep names place graph dep).Edge i j ↔ graph.Edge i j ∨
      (dep.order = .before ∧ i = place ∧ names.lookup dep.target = some j) ∨
      (dep.order = .after ∧ j = place ∧ names.lookup dep.target = some i) := by
  unfold addDep
  cases names.lookup dep.target with
  | none => simp
  | some target =>
      cases dep.order with
      | any => simp
      | after => simp [Graph.edge_addEdge, and_comm, eq_comm]
      | before => simp [Graph.edge_addEdge, eq_comm]

/-- Many dependencies add the edges they ask for. -/
theorem edge_foldl_addDep
    (names : AList fun _ : String => Nat) (place : Nat) (graph : Graph)
    (deps : List SystemDep) (i j : Nat) :
    (deps.foldl (addDep names place) graph).Edge i j ↔ graph.Edge i j ∨
      ∃ dep ∈ deps,
        (dep.order = .before ∧ i = place ∧ names.lookup dep.target = some j) ∨
        (dep.order = .after ∧ j = place ∧ names.lookup dep.target = some i) := by
  induction deps generalizing graph with
  | nil => simp
  | cons dep deps inductionHypothesis =>
      rw [List.foldl_cons, inductionHypothesis, edge_addDep, List.exists_mem_cons_iff]
      exact or_assoc

/-- The edges of the graph are the dependencies. -/
theorem edge_dependencyGraph (filed : List ι) (i j : Nat) :
    (dependencyGraph systems filed).Edge i j ↔ Precedes systems filed i j := by
  have entries : ∀ (entries : List (ι × Nat)) (graph : Graph),
      (entries.foldl (fun graph entry =>
        (systems entry.1).deps.foldl
          (addDep (nameToIdx systems filed) entry.2) graph) graph).Edge i j ↔
        graph.Edge i j ∨ ∃ entry ∈ entries, ∃ dep ∈ (systems entry.1).deps,
          (dep.order = .before ∧ i = entry.2 ∧
            NamedLast systems filed dep.target j) ∨
          (dep.order = .after ∧ j = entry.2 ∧
            NamedLast systems filed dep.target i) := by
    intro entries
    induction entries with
    | nil => simp
    | cons entry entries inductionHypothesis =>
        intro graph
        rw [List.foldl_cons, inductionHypothesis, edge_foldl_addDep,
          List.exists_mem_cons_iff, or_assoc]
        simp only [lookup_nameToIdx]
  have noEdge : ¬ Graph.empty.Edge i j := List.not_mem_nil
  have filedAt : ∀ sys place, (sys, place) ∈ filed.zipIdx ↔
      filed[place]? = some sys := fun sys place =>
    List.mk_mem_zipIdx_iff_getElem?
  unfold dependencyGraph Precedes
  rw [entries, or_iff_right noEdge]
  constructor
  · rintro ⟨⟨sys, place⟩, member, dep, isDep, ⟨order, rfl, named⟩ |
      ⟨order, rfl, named⟩⟩
    · exact .inl ⟨sys, dep, (filedAt sys i).mp member, isDep, order, named⟩
    · exact .inr ⟨sys, dep, (filedAt sys j).mp member, isDep, order, named⟩
  · rintro (⟨sys, dep, found, isDep, order, named⟩ |
      ⟨sys, dep, found, isDep, order, named⟩)
    · exact ⟨(sys, i), (filedAt sys i).mpr found, dep, isDep,
        .inl ⟨order, rfl, named⟩⟩
    · exact ⟨(sys, j), (filedAt sys j).mpr found, dep, isDep,
        .inr ⟨order, rfl, named⟩⟩

/-- An added edge is counted. -/
theorem counted_addDep
    (filed : List ι) {graph : Graph} (counted : graph.Counted filed.length)
    {place : Nat} (inRange : place < filed.length) (dep : SystemDep) :
    (addDep (nameToIdx systems filed) place graph dep).Counted
      filed.length := by
  unfold addDep
  split
  next => exact counted
  next target found =>
      split
      · exact counted
      · exact counted.addEdge (lookup_nameToIdx_lt systems filed found) place
      · exact counted.addEdge inRange target

/-- All edges are counted. -/
theorem counted_dependencyGraph (filed : List ι) :
    (dependencyGraph systems filed).Counted filed.length :=
  List.foldlRecOn
    (motive := fun graph : Graph => graph.Counted filed.length)
    filed.zipIdx _ (Graph.counted_empty _)
    fun _ counted entry member => List.foldlRecOn
      (motive := fun graph : Graph => graph.Counted filed.length)
      (systems entry.1).deps _ counted
      fun _ counted dep _ => counted_addDep systems filed counted
        (List.mem_zipIdx' member).1 dep

/-! ## The order -/

/-- The computed order lists every place of the group once.  A dependency holds
when no cycle reaches the place it puts first, the places a cycle reaches come
last as they were registered, and without dependencies all stay in place. -/
theorem SystemScheduler.recomputeOrder_respects
    {scheduler : SystemScheduler ι τ} {group : String} {filed : List ι}
    (registered : scheduler.systemsByGroup.lookup group = some filed) :
    ∃ places : List Nat, places.Perm (List.range filed.length) ∧
      (scheduler.recomputeOrder systems group).orderCache.lookup group =
        some (places.filterMap (filed[·]?)) ∧
      (places.filterMap (filed[·]?)).Perm filed ∧
      (∀ i j, Precedes systems filed i j →
        ¬ FromCycle (Precedes systems filed) i →
        places.idxOf i < places.idxOf j) ∧
      (∃ first last, places = first ++ last ∧ last.Pairwise (· < ·) ∧
        ∀ i, i ∈ last ↔
          i < filed.length ∧ FromCycle (Precedes systems filed) i) ∧
      ((∀ i j, ¬ Precedes systems filed i j) →
        places.filterMap (filed[·]?) = filed) := by
  have within := within_dependencyGraph systems filed
  have counted := counted_dependencyGraph systems filed
  have edges : (dependencyGraph systems filed).Edge =
      Precedes systems filed := by
    funext i j
    exact propext (edge_dependencyGraph systems filed i j)
  refine ⟨(dependencyGraph systems filed).order filed.length,
    order_perm within, ?_, sortSystems_perm systems filed, ?_, ?_, ?_⟩
  · unfold recomputeOrder
    rw [registered]
    exact AList.lookup_insert _
  · intro i j precedes acyclic
    rw [← edges] at precedes acyclic
    exact idxOf_order_lt within counted precedes acyclic
  · obtain ⟨last, split, sorted, members⟩ := order_eq_append within counted
    rw [edges] at members
    exact ⟨_, last, split, sorted, members⟩
  · intro none
    have same := order_of_no_edge within counted (by rwa [edges])
    rw [same, filterMap_range_getElem?]

/-! ## Two systems in a cycle -/

/-- The second and third system each want to run before the other, the fourth
before the first and the last after the third. -/
def entangled : Nat → VECSSystem Int
  | 0 => { systemName := "Render", tickInterval := 0 }
  | 1 =>
      { systemName := "Move", tickInterval := 0,
        deps := [{ order := .before, target := "Collide" }] }
  | 2 =>
      { systemName := "Collide", tickInterval := 0,
        deps := [{ order := .before, target := "Move" }] }
  | 3 =>
      { systemName := "Input", tickInterval := 0,
        deps := [{ order := .before, target := "Render" }] }
  | _ =>
      { systemName := "Sound", tickInterval := 0,
        deps := [{ order := .after, target := "Collide" }] }

example : sortSystems entangled [0, 1, 2, 3, 4] = [3, 0, 1, 2, 4] := by
  decide +kernel

/-- A group of five systems that depend on one another in circles. -/
theorem SystemScheduler.recomputeOrder_respects_entangled :
    ∃ places : List Nat, places.Perm (List.range 5) ∧
      (SystemScheduler.recomputeOrder entangled
        { systemsByGroup := AList.insert "" [0, 1, 2, 3, 4] ∅ } ""
        ).orderCache.lookup "" =
        some (places.filterMap ([0, 1, 2, 3, 4][·]?)) ∧
      (places.filterMap ([0, 1, 2, 3, 4][·]?)).Perm [0, 1, 2, 3, 4] ∧
      (∀ i j, Precedes entangled [0, 1, 2, 3, 4] i j →
        ¬ FromCycle (Precedes entangled [0, 1, 2, 3, 4]) i →
        places.idxOf i < places.idxOf j) ∧
      (∃ first last, places = first ++ last ∧ last.Pairwise (· < ·) ∧
        ∀ i, i ∈ last ↔
          i < 5 ∧ FromCycle (Precedes entangled [0, 1, 2, 3, 4]) i) ∧
      ((∀ i j, ¬ Precedes entangled [0, 1, 2, 3, 4] i j) →
        places.filterMap ([0, 1, 2, 3, 4][·]?) = [0, 1, 2, 3, 4]) :=
  have registered : ({ systemsByGroup := AList.insert "" [0, 1, 2, 3, 4] ∅ } :
      SystemScheduler Nat Int).systemsByGroup.lookup "" =
        some [0, 1, 2, 3, 4] := AList.lookup_insert _
  SystemScheduler.recomputeOrder_respects entangled registered

end VortarisECS
