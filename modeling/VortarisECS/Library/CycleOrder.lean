import Mathlib.Data.Fintype.Card
import Mathlib.Data.List.Perm.Lattice
import Mathlib.Data.Set.Finite.Basic
import Mathlib.Logic.Relation
import VortarisECS.Library.TopologicalOrder

/-!
# What Kahn's order respects

The nodes the loop takes come after all nodes with an edge to them.  The nodes
it leaves are those that a cycle reaches: each of them keeps an edge from
another one.
-/

namespace TopologicalOrder

open Relation

/-- The node is on a cycle or reachable from one. -/
def FromCycle (edge : Nat → Nat → Prop) (j : Nat) : Prop :=
  ∃ i, TransGen edge i i ∧ ReflTransGen edge i j

/-- What follows a node held by a cycle is held by it. -/
theorem FromCycle.next
    {edge : Nat → Nat → Prop} {i j : Nat} (held : FromCycle edge i)
    (step : edge i j) : FromCycle edge j := by
  obtain ⟨c, cycle, reaches⟩ := held
  exact ⟨c, cycle, reaches.tail step⟩

/-- Finitely many nodes that all have a predecessor among them come from a
cycle. -/
theorem fromCycle_of_preceded
    {edge : Nat → Nat → Prop} {held : Nat → Prop} {n : Nat}
    (bounded : ∀ i, held i → i < n)
    (preceded : ∀ j, held j → ∃ i, held i ∧ edge i j)
    {j : Nat} (isHeld : held j) : FromCycle edge j := by
  by_contra acyclic
  -- among the nodes no cycle reaches, one is minimal
  let Node := {i // held i ∧ ¬ FromCycle edge i}
  have finite : Finite Node :=
    ((Set.finite_lt_nat n).subset fun i member => bounded i member.1).to_subtype
  let before : Node → Node → Prop := fun i j => TransGen edge i.1 j.1
  have transitive : IsTrans Node before :=
    ⟨fun _ _ _ first second => first.trans second⟩
  have irreflexive : Std.Irrefl before :=
    ⟨fun i cycle => i.2.2 ⟨i.1, cycle, .refl⟩⟩
  have founded : WellFounded before :=
    Finite.wellFounded_of_trans_of_irrefl before
  refine founded.induction (C := fun _ => False) ⟨j, isHeld, acyclic⟩
    fun least minimal => ?_
  obtain ⟨i, above, step⟩ := preceded least.1 least.2.1
  have free : ¬ FromCycle edge i := fun held => least.2.2 (held.next step)
  exact minimal ⟨i, above, free⟩ (.single step)

section Earlier

variable {edge : Nat → Nat → Prop} {order : List Nat}
  (earlier : ∀ j ∈ order, ∀ i, edge i j →
    i ∈ order ∧ order.idxOf i < order.idxOf j)

include earlier

/-- A path leads forward in the order. -/
theorem earlier_of_transGen
    {i j : Nat} (path : TransGen edge i j) (member : j ∈ order) :
    i ∈ order ∧ order.idxOf i < order.idxOf j := by
  induction path using TransGen.head_induction_on with
  | single step => exact earlier j member _ step
  | head step _ inductionHypothesis =>
      have first := earlier _ inductionHypothesis.1 _ step
      exact ⟨first.1, first.2.trans inductionHypothesis.2⟩

/-- Nodes whose predecessors all come earlier in a list are not on a cycle. -/
theorem not_fromCycle_of_earlier {j : Nat} (member : j ∈ order) :
    ¬ FromCycle edge j := by
  rintro ⟨i, cycle, reaches⟩
  have onCycle : i ∈ order := by
    obtain rfl | path := reflTransGen_iff_eq_or_transGen.mp reaches
    · exact member
    · exact (earlier_of_transGen earlier path member).1
  exact lt_irrefl _ (earlier_of_transGen earlier cycle onCycle).2

end Earlier

/-! ## Edges and counts -/

/-- There is an edge between two nodes. -/
def Graph.Edge (graph : Graph) (i j : Nat) : Prop := j ∈ graph.outEdges i

/-- Adding an edge adds that one edge. -/
theorem Graph.edge_addEdge
    (graph : Graph) (source target i j : Nat) :
    (graph.addEdge source target).Edge i j ↔
      graph.Edge i j ∨ i = source ∧ j = target := by
  unfold Graph.Edge Graph.addEdge
  dsimp only
  by_cases same : i = source
  · subst same
    rw [Function.update_self, List.mem_append, List.mem_singleton]
    simp
  · rw [Function.update_of_ne same]
    simp [same]

/-- The edges leave nodes below `n`, and every node counts those into it. -/
structure Graph.Counted (graph : Graph) (n : Nat) : Prop where
  sources : ∀ i j, graph.Edge i j → i < n
  indegree : ∀ j, graph.indegree j =
    (((List.range n).flatMap graph.outEdges).count j : Nat)

theorem Graph.counted_empty (n : Nat) : Graph.empty.Counted n := by
  refine ⟨fun i j step => absurd step List.not_mem_nil, fun j => ?_⟩
  have none : (List.range n).flatMap Graph.empty.outEdges = [] := by
    simp [Graph.empty]
  rw [none]
  rfl

/-- A new edge counts once at its target. -/
theorem count_addEdge
    (graph : Graph) (source target j n : Nat) :
    ((List.range n).flatMap (graph.addEdge source target).outEdges).count j =
      ((List.range n).flatMap graph.outEdges).count j +
        if source < n ∧ target = j then 1 else 0 := by
  induction n with
  | zero => simp
  | succ n inductionHypothesis =>
      rw [List.range_succ, List.flatMap_append, List.flatMap_append,
        List.count_append, List.count_append, inductionHypothesis,
        List.flatMap_singleton, List.flatMap_singleton]
      unfold Graph.addEdge
      dsimp only
      by_cases same : n = source
      · subst same
        rw [Function.update_self, List.count_append, List.count_singleton]
        simp
        omega
      · rw [Function.update_of_ne same]
        have below : source < n + 1 ↔ source < n := by omega
        simp only [below]
        omega

theorem Graph.Counted.addEdge
    {graph : Graph} {n : Nat} (counted : graph.Counted n)
    {source : Nat} (inRange : source < n) (target : Nat) :
    (graph.addEdge source target).Counted n := by
  refine ⟨fun i j step => ?_, fun j => ?_⟩
  · obtain old | ⟨rfl, -⟩ := (graph.edge_addEdge source target i j).mp step
    · exact counted.sources i j old
    · exact inRange
  · rw [count_addEdge, Int.natCast_add, ← counted.indegree j]
    unfold Graph.addEdge
    dsimp only
    by_cases same : target = j
    · subst same
      rw [Function.update_self, if_pos ⟨inRange, rfl⟩]
      rfl
    · rw [Function.update_of_ne (Ne.symm same), if_neg fun both => same both.2]
      exact (Int.add_zero _).symm

/-! ## The loop -/

/-- Releasing targets lowers their indegree by how often they occur. -/
theorem Frontier.indegree_foldl_release
    (f : Frontier) (targets : List Nat) (j : Nat) :
    (targets.foldl Frontier.release f).indegree j =
      f.indegree j - (targets.count j : Nat) := by
  induction targets generalizing f with
  | nil => exact (Int.sub_zero _).symm
  | cons target targets inductionHypothesis =>
      rw [List.foldl_cons, inductionHypothesis, List.count_cons]
      unfold Frontier.release
      dsimp only
      by_cases same : target = j
      · subst same
        rw [Function.update_self, if_pos (beq_self_eq_true target)]
        omega
      · rw [Function.update_of_ne (Ne.symm same), if_neg (by simpa using same)]
        omega

/-- The edges out of the nodes taken are gone, and these nodes come after their
predecessors. -/
structure Frontier.Follows (f : Frontier) (graph : Graph) : Prop where
  counts : ∀ j, f.indegree j =
    graph.indegree j - ((f.order.flatMap graph.outEdges).count j : Nat)
  earlier : ∀ j ∈ f.order, ∀ i, graph.Edge i j →
    i ∈ f.order ∧ f.order.idxOf i < f.order.idxOf j

section Loop

variable {graph : Graph} {f : Frontier} {n : Nat}

theorem Frontier.follows_start (graph : Graph) (n : Nat) :
    (Frontier.start n graph.indegree).Follows graph :=
  ⟨fun _ => (Int.sub_zero _).symm,
    fun _ member => absurd member List.not_mem_nil⟩

/-- The nodes that are not taken. -/
theorem Frontier.Placed.exists_rest (placed : f.Placed n) :
    ∃ rest, (f.order ++ rest).Perm (List.range n) ∧
      ∀ i ∈ rest, i ∉ f.order := by
  have nodup := (List.nodup_append.mp placed.nodup).1
  have nodes : f.order ⊆ List.range n := fun i member =>
    List.mem_range.mpr ((placed.mem_iff i).mp (List.mem_append_left _ member)).1
  obtain ⟨taken, same, sub⟩ := nodup.subperm nodes
  obtain ⟨rest, split⟩ := sub.exists_perm_append
  have perm := split.trans (same.append_right rest)
  have apart := List.disjoint_of_nodup_append (perm.nodup List.nodup_range)
  exact ⟨rest, perm.symm, fun i inRest taken => apart taken inRest⟩

/-- The indegree counts the edges from nodes still to come. -/
theorem Frontier.Follows.indegree_eq
    (follows : f.Follows graph) (counted : graph.Counted n)
    {rest : List Nat} (perm : (f.order ++ rest).Perm (List.range n)) (j : Nat) :
    f.indegree j = ((rest.flatMap graph.outEdges).count j : Nat) := by
  have split := (perm.flatMap_right graph.outEdges).count_eq j
  rw [List.flatMap_append, List.count_append] at split
  rw [follows.counts, counted.indegree, ← split]
  omega

/-- A node without a remaining edge has all its predecessors taken. -/
theorem Frontier.Follows.mem_order_of_edge
    (follows : f.Follows graph) (counted : graph.Counted n)
    (placed : f.Placed n) {i j : Nat} (free : f.indegree j ≤ 0)
    (step : graph.Edge i j) : i ∈ f.order := by
  obtain ⟨rest, perm, -⟩ := placed.exists_rest
  have none : (rest.flatMap graph.outEdges).count j = 0 := by
    have counts := follows.indegree_eq counted perm j
    omega
  have node : i ∈ f.order ++ rest :=
    perm.mem_iff.mpr (List.mem_range.mpr (counted.sources i j step))
  obtain taken | left := List.mem_append.mp node
  · exact taken
  · exact absurd (List.mem_flatMap.mpr ⟨i, left, step⟩)
      (List.count_eq_zero.mp none)

/-- A node with a remaining edge has a predecessor that is not taken. -/
theorem Frontier.Follows.exists_edge
    (follows : f.Follows graph) (counted : graph.Counted n)
    (placed : f.Placed n) {j : Nat} (held : 0 < f.indegree j) :
    ∃ i, i < n ∧ i ∉ f.order ∧ graph.Edge i j := by
  obtain ⟨rest, perm, left⟩ := placed.exists_rest
  have some : 0 < (rest.flatMap graph.outEdges).count j := by
    have counts := follows.indegree_eq counted perm j
    omega
  obtain ⟨i, inRest, step⟩ := List.mem_flatMap.mp (List.count_pos_iff.mp some)
  exact ⟨i, counted.sources i j step, left i inRest, step⟩

theorem Frontier.Follows.pop
    (follows : f.Follows graph) (counted : graph.Counted n)
    (placed : f.Placed n) : (f.pop graph.outEdges).Follows graph := by
  unfold Frontier.pop
  split
  next => exact follows
  next i rest queued =>
      have inPlace : i ∈ f.order ++ f.queue :=
        List.mem_append_right _ (queued ▸ List.mem_cons_self)
      have fresh : i ∉ f.order := fun taken =>
        List.disjoint_of_nodup_append placed.nodup taken
          (queued ▸ List.mem_cons_self)
      have free := ((placed.mem_iff i).mp inPlace).2
      refine ⟨fun j => ?_, fun j member k step => ?_⟩
      · rw [Frontier.indegree_foldl_release, Frontier.foldl_release_order]
        dsimp only
        rw [follows.counts, List.flatMap_append, List.flatMap_singleton,
          List.count_append]
        omega
      · rw [Frontier.foldl_release_order] at member ⊢
        dsimp only at member ⊢
        obtain old | last := List.mem_append.mp member
        · obtain ⟨taken, before⟩ := follows.earlier j old k step
          rw [List.idxOf_append_of_mem taken, List.idxOf_append_of_mem old]
          exact ⟨List.mem_append_left _ taken, before⟩
        · obtain rfl := List.mem_singleton.mp last
          have taken := follows.mem_order_of_edge counted placed free step
          rw [List.idxOf_append_of_mem taken,
            List.idxOf_append_of_notMem fresh]
          exact ⟨List.mem_append_left _ taken,
            Nat.lt_add_right _ (List.idxOf_lt_length_of_mem taken)⟩

/-- After draining, the nodes taken come after their predecessors. -/
theorem Graph.follows_drain
    (within : graph.Within n) (counted : graph.Counted n) :
    (graph.drain n).Follows graph := by
  have rounds : ∀ k, ((Frontier.pop graph.outEdges)^[k]
      (.start n graph.indegree)).Follows graph := by
    intro k
    induction k with
    | zero => exact Frontier.follows_start graph n
    | succ k inductionHypothesis =>
        rw [Function.iterate_succ_apply']
        exact inductionHypothesis.pop counted
          ((Frontier.placed_start within).iterate within k)
  exact rounds n

/-! ## The order -/

/-- The loop takes the nodes no cycle reaches, and only those. -/
theorem mem_order_drain_iff
    (within : graph.Within n) (counted : graph.Counted n) (j : Nat) :
    j ∈ (graph.drain n).order ↔ j < n ∧ ¬ FromCycle graph.Edge j := by
  have follows := graph.follows_drain within counted
  have placed := within.drain
  have mem_iff := placed.mem_iff
  rw [queue_drain within, List.append_nil] at mem_iff
  constructor
  · intro taken
    exact ⟨((mem_iff j).mp taken).1,
      not_fromCycle_of_earlier follows.earlier taken⟩
  · rintro ⟨inRange, acyclic⟩
    by_contra left
    refine acyclic (@fromCycle_of_preceded graph.Edge
      (fun i => i < n ∧ i ∉ (graph.drain n).order) n
      (fun i held => held.1) (fun k held => ?_) j ⟨inRange, left⟩)
    have remains : 0 < (graph.drain n).indegree k := by
      have := mt (fun few => (mem_iff k).mpr ⟨held.1, few⟩) held.2
      omega
    obtain ⟨i, below, missing, step⟩ :=
      follows.exists_edge counted placed remains
    exact ⟨i, ⟨below, missing⟩, step⟩

/-- The nodes a cycle reaches come last, in the order of the numbers. -/
theorem order_eq_append
    (within : graph.Within n) (counted : graph.Counted n) :
    ∃ last, graph.order n = (graph.drain n).order ++ last ∧
      last.Pairwise (· < ·) ∧
      ∀ i, i ∈ last ↔ i < n ∧ FromCycle graph.Edge i := by
  have mem_iff := within.drain.mem_iff
  rw [queue_drain within, List.append_nil] at mem_iff
  refine ⟨_, rfl, List.pairwise_lt_range.filter _, fun i => ?_⟩
  rw [List.mem_filter, List.mem_range, decide_eq_true_eq]
  have taken := mem_order_drain_iff within counted i
  rw [mem_iff] at taken
  refine and_congr_right fun inRange => ?_
  rw [and_congr_right_iff] at taken
  rw [gt_iff_lt, ← not_le, taken inRange, not_not]

/-- An edge is respected when no cycle reaches the node it leaves. -/
theorem idxOf_order_lt
    (within : graph.Within n) (counted : graph.Counted n)
    {i j : Nat} (step : graph.Edge i j)
    (acyclic : ¬ FromCycle graph.Edge i) :
    (graph.order n).idxOf i < (graph.order n).idxOf j := by
  have taken := (mem_order_drain_iff within counted i).mpr
    ⟨counted.sources i j step, acyclic⟩
  unfold Graph.order
  rw [List.idxOf_append_of_mem taken]
  by_cases later : j ∈ (graph.drain n).order
  · rw [List.idxOf_append_of_mem later]
    exact ((graph.follows_drain within counted).earlier j later i step).2
  · rw [List.idxOf_append_of_notMem later]
    exact Nat.lt_add_right _ (List.idxOf_lt_length_of_mem taken)

/-- Without edges nothing moves. -/
theorem order_of_no_edge
    (within : graph.Within n) (counted : graph.Counted n)
    (none : ∀ i j, ¬ graph.Edge i j) : graph.order n = List.range n := by
  have noEdges : ∀ i, graph.outEdges i = [] := fun i =>
    List.eq_nil_iff_forall_not_mem.mpr (none i)
  have counts : ∀ j, graph.indegree j = 0 := by
    intro j
    rw [counted.indegree, List.count_eq_zero.mpr]
    · rfl
    · intro member
      obtain ⟨i, -, step⟩ := List.mem_flatMap.mp member
      exact none i j step
  have rounds : ∀ k, ((Frontier.pop graph.outEdges)^[k]
      (.start n graph.indegree)).order ++ ((Frontier.pop graph.outEdges)^[k]
      (.start n graph.indegree)).queue = List.range n := by
    intro k
    induction k with
    | zero =>
        refine List.filter_eq_self.mpr fun i _ => ?_
        rw [counts]
        rfl
    | succ k inductionHypothesis =>
        rw [Function.iterate_succ_apply']
        generalize (Frontier.pop graph.outEdges)^[k] _ = before at *
        unfold Frontier.pop
        split
        next => exact inductionHypothesis
        next i rest queued =>
            rw [noEdges, List.foldl_nil, List.append_assoc,
              List.singleton_append, ← queued]
            exact inductionHypothesis
  have drained : (graph.drain n).order = List.range n := by
    have all := rounds n
    have done : ((Frontier.pop graph.outEdges)^[n]
        (.start n graph.indegree)).queue = [] := queue_drain within
    rwa [done, List.append_nil] at all
  have length := (order_perm within).length_eq
  unfold Graph.order at length ⊢
  rw [List.length_append, drained] at length
  rw [drained, List.append_right_eq_self, ← List.length_eq_zero_iff]
  omega

end Loop

end TopologicalOrder
