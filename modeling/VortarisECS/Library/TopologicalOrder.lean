import Mathlib.Data.List.Nodup
import Mathlib.Data.List.Perm.Subperm
import Mathlib.Logic.Function.Basic
import Mathlib.Logic.Function.Iterate

/-!
# Kahn's order of a graph

The nodes are the numbers below `n`.  A graph is built edge by edge, which
counts the edges into every node.  The loop takes nodes without a remaining
incoming edge from a queue; nodes that a cycle holds back come last.  Whatever
the edges are, every node is in the order exactly once.
-/

namespace TopologicalOrder

/-- Edges out of every node, and the number of edges into it. -/
structure Graph where
  indegree : Nat → Int
  outEdges : Nat → List Nat

/-- A graph without edges. -/
def Graph.empty : Graph := ⟨fun _ => 0, fun _ => []⟩

/-- Add an edge and count it. -/
def Graph.addEdge (graph : Graph) (source target : Nat) : Graph where
  indegree := Function.update graph.indegree target (graph.indegree target + 1)
  outEdges := Function.update graph.outEdges source
    (graph.outEdges source ++ [target])

/-- The graph has only edges between nodes, and counts no node negative. -/
structure Graph.Within (graph : Graph) (n : Nat) : Prop where
  counted : ∀ i, 0 ≤ graph.indegree i
  targets : ∀ i, ∀ j ∈ graph.outEdges i, j < n

theorem Graph.within_empty (n : Nat) : Graph.empty.Within n :=
  ⟨fun _ => Int.le_refl 0, fun _ _ member => absurd member List.not_mem_nil⟩

/-- An edge into the range keeps the graph in range. -/
theorem Graph.Within.addEdge
    {graph : Graph} {n : Nat} (within : graph.Within n)
    (source : Nat) {target : Nat} (inRange : target < n) :
    (graph.addEdge source target).Within n := by
  refine ⟨fun i => ?_, fun i j member => ?_⟩
  · have counted := within.counted
    unfold Graph.addEdge
    dsimp only
    by_cases same : i = target
    · subst same
      rw [Function.update_self]
      have := counted i
      omega
    · rw [Function.update_of_ne same]
      exact counted i
  · unfold Graph.addEdge at member
    dsimp only at member
    by_cases same : i = source
    · subst same
      rw [Function.update_self, List.mem_append, List.mem_singleton] at member
      obtain old | rfl := member
      · exact within.targets i j old
      · exact inRange
    · rw [Function.update_of_ne same] at member
      exact within.targets i j member

/-! ## The loop -/

/-- Nodes ready to be taken, nodes taken, and the incoming edges that remain. -/
structure Frontier where
  queue : List Nat
  order : List Nat
  indegree : Nat → Int

/-- One edge into `target` is gone. -/
def Frontier.release (f : Frontier) (target : Nat) : Frontier where
  queue := if f.indegree target - 1 = 0 then f.queue ++ [target] else f.queue
  order := f.order
  indegree := Function.update f.indegree target (f.indegree target - 1)

/-- One round of the loop. -/
def Frontier.pop (outEdges : Nat → List Nat) (f : Frontier) : Frontier :=
  match f.queue with
  | [] => f
  | i :: rest =>
      (outEdges i).foldl Frontier.release
        { f with queue := rest, order := f.order ++ [i] }

/-- The nodes without incoming edges wait, and none is taken yet. -/
def Frontier.start (n : Nat) (indegree : Nat → Int) : Frontier where
  queue := (List.range n).filter fun i => indegree i = 0
  order := []
  indegree := indegree

/-- The frontier after the loop; `n` rounds empty the queue
(`queue_drain`). -/
def Graph.drain (graph : Graph) (n : Nat) : Frontier :=
  (Frontier.pop graph.outEdges)^[n] (Frontier.start n graph.indegree)

/-- The nodes in the order in which they become free, then those that never do. -/
def Graph.order (graph : Graph) (n : Nat) : List Nat :=
  (graph.drain n).order ++
    (List.range n).filter fun i => (graph.drain n).indegree i > 0

/-! ## Every node once -/

/-- The nodes queued or taken are those without a remaining incoming edge. -/
structure Frontier.Placed (f : Frontier) (n : Nat) : Prop where
  nodup : (f.order ++ f.queue).Nodup
  mem_iff : ∀ i, i ∈ f.order ++ f.queue ↔ i < n ∧ f.indegree i ≤ 0

theorem Frontier.placed_start
    {graph : Graph} {n : Nat} (within : graph.Within n) :
    (Frontier.start n graph.indegree).Placed n := by
  refine ⟨List.nodup_range.filter _, fun i => ?_⟩
  unfold Frontier.start
  rw [List.nil_append, List.mem_filter, List.mem_range, decide_eq_true_eq]
  have counted := within.counted i
  exact and_congr_right fun _ =>
    ⟨fun none => Int.le_of_eq none, fun few => Int.le_antisymm few counted⟩

/-- Releasing a node of the range keeps the frontier placed. -/
theorem Frontier.Placed.release
    {f : Frontier} {n : Nat} (placed : f.Placed n) {target : Nat}
    (inRange : target < n) : (f.release target).Placed n := by
  unfold Frontier.release
  by_cases last : f.indegree target - 1 = 0
  · -- an edge remained until now, so the node has not been placed before
    have fresh : target ∉ f.order ++ f.queue := by
      rw [placed.mem_iff]
      omega
    rw [if_pos last]
    refine ⟨?_, fun i => ?_⟩
    · dsimp only
      rw [← List.append_assoc, ← List.concat_eq_append]
      exact placed.nodup.concat fresh
    · dsimp only
      rw [← List.append_assoc, List.mem_append, List.mem_singleton,
        placed.mem_iff]
      by_cases same : i = target
      · subst same
        rw [Function.update_self]
        omega
      · rw [Function.update_of_ne same]
        exact or_iff_left same
  · rw [if_neg last]
    refine ⟨placed.nodup, fun i => ?_⟩
    dsimp only
    rw [placed.mem_iff]
    by_cases same : i = target
    · subst same
      rw [Function.update_self]
      omega
    · rw [Function.update_of_ne same]

theorem Frontier.foldl_release_order (f : Frontier) (targets : List Nat) :
    (targets.foldl Frontier.release f).order = f.order := by
  induction targets generalizing f with
  | nil => rfl
  | cons target targets inductionHypothesis =>
      rw [List.foldl_cons, inductionHypothesis]
      rfl

theorem Frontier.Placed.foldl_release
    {f : Frontier} {n : Nat} (placed : f.Placed n) {targets : List Nat}
    (inRange : ∀ j ∈ targets, j < n) :
    (targets.foldl Frontier.release f).Placed n := by
  induction targets generalizing f with
  | nil => exact placed
  | cons target targets inductionHypothesis =>
      rw [List.foldl_cons]
      exact inductionHypothesis
        (placed.release (inRange target List.mem_cons_self))
        fun j member => inRange j (List.mem_cons_of_mem target member)

/-- A step keeps the frontier placed. -/
theorem Frontier.Placed.pop
    {graph : Graph} {f : Frontier} {n : Nat} (within : graph.Within n)
    (placed : f.Placed n) : (f.pop graph.outEdges).Placed n := by
  unfold Frontier.pop
  split
  next => exact placed
  next i rest queued =>
      refine Frontier.Placed.foldl_release ?_ (within.targets i)
      have moved : f.order ++ [i] ++ rest = f.order ++ f.queue := by
        rw [queued, List.append_assoc, List.singleton_append]
      refine ⟨?_, fun j => ?_⟩
      · dsimp only
        rw [moved]
        exact placed.nodup
      · dsimp only
        rw [moved]
        exact placed.mem_iff j

theorem Frontier.Placed.iterate
    {graph : Graph} {f : Frontier} {n : Nat} (within : graph.Within n)
    (placed : f.Placed n) (rounds : Nat) :
    ((Frontier.pop graph.outEdges)^[rounds] f).Placed n := by
  induction rounds with
  | zero => exact placed
  | succ rounds inductionHypothesis =>
      rw [Function.iterate_succ_apply']
      exact inductionHypothesis.pop within

/-- After `rounds` rounds the queue is empty or so many nodes are taken. -/
theorem Frontier.iterate_progress
    (outEdges : Nat → List Nat) (f : Frontier) (rounds : Nat) :
    ((Frontier.pop outEdges)^[rounds] f).queue = [] ∨
      rounds ≤ ((Frontier.pop outEdges)^[rounds] f).order.length := by
  induction rounds with
  | zero => exact .inr (Nat.zero_le _)
  | succ rounds inductionHypothesis =>
      rw [Function.iterate_succ_apply']
      generalize (Frontier.pop outEdges)^[rounds] f = before at *
      cases queued : before.queue with
      | nil =>
          have same : before.pop outEdges = before := by
            unfold Frontier.pop
            rw [queued]
          exact .inl (by rw [same, queued])
      | cons i rest =>
          have taken := inductionHypothesis.resolve_left (by simp [queued])
          refine .inr ?_
          unfold Frontier.pop
          rw [queued]
          dsimp only
          rw [Frontier.foldl_release_order, List.length_append,
            List.length_singleton]
          omega

variable {graph : Graph} {n : Nat}

/-- Draining ends with a placed frontier. -/
theorem Graph.Within.drain (within : graph.Within n) :
    (graph.drain n).Placed n :=
  (Frontier.placed_start within).iterate within n

/-- The loop is over after `n` rounds. -/
theorem queue_drain (within : graph.Within n) :
    (graph.drain n).queue = [] := by
  obtain done | taken :=
    Frontier.iterate_progress graph.outEdges (.start n graph.indegree) n
  · exact done
  · have placed := within.drain
    have nodes : (graph.drain n).order ++ (graph.drain n).queue ⊆
        List.range n := fun i member =>
      List.mem_range.mpr ((placed.mem_iff i).mp member).1
    have few := (List.Nodup.subperm placed.nodup nodes).length_le
    rw [List.length_append, List.length_range] at few
    have taken : n ≤ (graph.drain n).order.length := taken
    exact List.length_eq_zero_iff.mp (by omega)

/-- Every node is in the order exactly once. -/
theorem order_perm (within : graph.Within n) :
    (graph.order n).Perm (List.range n) := by
  have placed := within.drain
  have nodup := placed.nodup
  have mem_iff := placed.mem_iff
  rw [queue_drain within, List.append_nil] at nodup mem_iff
  unfold Graph.order
  refine (List.perm_ext_iff_of_nodup ?_ List.nodup_range).mpr fun i => ?_
  · refine nodup.append (List.nodup_range.filter _) fun i taken held => ?_
    have := ((mem_iff i).mp taken).2
    have := of_decide_eq_true (List.mem_filter.mp held).2
    omega
  · rw [List.mem_append, mem_iff, List.mem_filter, List.mem_range,
      decide_eq_true_eq]
    omega

end TopologicalOrder
