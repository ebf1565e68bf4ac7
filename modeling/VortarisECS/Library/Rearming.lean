import Mathlib.Data.List.Basic
import Mathlib.Data.List.Count

/-!
# Sends that must be re-armed

A sender keeps a set of armed keys.  A mark may arm its key, sending records
disarms their keys, and apart from that keys only get disarmed.  In the history
of such a sender no record is sent twice without a mark of its key in between.
-/

/-- What a sender does: a key is marked, or records are sent together. -/
inductive SendEvent (κ : Type u) (ρ : Type v)
  | marked (key : κ)
  | sent (records : List ρ)
  deriving DecidableEq, Repr

namespace SendEvent

/-- Between two sends of a record its key is marked. -/
def ResentOnlyMarked (key : ρ → κ) (history : List (SendEvent κ ρ)) : Prop :=
  ∀ earlier records between records' later,
    history = earlier ++ .sent records :: (between ++ .sent records' :: later) →
    ∀ r ∈ records, r ∈ records' → .marked (key r) ∈ between

/-- The event sends the record. -/
def sends [DecidableEq ρ] (r : ρ) : SendEvent κ ρ → Bool
  | marked _ => false
  | sent records => decide (r ∈ records)

/-- After the last mark of its key a record is sent at most once more. -/
def SentOnceMore [DecidableEq ρ] (key : ρ → κ)
    (history : List (SendEvent κ ρ)) : Prop :=
  ∀ earlier later, history = earlier ++ later →
    ∀ r, .marked (key r) ∉ later → later.countP (sends r) ≤ 1

/-- A history that leads from one set of armed keys to another. -/
inductive Arms (key : ρ → κ) :
    (κ → Prop) → List (SendEvent κ ρ) → (κ → Prop) → Prop
  | done (fewer : ∀ k, after k → before k) : Arms key before [] after
  | mark
      (rest : Arms key (fun x => x = k ∨ before x) history after) :
      Arms key before (.marked k :: history) after
  | send (armed : ∀ r ∈ records, before (key r))
      (rest : Arms key (fun x => before x ∧ ∀ r ∈ records, key r ≠ x) history
        after) :
      Arms key before (.sent records :: history) after

variable {key : ρ → κ} {before middle after : κ → Prop}
variable {history later : List (SendEvent κ ρ)}

/-- More may have been armed before. -/
theorem Arms.mono
    (arms : Arms key before history after) {more : κ → Prop}
    (wider : ∀ k, before k → more k) : Arms key more history after := by
  induction arms generalizing more with
  | done fewer => exact .done fun k armed => wider k (fewer k armed)
  | mark _ inductionHypothesis =>
      exact .mark (inductionHypothesis fun k armed => armed.imp_right (wider k))
  | send armed _ inductionHypothesis =>
      exact .send (fun r member => wider _ (armed r member))
        (inductionHypothesis fun k both => ⟨wider k both.1, both.2⟩)

/-- Two stretches of history are one. -/
theorem Arms.append
    (first : Arms key before history middle)
    (second : Arms key middle later after) :
    Arms key before (history ++ later) after := by
  induction first with
  | done fewer => exact second.mono fewer
  | mark _ inductionHypothesis => exact .mark (inductionHypothesis second)
  | send armed _ inductionHypothesis =>
      exact .send armed (inductionHypothesis second)

/-- A history can be cut anywhere. -/
theorem Arms.split (arms : Arms key before (history ++ later) after) :
    ∃ middle, Arms key before history middle ∧
      Arms key middle later after := by
  induction history generalizing before with
  | nil => exact ⟨before, .done fun _ => id, arms⟩
  | cons event history inductionHypothesis =>
      cases arms with
      | mark rest =>
          obtain ⟨middle, first, second⟩ := inductionHypothesis rest
          exact ⟨middle, .mark first, second⟩
      | send armed rest =>
          obtain ⟨middle, first, second⟩ := inductionHypothesis rest
          exact ⟨middle, .send armed first, second⟩

variable [DecidableEq ρ]

/-- A key that is not armed is not sent before it is marked. -/
theorem Arms.countP_eq_zero
    (arms : Arms key before history after) {r : ρ} (unarmed : ¬before (key r))
    (unmarked : .marked (key r) ∉ history) :
    history.countP (sends r) = 0 := by
  induction arms with
  | done _ => rfl
  | mark _ inductionHypothesis =>
      rw [List.mem_cons, not_or] at unmarked
      rw [List.countP_cons_of_neg (by simp [sends])]
      refine inductionHypothesis (fun armed => ?_) unmarked.2
      obtain rfl | armed := armed
      · exact unmarked.1 rfl
      · exact unarmed armed
  | send armed _ inductionHypothesis =>
      rw [List.mem_cons, not_or] at unmarked
      rw [List.countP_cons_of_neg]
      · exact inductionHypothesis (fun both => unarmed both.1) unmarked.2
      · rw [sends, decide_eq_true_eq]
        exact fun member => unarmed (armed r member)

/-- A key is sent at most once before it is marked. -/
theorem Arms.countP_le_one
    (arms : Arms key before history after) {r : ρ}
    (unmarked : .marked (key r) ∉ history) :
    history.countP (sends r) ≤ 1 := by
  induction arms with
  | done _ => exact Nat.zero_le 1
  | mark _ inductionHypothesis =>
      rw [List.mem_cons, not_or] at unmarked
      rw [List.countP_cons_of_neg (by simp [sends])]
      exact inductionHypothesis unmarked.2
  | @send records _ _ _ armed rest inductionHypothesis =>
      rw [List.mem_cons, not_or] at unmarked
      by_cases member : r ∈ records
      · -- the key is disarmed, so that nothing more is sent
        have none := rest.countP_eq_zero (fun both => both.2 r member rfl)
          unmarked.2
        have sent : sends r (.sent records : SendEvent κ ρ) = true :=
          decide_eq_true member
        rw [List.countP_cons_of_pos sent]
        omega
      · rw [List.countP_cons_of_neg (by simpa [sends] using member)]
        exact inductionHypothesis unmarked.2

/-- A record whose key is no longer marked is sent at most once more. -/
theorem Arms.sentOnceMore (arms : Arms key before history after) :
    SentOnceMore key history := by
  intro earlier later split r unmarked
  rw [split] at arms
  obtain ⟨_, _, second⟩ := arms.split
  exact second.countP_le_one unmarked

/-- A record is sent again only when its key was marked in between. -/
theorem Arms.resentOnlyMarked (arms : Arms key before history after) :
    ResentOnlyMarked key history := by
  intro earlier records between records' later split r first second
  by_contra unmarked
  have regrouped : history = earlier ++
      ((.sent records :: (between ++ [.sent records'])) ++ later) := by
    rw [split, List.cons_append, List.append_assoc, List.singleton_append]
  rw [regrouped] at arms
  obtain ⟨_, _, fromFirst⟩ := arms.split
  obtain ⟨_, both, _⟩ := fromFirst.split
  have once := both.countP_le_one (r := r) (by simpa using unmarked)
  simp [sends, first, second] at once

end SendEvent
