import Mathlib.Data.List.Basic

/-!
# Transcripts

A service answers one call after the other, and each call may change its state.
Two services with the same transcript of every session cannot be told apart by
those that call them.
-/

section Transcript

variable {κ : Type u} {ρ : Type v} {σ : Type w} {τ : Type x}

/-- Where a session ends, and the answers it was given. -/
def transcript (answer : σ → κ → σ × ρ) (state : σ) : List κ → σ × List ρ
  | [] => (state, [])
  | call :: calls =>
      let rest := transcript answer (answer state call).1 calls
      (rest.1, (answer state call).2 :: rest.2)

@[simp] theorem transcript_nil (answer : σ → κ → σ × ρ) (state : σ) :
    transcript answer state [] = (state, []) := rfl

@[simp] theorem transcript_cons (answer : σ → κ → σ × ρ) (state : σ) (call : κ)
    (calls : List κ) :
    transcript answer state (call :: calls) =
      ((transcript answer (answer state call).1 calls).1,
        (answer state call).2 ::
          (transcript answer (answer state call).1 calls).2) := rfl

/-- A relation that every call keeps, with the same answer on both sides, makes
the transcripts the same. -/
theorem transcript_simulates
    (Related : σ → τ → Prop) (answer : σ → κ → σ × ρ) (answer' : τ → κ → τ × ρ)
    (keeps : ∀ state state' call, Related state state' →
      Related (answer state call).1 (answer' state' call).1 ∧
        (answer state call).2 = (answer' state' call).2)
    {state : σ} {state' : τ} (related : Related state state')
    (calls : List κ) :
    Related (transcript answer state calls).1
        (transcript answer' state' calls).1 ∧
      (transcript answer state calls).2 =
        (transcript answer' state' calls).2 := by
  induction calls generalizing state state' with
  | nil => exact ⟨related, rfl⟩
  | cons call calls inductionHypothesis =>
      obtain ⟨after, same⟩ := keeps state state' call related
      obtain ⟨finish, answers⟩ := inductionHypothesis after
      rw [transcript_cons, transcript_cons]
      exact ⟨finish, congrArg₂ List.cons same answers⟩

end Transcript
