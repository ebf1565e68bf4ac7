import VortarisECS.Library.Traced
import VortarisECS.Serialization.BinaryBuffer

/-!
# Walks over a buffer

The validators and the appliers walk a buffer record by record and stop at the
first thing that is wrong.  A walk that follows a parser gets to the end of what
the parser can parse.
-/

namespace VortarisECS

/-- A walk that only checks: the cursor behind what was checked, or nothing. -/
abbrev Check := BinaryBuffer → Option BinaryBuffer

/-- Repeat a check. -/
def Check.times (check : Check) : Nat → Check
  | 0, buf => some buf
  | count + 1, buf => (check buf).bind (check.times count)

/-- The check passes over what the parser parses. -/
def Check.Passes (check : Check) (parser : Parser α) : Prop :=
  ∀ buf input value rest, buf.Remaining input →
    parser input = some (value, rest) →
    check buf = some (buf.upTo rest) ∧ (buf.upTo rest).Remaining rest

namespace Check

/-- Walking a number of times is parsing that many values. -/
theorem Passes.times
    {check : Check} {parser : Parser α} (passes : check.Passes parser)
    (count : Nat) : Passes (check.times count) (Parser.many count parser) := by
  induction count with
  | zero =>
      intro buf input value rest remaining parsed
      rw [Parser.many, Parser.pure, Option.some.injEq, Prod.mk.injEq] at parsed
      rw [← parsed.2, remaining.upTo_self]
      exact ⟨rfl, remaining⟩
  | succ count inductionHypothesis =>
      intro buf input value rest remaining parsed
      obtain ⟨first, between, later, parsedFirst, parsedLater, _⟩ :=
        Parser.many_succ_eq_some.mp parsed
      obtain ⟨passed, after⟩ := passes buf input first between remaining
        parsedFirst
      obtain ⟨rest', last⟩ := inductionHypothesis (buf.upTo between) between
        later rest after parsedLater
      rw [Check.times, passed, Option.bind_some, rest']
      exact ⟨rfl, last⟩

end Check

/-- A walk that acts: the step it takes, and the cursor unless it stopped. -/
abbrev Act (ε : Type u) (σ : Type v) :=
  σ → BinaryBuffer → Traced ε σ × Option BinaryBuffer

/-- Repeat an act, up to the first stop. -/
def Act.times (act : Act ε σ) : Nat → Act ε σ
  | 0, state, buf => (.pure state, some buf)
  | count + 1, state, buf =>
      match act state buf with
      | (step, none) => (step, none)
      | (step, some buf) =>
          let (later, cursor) := act.times count step.state buf
          (step.andThen fun _ => later, cursor)

/-- In a state that is ready for it, the act does `change` with what the parser
parses and does not stop. -/
def Act.Performs (act : Act ε σ) (ready : σ → α → Prop) (parser : Parser α)
    (change : σ → α → Traced ε σ) : Prop :=
  ∀ state buf input value rest, ready state value → buf.Remaining input →
    parser input = some (value, rest) →
    act state buf = (change state value, some (buf.upTo rest)) ∧
      (buf.upTo rest).Remaining rest

namespace Act

/-- A repeated act performs the changes in order, as long as each state is ready
for what is left. -/
theorem Performs.times
    {act : Act ε σ} {ready : σ → α → Prop} {parser : Parser α}
    {change : σ → α → Traced ε σ} (performs : act.Performs ready parser change)
    {pending : σ → List α → Prop}
    (headReady : ∀ state value values, pending state (value :: values) →
      ready state value)
    (tailPending : ∀ state value values, pending state (value :: values) →
      pending (change state value).state values)
    (count : Nat) :
    (act.times count).Performs pending (Parser.many count parser)
      fun state values => Traced.forEach change state values := by
  induction count with
  | zero =>
      intro state buf input values rest _ remaining parsed
      rw [Parser.many, Parser.pure, Option.some.injEq, Prod.mk.injEq] at parsed
      rw [← parsed.1, ← parsed.2, remaining.upTo_self]
      exact ⟨rfl, remaining⟩
  | succ count inductionHypothesis =>
      intro state buf input values rest pends remaining parsed
      obtain ⟨value, between, later, parsedFirst, parsedLater, rfl⟩ :=
        Parser.many_succ_eq_some.mp parsed
      obtain ⟨performed, after⟩ := performs state buf input value between
        (headReady _ _ _ pends) remaining parsedFirst
      obtain ⟨performedLater, last⟩ := inductionHypothesis
        (change state value).state (buf.upTo between) between later rest
        (tailPending _ _ _ pends) after parsedLater
      rw [Act.times, performed]
      dsimp only
      rw [performedLater]
      exact ⟨rfl, last⟩

/-- Where every value keeps what each of them needs, nothing else has to be said
of the values. -/
theorem Performs.times_keeping
    {act : Act ε σ} {invariant : σ → Prop} {parser : Parser α}
    {change : σ → α → Traced ε σ}
    (performs : act.Performs (fun state _ => invariant state) parser change)
    (keeps : ∀ state value, invariant state →
      invariant (change state value).state)
    (count : Nat) :
    (act.times count).Performs (fun state _ => invariant state)
      (Parser.many count parser)
      fun state values => Traced.forEach change state values :=
  performs.times (fun _ _ _ holds => holds)
    (fun state value _ holds => keeps state value holds) count

end Act
end VortarisECS
