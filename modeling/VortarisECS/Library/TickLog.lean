import Mathlib.Data.List.Basic
import Mathlib.Order.Nat

/-!
# Logs in the order of a clock

A log keeps its newest entries, each with the tick at which it was written.  The
clock stops at its limit; a log that outgrows its cap drops its older half, and
may be dropped as a whole.  Every removal is counted by a 64-bit generation.
-/

/-! ## Bisection -/

/-- The first index of `[lo, hi)` that `below` does not hold of, by bisection. -/
def bisect (below : Nat → Bool) (lo hi : Nat) : Nat :=
  if lo < hi then
    let mid := lo + (hi - lo) / 2
    if below mid then bisect below (mid + 1) hi else bisect below lo mid
  else lo
termination_by hi - lo

/-- What holds of every index before another one it holds of is found by
bisection. -/
theorem lt_bisect_iff
    {below : Nat → Bool}
    (closed : ∀ i j, i ≤ j → below j = true → below i = true)
    {lo hi : Nat} (before : ∀ i < lo, below i = true)
    (behind : ∀ i, hi ≤ i → below i = false) (i : Nat) :
    i < bisect below lo hi ↔ below i = true := by
  fun_induction bisect below lo hi with
  | case1 lo hi active mid isBelow inductionHypothesis =>
      refine inductionHypothesis (fun j earlier => ?_) behind
      exact closed j mid (Nat.le_of_lt_succ earlier) isBelow
  | case2 lo hi active mid notBelow inductionHypothesis =>
      refine inductionHypothesis before fun j later => ?_
      rw [Bool.eq_false_iff]
      exact fun isBelow => notBelow (closed mid j later isBelow)
  | case3 lo hi done =>
      constructor
      · exact before i
      · intro isBelow
        by_contra beyond
        rw [behind i (by omega)] at isBelow
        exact Bool.false_ne_true isBelow

/-- As many elements satisfy a predicate as there are indices before the first
one that does not, if none behind it does. -/
theorem List.countP_eq_of_prefix
    {p : α → Bool} {xs : List α} {n : Nat}
    (isPrefix : ∀ i, i < n ↔ ∃ x, xs[i]? = some x ∧ p x = true) :
    xs.countP p = n := by
  have short : n ≤ xs.length := by
    by_contra longer
    obtain ⟨x, found, -⟩ := (isPrefix xs.length).mp (Nat.not_le.mp longer)
    exact absurd found (by simp)
  have first : ∀ x ∈ xs.take n, p x = true := by
    intro x member
    obtain ⟨i, found⟩ := List.mem_iff_getElem?.mp member
    rw [List.getElem?_take] at found
    split at found
    · rename_i early
      obtain ⟨y, isEntry, holds⟩ := (isPrefix i).mp early
      rw [isEntry] at found
      rwa [← Option.some.inj found]
    · exact absurd found (by simp)
  have second : ∀ x ∈ xs.drop n, ¬p x = true := by
    intro x member holds
    obtain ⟨i, found⟩ := List.mem_iff_getElem?.mp member
    rw [List.getElem?_drop] at found
    have early := (isPrefix (n + i)).mpr ⟨x, found, holds⟩
    omega
  rw [← List.take_append_drop n xs, List.countP_append,
    List.countP_eq_length.mpr first, List.countP_eq_zero.mpr second,
    List.length_take, Nat.min_eq_left short, Nat.add_zero]

/-! ## Logs -/

/-- A clock, a list of stamped entries, and a count of the times entries were
removed. -/
structure TickLog (α : Type u) where
  clock : Nat
  entries : List α
  generation : UInt64

namespace TickLog

variable {α : Type u} (limit cap : Nat) (tickOf : α → Nat)

/-- Advance the clock, up to its limit. -/
def advance (r : TickLog α) : TickLog α :=
  { r with clock := if r.clock < limit then r.clock + 1 else r.clock }

/-- Drop the older half. -/
def halve (r : TickLog α) : TickLog α :=
  { r with
    entries := r.entries.drop (r.entries.length / 2)
    generation := r.generation + 1 }

/-- Append an entry, and halve the log if it outgrows its cap. -/
def append (r : TickLog α) (x : α) : TickLog α :=
  let longer := { r with entries := r.entries ++ [x] }
  if longer.entries.length > cap then longer.halve else longer

/-- Drop all entries. -/
def dropAll (r : TickLog α) : TickLog α :=
  { r with entries := [], generation := r.generation + 1 }

/-- The steps of a log: the clock advances, possibly for a new entry, or all
entries are dropped.  They are counted: how often the clock was advanced, how
often all entries were dropped, and how many of the steps removed entries. -/
inductive Steps (r : TickLog α) : Nat → Nat → Nat → TickLog α → Prop
  | refl : Steps r 0 0 0 r
  | advance {ticks drops removals : Nat} {r' : TickLog α}
      (before : Steps r ticks drops removals r') :
      Steps r (ticks + 1) drops removals (r'.advance limit)
  | write {ticks drops removals : Nat} {r' : TickLog α} {x : α}
      (before : Steps r ticks drops removals r')
      (stamped : tickOf x = (r'.advance limit).clock)
      (fits : r'.entries.length < cap) :
      Steps r (ticks + 1) drops removals ((r'.advance limit).append cap x)
  | compact {ticks drops removals : Nat} {r' : TickLog α} {x : α}
      (before : Steps r ticks drops removals r')
      (stamped : tickOf x = (r'.advance limit).clock)
      (full : cap ≤ r'.entries.length) :
      Steps r (ticks + 1) drops (removals + 1) ((r'.advance limit).append cap x)
  | dropAll {ticks drops removals : Nat} {r' : TickLog α}
      (before : Steps r ticks drops removals r') :
      Steps r ticks (drops + 1) (removals + 1) r'.dropAll

/-! ## What the log is at any time -/

/-- The entries are in the order of their ticks, none is from the future, and
there are not too many of them. -/
structure Ordered (r : TickLog α) : Prop where
  ascending : r.entries.Pairwise fun x later => tickOf x ≤ tickOf later
  strict : r.clock < limit →
    r.entries.Pairwise fun x later => tickOf x < tickOf later
  past : ∀ x ∈ r.entries, tickOf x ≤ r.clock
  short : r.entries.length ≤ cap

/-- What happens to a log in between: entries are removed from the front, but
only by removing steps, and what is new is newer than the clock was. -/
structure Evolves (removals : Nat) (r r' : TickLog α) : Prop where
  clock : r.clock ≤ r'.clock
  entries : ∃ dropped added,
    r'.entries = r.entries.drop dropped ++ added ∧
    (∀ x ∈ added, r.clock ≤ tickOf x ∧
      (r.clock < limit → r.clock < tickOf x)) ∧
    (0 < dropped → 0 < removals)

variable {limit cap} {tickOf} {r r' r'' : TickLog α}
  {ticks drops removals ticks' drops' removals' : Nat}

/-- Steps after steps. -/
theorem Steps.trans
    (first : Steps limit cap tickOf r ticks drops removals r')
    (second : Steps limit cap tickOf r' ticks' drops' removals' r'') :
    Steps limit cap tickOf r (ticks + ticks') (drops + drops')
      (removals + removals') r'' := by
  induction second with
  | refl => exact first
  | advance _ inductionHypothesis => exact inductionHypothesis.advance
  | write _ stamped fits inductionHypothesis =>
      exact inductionHypothesis.write stamped fits
  | compact _ stamped full inductionHypothesis =>
      exact inductionHypothesis.compact stamped full
  | dropAll _ inductionHypothesis => exact inductionHypothesis.dropAll

/-- Every drop removes, and besides drops only ticks do. -/
theorem Steps.removals_bounds
    (steps : Steps limit cap tickOf r ticks drops removals r') :
    drops ≤ removals ∧ removals ≤ ticks + drops := by
  induction steps with
  | refl => exact ⟨le_rfl, le_rfl⟩
  | advance _ inductionHypothesis => omega
  | write _ _ _ inductionHypothesis => omega
  | compact _ _ _ inductionHypothesis => omega
  | dropAll _ inductionHypothesis => omega

/-- A log with room takes an entry as it is. -/
theorem append_of_fits {x : α} (fits : r.entries.length < cap) :
    (r.advance limit).append cap x =
      { r.advance limit with entries := r.entries ++ [x] } := by
  unfold append advance
  dsimp only
  rw [List.length_append, List.length_singleton, if_neg (by omega)]

/-- A full log is halved when an entry comes in. -/
theorem append_of_full {x : α} (full : cap ≤ r.entries.length) :
    (r.advance limit).append cap x =
      halve { r.advance limit with entries := r.entries ++ [x] } := by
  unfold append advance
  dsimp only
  rw [List.length_append, List.length_singleton, if_pos (by omega)]

/-- The generation counts the removing steps. -/
theorem Steps.generation_eq
    (steps : Steps limit cap tickOf r ticks drops removals r') :
    r'.generation = r.generation + UInt64.ofNat removals := by
  induction steps with
  | refl => simp
  | advance _ inductionHypothesis => exact inductionHypothesis
  | write _ _ fits inductionHypothesis =>
      rw [append_of_fits fits]
      exact inductionHypothesis
  | compact _ _ full inductionHypothesis =>
      rw [append_of_full full, UInt64.ofNat_add, ← UInt64.add_assoc,
        ← inductionHypothesis]
      rfl
  | dropAll _ inductionHypothesis =>
      rw [UInt64.ofNat_add, ← UInt64.add_assoc, ← inductionHypothesis]
      rfl

/-- A tick moves the clock forward until it stops at its limit. -/
theorem clock_le_advance (limit : Nat) (r : TickLog α) :
    r.clock ≤ (r.advance limit).clock ∧
      (r.clock < limit → r.clock < (r.advance limit).clock) := by
  unfold advance
  dsimp only
  split <;> omega

/-- A tick keeps the log ordered. -/
theorem Ordered.advance
    (ordered : r.Ordered limit cap tickOf) :
    (r.advance limit).Ordered limit cap tickOf where
  ascending := ordered.ascending
  strict running := ordered.strict
    ((clock_le_advance limit r).1.trans_lt running)
  past x member := (ordered.past x member).trans (clock_le_advance limit r).1
  short := ordered.short

/-- Entries of an ordered log stay in order when some of them are removed. -/
theorem Ordered.sublist
    {kept : List α} {generation : UInt64}
    (ascending : r.entries.Pairwise fun x later => tickOf x ≤ tickOf later)
    (strict : r.clock < limit →
      r.entries.Pairwise fun x later => tickOf x < tickOf later)
    (past : ∀ x ∈ r.entries, tickOf x ≤ r.clock)
    (sub : kept.Sublist r.entries) (short : kept.length ≤ cap) :
    Ordered limit cap tickOf
      { r with entries := kept, generation := generation } where
  ascending := ascending.sublist sub
  strict running := (strict running).sublist sub
  past x member := past x (sub.subset member)
  short := short

/-- An entry of the new tick keeps the log ordered. -/
theorem Ordered.write
    (ordered : r.Ordered limit cap tickOf) (roomy : 0 < cap) {x : α}
    (stamped : tickOf x = (r.advance limit).clock) :
    ((r.advance limit).append cap x).Ordered limit cap tickOf := by
  have newer := clock_le_advance limit r
  have ascending : (r.entries ++ [x]).Pairwise
      fun x later => tickOf x ≤ tickOf later := by
    refine List.pairwise_append.mpr ⟨ordered.ascending,
      List.pairwise_singleton _ _, fun y member z isNew => ?_⟩
    rw [List.mem_singleton.mp isNew, stamped]
    exact (ordered.past y member).trans newer.1
  have strict : (r.advance limit).clock < limit →
      (r.entries ++ [x]).Pairwise fun x later => tickOf x < tickOf later := by
    intro running
    have wasRunning : r.clock < limit := newer.1.trans_lt running
    refine List.pairwise_append.mpr ⟨ordered.strict wasRunning,
      List.pairwise_singleton _ _, fun y member z isNew => ?_⟩
    rw [List.mem_singleton.mp isNew, stamped]
    exact (ordered.past y member).trans_lt (newer.2 wasRunning)
  have past : ∀ y ∈ r.entries ++ [x], tickOf y ≤ (r.advance limit).clock := by
    intro y member
    obtain old | isNew := List.mem_append.mp member
    · exact (ordered.past y old).trans newer.1
    · exact (congrArg tickOf (List.mem_singleton.mp isNew)).trans_le stamped.le
  have short := ordered.short
  have length : (r.entries ++ [x]).length = r.entries.length + 1 := by simp
  unfold append
  dsimp only
  split
  · refine Ordered.sublist (r := { r.advance limit with
      entries := r.entries ++ [x] }) ascending strict past
      (List.drop_sublist _ _) ?_
    change ((r.entries ++ [x]).drop ((r.entries ++ [x]).length / 2)).length ≤ cap
    rw [List.length_drop]
    omega
  · rename_i fits
    exact ⟨ascending, strict, past, Nat.not_lt.mp fits⟩

/-- An ordered log stays ordered. -/
theorem Ordered.steps
    (ordered : r.Ordered limit cap tickOf) (roomy : 0 < cap)
    (steps : Steps limit cap tickOf r ticks drops removals r') :
    r'.Ordered limit cap tickOf := by
  induction steps with
  | refl => exact ordered
  | advance _ inductionHypothesis => exact inductionHypothesis.advance
  | write _ stamped _ inductionHypothesis =>
      exact inductionHypothesis.write roomy stamped
  | compact _ stamped _ inductionHypothesis =>
      exact inductionHypothesis.write roomy stamped
  | dropAll _ inductionHypothesis =>
      exact Ordered.sublist inductionHypothesis.ascending
        inductionHypothesis.strict inductionHypothesis.past
        (List.nil_sublist _) (Nat.zero_le _)

/-! ## What happens to the log -/

theorem Evolves.refl (r : TickLog α) : Evolves limit tickOf 0 r r where
  clock := le_rfl
  entries := ⟨0, [], by simp, by simp, id⟩

/-- Removals add up along a run. -/
theorem Evolves.trans
    (first : Evolves limit tickOf removals r r')
    (second : Evolves limit tickOf removals' r' r'') :
    Evolves limit tickOf (removals + removals') r r'' := by
  obtain ⟨clock, dropped, added, entries, newer, counted⟩ := first
  obtain ⟨clock', dropped', added', entries', newer', counted'⟩ := second
  refine ⟨clock.trans clock', dropped + dropped',
    added.drop (dropped' - (r.entries.drop dropped).length) ++ added',
    ?_, ?_, ?_⟩
  · rw [entries', entries, List.drop_append, List.drop_drop, List.append_assoc]
  · intro x member
    obtain earlier | later := List.mem_append.mp member
    · exact newer x (List.mem_of_mem_drop earlier)
    · obtain ⟨atLeast, beyond⟩ := newer' x later
      refine ⟨clock.trans atLeast, fun running => ?_⟩
      by_cases stillRunning : r'.clock < limit
      · exact clock.trans_lt (beyond stillRunning)
      · omega
  · omega

/-- A new entry is newer than the clock was. -/
theorem newer_of_stamped
    {x : α} (stamped : tickOf x = (r.advance limit).clock) :
    ∀ y ∈ [x], r.clock ≤ tickOf y ∧
      (r.clock < limit → r.clock < tickOf y) := by
  intro y member
  rw [List.mem_singleton.mp member, stamped]
  exact clock_le_advance limit r

theorem Evolves.advance (r : TickLog α) :
    Evolves limit tickOf 0 r (r.advance limit) where
  clock := (clock_le_advance limit r).1
  entries := ⟨0, [], by simp [TickLog.advance], by simp, id⟩

/-- A write below the bound removes nothing. -/
theorem Evolves.write
    {x : α} (stamped : tickOf x = (r.advance limit).clock)
    (fits : r.entries.length < cap) :
    Evolves limit tickOf 0 r ((r.advance limit).append cap x) := by
  rw [append_of_fits fits]
  exact ⟨(clock_le_advance limit r).1, 0, [x], rfl,
    newer_of_stamped stamped, id⟩

/-- A write at the bound is one removal. -/
theorem Evolves.compact
    {x : α} (stamped : tickOf x = (r.advance limit).clock)
    (full : cap ≤ r.entries.length) :
    Evolves limit tickOf 1 r ((r.advance limit).append cap x) := by
  rw [append_of_full full]
  refine ⟨(clock_le_advance limit r).1, (r.entries ++ [x]).length / 2,
    [x].drop ((r.entries ++ [x]).length / 2 - r.entries.length),
    List.drop_append, ?_, fun _ => Nat.one_pos⟩
  exact fun y member => newer_of_stamped stamped y (List.mem_of_mem_drop member)

theorem Evolves.dropAll (r : TickLog α) :
    Evolves limit tickOf 1 r r.dropAll where
  clock := le_rfl
  entries := ⟨r.entries.length, [], by simp [TickLog.dropAll], by simp,
    fun _ => Nat.one_pos⟩

/-- What happens to a log along its steps. -/
theorem Evolves.steps
    (steps : Steps limit cap tickOf r ticks drops removals r') :
    Evolves limit tickOf removals r r' := by
  induction steps with
  | refl => exact Evolves.refl r
  | advance _ inductionHypothesis =>
      exact inductionHypothesis.trans (.advance _)
  | write _ stamped fits inductionHypothesis =>
      exact inductionHypothesis.trans (.write stamped fits)
  | compact _ stamped full inductionHypothesis =>
      exact inductionHypothesis.trans (.compact stamped full)
  | dropAll _ inductionHypothesis =>
      exact inductionHypothesis.trans (.dropAll _)

/-- In an ordered log bisection counts the entries up to a tick. -/
theorem Ordered.bisect_eq
    (ordered : r.Ordered limit cap tickOf) (tick : Nat) :
    bisect (fun i => (r.entries[i]?).any fun x => decide (tickOf x ≤ tick)) 0
        r.entries.length =
      r.entries.countP fun x => decide (tickOf x ≤ tick) := by
  refine (List.countP_eq_of_prefix fun i => ?_).symm
  rw [lt_bisect_iff]
  · rw [Option.any_eq_true]
  · intro i j before isBelow
    rw [Option.any_eq_true] at isBelow ⊢
    obtain ⟨y, found, early⟩ := isBelow
    have inRange := (List.getElem?_eq_some_iff.mp found).1
    have found' := List.getElem?_eq_getElem (show i < r.entries.length by omega)
    refine ⟨_, found', ?_⟩
    rw [decide_eq_true_eq] at early ⊢
    obtain rfl | earlier := Nat.eq_or_lt_of_le before
    · rw [found'] at found
      rw [Option.some.inj found]
      exact early
    · obtain ⟨_, isEntry⟩ := List.getElem?_eq_some_iff.mp found
      have sorted := List.pairwise_iff_getElem.mp ordered.ascending i j
        (by omega) inRange earlier
      rw [isEntry] at sorted
      exact sorted.trans early
  · exact fun i early => absurd early (Nat.not_lt_zero i)
  · intro i beyond
    rw [List.getElem?_eq_none beyond]
    rfl

end TickLog
