import VortarisECS.Core.Iteration
import VortarisECS.Core.RowOrder
import Mathlib.Data.List.Flatten

/-!
# Walks that callbacks cannot disturb

A walk makes the calls it set out to make, and no others, exactly if no call
compacts away a matched archetype before the last one is read and no call
creates an entity where the walk still gets to.
-/

namespace VortarisECS

variable {registry : ComponentRegistry} {callback : Callback} {q : Query}
variable {count : Nat} {it : Iteration}

namespace Iteration

/-- The walk is at a place it can be in. -/
def Sane (q : Query) (count : Nat) (it : Iteration) : Prop :=
  match it.position with
  | .archetype index =>
      it.world.Walked q ∧ (it.world.cachedArchetypes q).length ≤ count ∧
        index ≤ count
  | .row index a row =>
      (it.world.Walked q ∧ (it.world.cachedArchetypes q).length ≤ count) ∧
        index < count ∧ a ∈ it.world.store.archetypeList ∧
        row ≤ (it.world.store.deref a).entities.length
  | _ => True

/-- The walk will read, or did read, what is no longer there. -/
def Torn (q : Query) (count : Nat) (it : Iteration) : Prop :=
  match it.position with
  | .archetype index =>
      index < count ∧ (it.world.cachedArchetypes q).length < count
  | .row index _ _ => it.world.Torn q count index
  | .finished => False
  | _ => True

/-- The calls made, and the ones still to come if nothing changes. -/
def prospect (q : Query) (it : Iteration) : List Entity :=
  it.calls ++
    match it.position with
    | .archetype index =>
        ((it.world.cachedArchetypes q).drop index).flatMap fun p =>
          (it.world.store.deref p).entities
    | .row index a row => it.world.ahead q index a row
    | _ => []

/-- What one turn does to a walk. -/
structure TurnEffect (q : Query) (count : Nat) (it it' : Iteration)
    (harmless : Prop) : Prop where
  sane : it'.Sane q count
  torn : it.Torn q count → it'.Torn q count
  kept : ¬it.Torn q count → harmless →
    ¬it'.Torn q count ∧ it'.prospect q = it.prospect q
  harmed : ¬it.Torn q count → ¬harmless →
    it'.Torn q count ∨ (it.prospect q).length < (it'.prospect q).length

/-- The turn at the next archetype. -/
theorem step_archetype
    {w : World} {calls : List Entity} {index : Nat}
    (sane : Sane q count ⟨w, calls, .archetype index⟩) :
    TurnEffect q count ⟨w, calls, .archetype index⟩
      (step registry callback q count ⟨w, calls, .archetype index⟩) True := by
  obtain ⟨walked, bounded, within⟩ := sane
  dsimp only at walked bounded
  unfold step
  dsimp only
  by_cases atEnd : index = count
  · have ended : (w.cachedArchetypes q).drop index = [] :=
      List.drop_eq_nil_of_le (atEnd ▸ bounded)
    rw [if_pos atEnd]
    refine ⟨trivial, fun torn => absurd torn.1 (by omega),
      fun _ _ => ⟨id, ?_⟩, fun _ harm => absurd trivial harm⟩
    unfold prospect
    dsimp only
    rw [ended, List.flatMap_nil]
  · have more : index < count := Nat.lt_of_le_of_ne within atEnd
    rw [if_neg atEnd]
    cases found : (w.cachedArchetypes q)[index]? with
    | none =>
        have short := List.getElem?_eq_none_iff.mp found
        exact ⟨trivial, fun _ => trivial,
          fun whole => absurd ⟨more, Nat.lt_of_le_of_lt short more⟩ whole,
          fun _ harm => absurd trivial harm⟩
    | some a =>
        obtain ⟨inside, here⟩ := List.getElem?_eq_some_iff.mp found
        have member : a ∈ w.cachedArchetypes q := List.mem_of_getElem? found
        rw [walked.cachedArchetypes_eq] at member
        refine ⟨⟨⟨walked, bounded⟩, more, (List.mem_filter.mp member).1,
          Nat.zero_le _⟩, fun torn => ⟨?_, torn.2⟩, fun whole _ => ⟨?_, ?_⟩,
          fun _ harm => absurd trivial harm⟩
        · have short := torn.2
          dsimp only at short
          omega
        · exact fun torn => whole ⟨more, torn.2⟩
        · unfold prospect World.ahead
          dsimp only
          rw [List.drop_eq_getElem_cons inside, here, List.flatMap_cons,
            List.drop_zero]

/-- The turn at a row, with its call. -/
theorem step_row
    {w : World} {calls : List Entity} {index : Nat} {a : Ptr} {row : Nat}
    (sane : Sane q count ⟨w, calls, .row index a row⟩) :
    TurnEffect q count ⟨w, calls, .row index a row⟩
      (step registry callback q count ⟨w, calls, .row index a row⟩)
      (CallHarmless registry callback q count ⟨w, calls, .row index a row⟩) := by
  obtain ⟨⟨walked, bounded⟩, more, listed, rows⟩ := sane
  dsimp only at walked bounded listed rows
  unfold step CallHarmless
  dsimp only
  rw [if_neg (not_not.mpr listed)]
  cases found : (w.store.deref a).entities[row]? with
  | none =>
      have beyond : (w.store.deref a).entities.drop row = [] :=
        List.drop_eq_nil_of_le (List.getElem?_eq_none_iff.mp found)
      refine ⟨⟨walked, bounded, more⟩, id, fun whole _ => ⟨whole, ?_⟩,
        fun _ harm => absurd (fun _ absent => ?_) harm⟩
      · unfold prospect World.ahead
        dsimp only
        rw [beyond, List.nil_append]
      · exact absurd absent (by simp)
  | some e =>
      obtain ⟨inside, here⟩ := List.getElem?_eq_some_iff.mp found
      have at' : w.AtRow q count a (row + 1) :=
        ⟨walked, bounded, listed, inside, List.ne_nil_of_length_pos (by omega)⟩
      have effect : w.OpEffect q count index a (row + 1) _
          (w.PerformsHarmless registry q count index a _) :=
        World.perform_opEffect at' (callback (calls ++ [e]) w)
      have split : w.ahead q index a row = e :: w.ahead q index a (row + 1) := by
        unfold World.ahead
        rw [List.drop_eq_getElem_cons inside, here, List.cons_append]
      have prospectBefore : prospect q ⟨w, calls, .row index a row⟩ =
          (calls ++ [e]) ++ w.ahead q index a (row + 1) := by
        unfold prospect
        dsimp only
        rw [split, List.append_assoc, List.singleton_append]
      have harmlessIff : (∀ x, some e = some x →
          w.PerformsHarmless registry q count index a
            (callback (calls ++ [x]) w)) ↔
          w.PerformsHarmless registry q count index a
            (callback (calls ++ [e]) w) :=
        ⟨fun all => all e rfl, fun this x same => Option.some.inj same ▸ this⟩
      refine ⟨⟨⟨effect.atRow.walked, effect.atRow.bounded⟩, more,
        effect.atRow.listed, effect.atRow.rows⟩, effect.torn,
        fun whole harmless => ?_, fun whole harm => ?_⟩
      · obtain ⟨wholeThen, same⟩ := effect.kept whole (harmlessIff.mp harmless)
        refine ⟨wholeThen, ?_⟩
        rw [prospectBefore, ← same]
        rfl
      · refine (effect.harmed whole (harmlessIff.not.mp harm)).imp_right
          fun longer => ?_
        have lengths : ∀ rest rest' : List Entity, rest.length < rest'.length →
            (calls ++ [e] ++ rest).length < (calls ++ [e] ++ rest').length := by
          intro rest rest' shorter
          simp only [List.length_append]
          omega
        rw [prospectBefore]
        exact lengths _ _ longer

/-- Every turn does what it should, if its call does no harm. -/
theorem step_turnEffect (sane : it.Sane q count) :
    it.TurnEffect q count (it.step registry callback q count)
      (it.CallHarmless registry callback q count) := by
  obtain ⟨w, calls, position⟩ := it
  cases position with
  | archetype index => exact step_archetype sane
  | row index a row => exact step_row sane
  | finished => exact ⟨trivial, id, fun whole _ => ⟨whole, rfl⟩,
      fun _ harm => absurd trivial harm⟩
  | pastEnd => exact ⟨trivial, id, fun whole => absurd trivial whole,
      fun whole => absurd trivial whole⟩
  | freed => exact ⟨trivial, id, fun whole => absurd trivial whole,
      fun whole => absurd trivial whole⟩

/-! ## Whole walks -/

/-- A walk stays sane. -/
theorem sane_iterate (sane : it.Sane q count) (turns : Nat) :
    ((step registry callback q count)^[turns] it).Sane q count := by
  induction turns with
  | zero => exact sane
  | succ turns inductionHypothesis =>
      rw [Function.iterate_succ_apply']
      exact (step_turnEffect inductionHypothesis).sane

/-- As long as every call is harmless, the walk keeps to its calls. -/
theorem kept_iterate
    (sane : it.Sane q count) (whole : ¬it.Torn q count) (turns : Nat)
    (harmless : ∀ m < turns, ((step registry callback q count)^[m]
      it).CallHarmless registry callback q count) :
    ¬((step registry callback q count)^[turns] it).Torn q count ∧
      ((step registry callback q count)^[turns] it).prospect q =
        it.prospect q := by
  induction turns with
  | zero => exact ⟨whole, rfl⟩
  | succ turns inductionHypothesis =>
      obtain ⟨wholeThen, same⟩ := inductionHypothesis fun m before =>
        harmless m (Nat.lt_succ_of_lt before)
      rw [Function.iterate_succ_apply', ← same]
      exact (step_turnEffect (sane_iterate sane turns)).kept wholeThen
        (harmless turns (Nat.lt_succ_self turns))

/-- A walk that was disturbed stays so: it is torn or makes too many calls. -/
theorem astray_iterate
    (sane : it.Sane q count) {expected : Nat}
    (astray : it.Torn q count ∨ expected < (it.prospect q).length)
    (turns : Nat) :
    ((step registry callback q count)^[turns] it).Torn q count ∨
      expected <
        (((step registry callback q count)^[turns] it).prospect q).length := by
  induction turns with
  | zero => exact astray
  | succ turns inductionHypothesis =>
      have sane' : ((step registry callback q count)^[turns] it).Sane q count :=
        sane_iterate sane turns
      rw [Function.iterate_succ_apply']
      generalize (step registry callback q count)^[turns] it = now at *
      have effect : TurnEffect q count now (step registry callback q count now)
          (now.CallHarmless registry callback q count) := step_turnEffect sane'
      by_cases torn : now.Torn q count
      · exact Or.inl (effect.torn torn)
      · have longer := inductionHypothesis.resolve_left torn
        by_cases harmless : now.CallHarmless registry callback q count
        · rw [(effect.kept torn harmless).2]
          exact Or.inr longer
        · exact (effect.harmed torn harmless).imp_right (Nat.lt_trans longer)

/-- What bounds the number of turns a walk has left. -/
def turnsLeft (count expected : Nat) (it : Iteration) : Nat :=
  match it.position with
  | .archetype index => 2 * (count - index) + 1 + (expected - it.calls.length)
  | .row index _ _ => 2 * (count - index) + (expected - it.calls.length)
  | _ => 0

/-- The walk is over, one way or the other. -/
def Over (it : Iteration) : Prop :=
  it.position = .finished ∨ it.position = .pastEnd ∨ it.position = .freed

/-- Every turn brings the walk nearer to its end. -/
theorem turnsLeft_step
    (sane : it.Sane q count) (going : ¬it.Over) :
    (it.step registry callback q count).turnsLeft count
        (it.prospect q).length < it.turnsLeft count (it.prospect q).length := by
  obtain ⟨w, calls, position⟩ := it
  cases position with
  | archetype index =>
      unfold step
      dsimp only
      split
      · unfold turnsLeft
        dsimp only
        omega
      · split
        · unfold turnsLeft
          dsimp only
          omega
        · unfold turnsLeft
          dsimp only
          omega
  | row index a row =>
      have more : index < count := sane.2.1
      unfold step
      dsimp only
      split
      · unfold turnsLeft
        dsimp only
        omega
      · cases found : (w.store.deref a).entities[row]? with
        | none =>
            unfold turnsLeft
            dsimp only
            omega
        | some e =>
            obtain ⟨inside, _⟩ := List.getElem?_eq_some_iff.mp found
            have room : calls.length <
                (prospect q ⟨w, calls, .row index a row⟩).length := by
              unfold prospect World.ahead
              dsimp only
              rw [List.length_append, List.length_append, List.length_drop]
              omega
            unfold turnsLeft
            dsimp only
            rw [List.length_append, List.length_singleton]
            omega
  | finished => exact absurd (Or.inl rfl) going
  | pastEnd => exact absurd (Or.inr (Or.inl rfl)) going
  | freed => exact absurd (Or.inr (Or.inr rfl)) going

/-- A walk all of whose calls are harmless comes to its end. -/
theorem over_of_harmless
    (sane : it.Sane q count) (whole : ¬it.Torn q count)
    (harmless : ∀ turns, ((step registry callback q count)^[turns]
      it).CallHarmless registry callback q count) :
    ∃ turns, ((step registry callback q count)^[turns] it).Over := by
  by_contra never
  have going : ∀ turns, ¬((step registry callback q count)^[turns] it).Over :=
    fun turns ended => never ⟨turns, ended⟩
  -- each turn leaves fewer turns
  have fewer : ∀ turns, ((step registry callback q count)^[turns] it).turnsLeft
      count (it.prospect q).length + turns ≤
        it.turnsLeft count (it.prospect q).length := by
    intro turns
    induction turns with
    | zero => exact le_refl _
    | succ turns inductionHypothesis =>
        have same := (kept_iterate sane whole turns fun m _ => harmless m).2
        have sane' : ((step registry callback q count)^[turns] it).Sane q
            count := sane_iterate sane turns
        have going' := going turns
        rw [Function.iterate_succ_apply']
        generalize (step registry callback q count)^[turns] it = now at *
        have less : (now.step registry callback q count).turnsLeft count
            (now.prospect q).length < _ := turnsLeft_step sane' going'
        rw [same] at less
        omega
  have last := fewer (it.turnsLeft count (it.prospect q).length + 1)
  omega

/-- A walk that is over stays over. -/
theorem iterate_over
    (ended : it.Over) (turns : Nat) :
    (step registry callback q count)^[turns] it = it := by
  induction turns with
  | zero => rfl
  | succ turns inductionHypothesis =>
      rw [Function.iterate_succ_apply', inductionHypothesis]
      obtain ⟨w, calls, position⟩ := it
      obtain rfl | rfl | rfl := ended
      · rfl
      · rfl
      · rfl

/-- The walk ends with the calls it set out to make, and reads nothing it must
not, exactly if every call on the way is harmless. -/
theorem finishes_iff
    (sane : it.Sane q count) (whole : ¬it.Torn q count) :
    ((∃ turns,
        ((step registry callback q count)^[turns] it).position = .finished ∧
        ((step registry callback q count)^[turns] it).calls = it.prospect q) ∧
      ∀ turns,
        ((step registry callback q count)^[turns] it).position ≠ .pastEnd ∧
        ((step registry callback q count)^[turns] it).position ≠ .freed) ↔
      ∀ turns, ((step registry callback q count)^[turns]
        it).CallHarmless registry callback q count := by
  constructor
  · rintro ⟨⟨turns, finished, calls⟩, _⟩
    by_contra disturbed
    classical
    -- the first turn with a call that is not harmless
    have some := Classical.not_forall.mp disturbed
    have harm := Nat.find_spec some
    have before := fun m (earlier : m < Nat.find some) =>
      Classical.not_not.mp (Nat.find_min some earlier)
    generalize Nat.find some = first at harm before
    obtain ⟨wholeThen, same⟩ := kept_iterate sane whole first before
    have sane' : ((step registry callback q count)^[first] it).Sane q count :=
      sane_iterate sane first
    by_cases late : turns ≤ first
    · -- a walk that is over makes no more calls
      obtain ⟨more, rfl⟩ := Nat.exists_eq_add_of_le late
      rw [Nat.add_comm, Function.iterate_add_apply,
        iterate_over (Or.inl finished)] at harm
      unfold CallHarmless at harm
      rw [finished] at harm
      exact harm trivial
    · obtain ⟨more, rfl⟩ := Nat.exists_eq_add_of_lt (Nat.lt_of_not_le late)
      have effect : TurnEffect q count
          ((step registry callback q count)^[first] it)
          ((step registry callback q count)^[first + 1] it)
          (((step registry callback q count)^[first] it).CallHarmless registry
            callback q count) := by
        rw [Function.iterate_succ_apply']
        exact step_turnEffect sane'
      have astray := effect.harmed wholeThen harm
      rw [same] at astray
      have last : Torn q count ((step registry callback q count)^[more] _) ∨ _ :=
        astray_iterate effect.sane astray more
      rw [← Function.iterate_add_apply,
        show more + (first + 1) = first + more + 1 by omega] at last
      generalize (step registry callback q count)^[first + more + 1] it = now
        at *
      unfold Torn prospect at last
      rw [finished] at last
      obtain torn | longer := last
      · exact torn
      · dsimp only at longer
        rw [List.append_nil, calls] at longer
        exact Nat.lt_irrefl _ longer
  · intro harmless
    have kept := fun turns => kept_iterate sane whole turns
      fun m _ => harmless m
    have untorn : ∀ turns,
        ((step registry callback q count)^[turns] it).position ≠ .pastEnd ∧
        ((step registry callback q count)^[turns] it).position ≠ .freed := by
      intro turns
      have notTorn := (kept turns).1
      unfold Torn at notTorn
      constructor
      · intro faulty
        rw [faulty] at notTorn
        exact notTorn trivial
      · intro faulty
        rw [faulty] at notTorn
        exact notTorn trivial
    obtain ⟨turns, ended⟩ := over_of_harmless sane whole harmless
    have finished := ended.resolve_right fun faulty =>
      faulty.elim (untorn turns).1 (untorn turns).2
    refine ⟨⟨turns, finished, ?_⟩, untorn⟩
    rw [← (kept turns).2]
    generalize (step registry callback q count)^[turns] it = now at finished ⊢
    unfold prospect
    rw [finished]
    exact (List.append_nil _).symm

end Iteration

/-! ## Walks of a world -/

/-- Afterwards the query is cached as this one. -/
theorem QueryCache.matchQuery_cachedQueries
    (qc : QueryCache) (q : Query) (deref : Ptr → Archetype)
    (archetypes : List Ptr) :
    (qc.matchQuery q deref archetypes).2.cachedQueries.lookup
      q.membershipSignature = some q := by
  unfold matchQuery
  dsimp only
  split
  · rename_i entry cached _ found
    split
    · rename_i same
      rw [found, same]
    · exact AList.lookup_insert _
  · exact AList.lookup_insert _

namespace World

variable {w : World}

/-- A match keeps the store consistent. -/
theorem matchQuery_consistent
    (consistent : w.store.Consistent registry) (q : Query) :
    (w.matchQuery q).2.store.Consistent registry :=
  { consistent with
    cached := QueryCache.matchQuery_accurate consistent.cached q }

/-- A walk in an idle world begins as it should. -/
theorem beginWalk_walked
    (stable : w.Stable registry) (idle : w.Idle) (q : Query) :
    (w.beginWalk q).world.Walked q where
  sound :=
    have consistent := matchQuery_consistent stable.consistent q
    ⟨consistent.listedOnce, consistent.cached⟩
  query := QueryCache.matchQuery_cachedQueries _ q _ _
  emptyValid := stable.consistent.listedValid _ stable.consistent.emptyListed
  busy := by
    unfold inIteration
    exact decide_eq_true (Nat.succ_pos _)
  immediate := idle.immediate

/-- The walk makes its calls and reads nothing it must not exactly if every
call is harmless. -/
theorem walksSafely_iff
    (stable : w.Stable registry) (idle : w.Idle) :
    w.WalksSafely registry callback q ↔
      ∀ turns, (w.walk registry callback q turns).CallHarmless registry callback
        q (w.matchQuery q).1.length := by
  have walked := beginWalk_walked stable idle q
  have answer : (w.matchQuery q).1 = (w.beginWalk q).world.cachedArchetypes q := by
    rw [walked.cachedArchetypes_eq]
    exact QueryCache.matchQuery_archetypes stable.consistent.cached q
  have sane : (w.beginWalk q).Sane q (w.matchQuery q).1.length :=
    ⟨walked, answer ▸ le_refl _, Nat.zero_le _⟩
  have whole : ¬(w.beginWalk q).Torn q (w.matchQuery q).1.length := by
    rintro ⟨_, short⟩
    rw [answer] at short
    exact Nat.lt_irrefl _ short
  have expected : (w.beginWalk q).prospect q = w.matchedEntities q := by
    unfold Iteration.prospect
    change [] ++ ((w.beginWalk q).world.cachedArchetypes q).flatMap _ = _
    rw [walked.cachedArchetypes_eq]
    rfl
  unfold WalksSafely
  rw [← expected]
  exact Iteration.finishes_iff sane whole

/-- The matched entities are the ones with all the components, each once. -/
theorem matchedEntities_spec
    (consistent : w.store.Consistent registry) (ids : List ComponentTypeId) :
    (w.matchedEntities (.ofComponents ids)).Nodup ∧
    ∀ e, e ∈ w.matchedEntities (.ofComponents ids) ↔
      w.isAlive e = true ∧ ∀ t ∈ ids, w.has e t = true := by
  have all : ∀ a : Archetype, (Query.ofComponents ids).matchesArchetype a = true ↔
      ∀ t ∈ ids, a.hasComponent t = true := by
    intro a
    rw [Query.matchesArchetype_iff]
    simp [Query.ofComponents]
  constructor
  · have once := ArchetypeStore.listing_nodup consistent (List.Perm.refl _)
    exact once.sublist (List.Sublist.flatMap List.filter_sublist _)
  · intro e
    unfold matchedEntities
    rw [List.mem_flatMap]
    constructor
    · rintro ⟨p, member, inRows⟩
      obtain ⟨listed, matching⟩ := List.mem_filter.mp member
      obtain ⟨r, found⟩ := List.mem_iff_getElem?.mp inRows
      have location := (consistent.located e p r).mpr ⟨listed, found⟩
      have real : e ≠ Entity.null := by
        rintro rfl
        rw [consistent.nullDead] at location
        exact absurd location (by simp)
      refine ⟨?_, fun t asked => ?_⟩
      · unfold isAlive ArchetypeStore.isAlive
        rw [location]
        simp [real]
      · unfold World.has
        rw [location]
        dsimp only
        rw [(all _).mp matching t asked]
        simp [real]
    · rintro ⟨alive, held⟩
      unfold isAlive ArchetypeStore.isAlive at alive
      rw [Bool.and_eq_true, Option.isSome_iff_exists] at alive
      obtain ⟨loc, location⟩ := alive.2
      refine ⟨loc.archetype, List.mem_filter.mpr ⟨consistent.listed location,
        (all _).mpr fun t asked => ?_⟩,
        List.mem_of_getElem? (consistent.inRow location)⟩
      have here := held t asked
      unfold World.has at here
      rw [location] at here
      exact (Bool.and_eq_true_iff.mp here).2

end World

/-! ## Runs -/

/-- A use of a world between walks: an operation, or a query that is matched. -/
inductive WorldUse
  | operate (op : WorldOp)
  | matchQuery (q : Query)

namespace WorldUse

/-- Perform one use. -/
def apply (registry : ComponentRegistry) (w : World) :
    WorldUse → Traced Effect World
  | operate op => op.apply registry w
  | matchQuery q => .pure (w.matchQuery q).2

/-- Uses of a new world, one after the other. -/
def run (registry : ComponentRegistry) (uses : List WorldUse) :
    Traced Effect World :=
  Traced.forEach (apply registry) (World.empty registry) uses

/-- Every use keeps the world stable. -/
theorem apply_stable
    {w : World} (stable : w.Stable registry) (use : WorldUse)
    (issuesDead : Traced.Accepted Effect.IssuesDead (use.apply registry w)) :
    (use.apply registry w).state.Stable registry := by
  cases use with
  | operate op =>
      exact (WorldOp.apply_realizes (World.stable_inductiveOn registry) op).keeps
        (World.stable_inductiveOn registry) _ stable issuesDead
  | matchQuery q =>
      exact ⟨World.matchQuery_consistent stable.consistent q,
        stable.pendingSound, stable.poolReal⟩

/-- No use leaves a walk or a window open. -/
theorem apply_idle {w : World} (idle : w.Idle) (use : WorldUse) :
    (use.apply registry w).state.Idle := by
  cases use with
  | operate op => exact WorldOp.apply_idle idle op
  | matchQuery q => exact idle

/-- Uses keep a world stable and idle. -/
theorem forEach_kept
    {w : World} (stable : w.Stable registry) (idle : w.Idle)
    {uses : List WorldUse}
    (issuesDead : Traced.Accepted Effect.IssuesDead
      (Traced.forEach (apply registry) w uses)) :
    (Traced.forEach (apply registry) w uses).state.Stable registry ∧
      (Traced.forEach (apply registry) w uses).state.Idle := by
  induction uses generalizing w with
  | nil => exact ⟨stable, idle⟩
  | cons use uses inductionHypothesis =>
      have both := (Traced.accepted_andThen _ _ _).mp issuesDead
      exact inductionHypothesis (apply_stable stable use both.1)
        (apply_idle idle use) both.2

/-- From a world that no creation handed a live id of, the walk over a component
list calls the callback once for each entity with the components, in archetype
and row order, and reads nothing it must not, exactly if no call compacts away a
matched archetype before the last one is read, or creates an entity where the
walk still gets to. -/
theorem run_walksSafely_iff
    (uses : List WorldUse) (ids : List ComponentTypeId) (callback : Callback)
    (issuesDead : Traced.Accepted Effect.IssuesDead (run registry uses)) :
    let w := (run registry uses).state
    let q := Query.ofComponents ids
    ((w.WalksSafely registry callback q ∧ (w.matchedEntities q).Nodup ∧
        ∀ e, e ∈ w.matchedEntities q ↔
          w.isAlive e = true ∧ ∀ t ∈ ids, w.has e t = true) ↔
      ∀ turns, (w.walk registry callback q turns).CallHarmless registry callback
        q (w.matchQuery q).1.length) := by
  obtain ⟨stable, idle⟩ := forEach_kept (World.empty_stable registry) rfl
    issuesDead
  unfold run
  dsimp only
  rw [← World.walksSafely_iff stable idle]
  exact and_iff_left (World.matchedEntities_spec stable.consistent ids)

/-- A walk during which a component is overwritten, an entity with it is
destroyed in vain and another one is created. -/
theorem run_walksSafely_mana :
    let registry := ComponentRegistry.manaRegistry
    let w := (run registry [.operate .createEntity,
      .operate (.addRaw ⟨1⟩ 1 (some [7])), .matchQuery (.ofComponents [1]),
      .operate (.addRaw ⟨1⟩ 2 none)]).state
    let callback : Callback := fun _ _ =>
      [.addRaw ⟨1⟩ 1 (some [8]), .destroyEntity ⟨1⟩, .createEntity]
    let q := Query.ofComponents [1]
    ((w.WalksSafely registry callback q ∧ (w.matchedEntities q).Nodup ∧
        ∀ e, e ∈ w.matchedEntities q ↔
          w.isAlive e = true ∧ ∀ t ∈ [1], w.has e t = true) ↔
      ∀ turns, (w.walk registry callback q turns).CallHarmless registry callback
        q (w.matchQuery q).1.length) := by
  intro registry w callback q
  exact run_walksSafely_iff _ [1] callback (by decide +kernel)

/-- A compaction frees a vacant archetype that is still to be read. -/
theorem not_run_walksSafely_compact :
    let registry := ComponentRegistry.manaRegistry
    let w := (run registry [.operate .createEntity,
      .operate (.addRaw ⟨1⟩ 1 (some [7])), .operate (.addRaw ⟨1⟩ 2 none),
      .operate (.removeComponent ⟨1⟩ 2)]).state
    ¬w.WalksSafely registry (fun _ _ => [.compact]) (.ofComponents [1]) := by
  intro registry w safe
  have pastEnd : (w.walk registry (fun _ _ => [.compact]) (.ofComponents [1])
      4).position = .pastEnd := by decide +kernel
  exact (safe.2 4).1 pastEnd

end WorldUse
end VortarisECS
