import VortarisECS.Core.ChangeView
import VortarisECS.Gdscript.QueryAnswers
import VortarisECS.Network.Session

/-!
# Queries for changed components over whole runs

A query for changed components remembers under its key when it was last executed.
Whatever happens to the world in between, the next execution reports every
matching entity that was written, and only entities that were written or moved.
-/

namespace VortarisECS

/-! ## Uses of a world -/

/-- A use of a world that is queried. -/
inductive QueryUse
  | operate (use : FlagUse)
  /-- Loads and packets among others. -/
  | session (op : SessionOp)
  | execute (b : VECSQueryBuilder)
  | executeOne (b : VECSQueryBuilder)
  | count (b : VECSQueryBuilder)
  /-- A change view, in whatever state it is, takes its changes. -/
  | take (view : ChangeView)

namespace QueryUse

/-- Perform one use. -/
def apply (engine : Engine) (registry : ComponentRegistry) (w : World) :
    QueryUse → Traced Effect World
  | operate use => use.apply registry w
  | session op => op.apply registry w
  | execute b => .pure (b.execute engine registry w).2
  | executeOne b => .pure (b.executeOne engine registry w).2
  | count b => .pure (b.count engine registry w).2
  | take view => .pure (view.take w).2.2

/-- Uses from a world on, one after the other. -/
def runFrom (engine : Engine) (registry : ComponentRegistry) (w : World)
    (uses : List QueryUse) : Traced Effect World :=
  Traced.forEach (apply engine registry) w uses

/-- A run from a fresh world. -/
def run (engine : Engine) (registry : ComponentRegistry)
    (uses : List QueryUse) : Traced Effect World :=
  runFrom engine registry (World.empty registry) uses

/-- The use is an execution that moves the baseline of the builder's key. -/
def Executes (key : UInt64) : QueryUse → Prop
  | execute b | executeOne b =>
      b.changed ≠ [] ∧ b.baselineKey b.compileQuery = key
  | _ => False

end QueryUse

namespace World

/-- No baseline is later than the clock. -/
def BaselinesPast (w : World) : Prop :=
  ∀ key, w.changedBaseline key ≤ w.changeTick

/-- What a use of a world does to versions and baselines. -/
structure Answers (registry : ComponentRegistry) (use : QueryUse) (w : World)
    (effects : List Effect) (w' : World) : Prop where
  stable : w'.Stable registry
  ages : Ages w effects w'
  baseline : ∀ key, w'.changedBaseline key = w.changedBaseline key ∨
    use.Executes key ∧ w'.changedBaseline key = w'.changeTick ∨
    use = .operate .reset ∧ w'.changedBaseline key = 0

end World

namespace QueryUse

variable {engine : Engine} {registry : ComponentRegistry} {w : World}

/-! ## The step lemma -/

/-- Steps of the world answer for a use. -/
theorem answers_of_steps
    {use : QueryUse} {effects : List Effect} {w' : World}
    (stable : w.Stable registry) (steps : Steps registry w effects w')
    (issuesDead : ∀ effect ∈ effects, effect.IssuesDead) :
    World.Answers registry use w effects w' where
  stable := steps.keeps (World.stable_inductiveOn registry) stable issuesDead
  ages := World.Steps.ages stable steps issuesDead
  baseline key := by
    left
    unfold World.changedBaseline
    rw [World.Steps.changedBaselines_eq steps]

/-- So does tracking. -/
theorem answers_of_tracks
    {use : QueryUse} {w' : World} (tracks : World.Tracks registry w w') :
    World.Answers registry use w [] w' where
  stable := tracks.stable
  ages := tracks.ages
  baseline key := by
    left
    unfold World.changedBaseline
    rw [tracks.changedBaselines_eq]

/-- Bookkeeping that no cell depends on. -/
theorem answers_of_cells
    {use : QueryUse} {w' : World} (stable : w'.Stable registry)
    (clock : w.changeTick ≤ w'.changeTick)
    (cells : ∀ e t, w'.cell e t = w.cell e t)
    (baselines : ∀ key, w'.changedBaseline key = w.changedBaseline key ∨
      use = .operate .reset ∧ w'.changedBaseline key = 0) :
    World.Answers registry use w [] w' where
  stable := stable
  ages := .unchanged (fun _ _ => List.not_mem_nil) clock cells
  baseline key := (baselines key).imp_right Or.inr

/-- Setting a flag keeps the world stable. -/
theorem setEnabled_stable
    (stable : w.Stable registry) {p : Ptr}
    (listed : p ∈ w.store.archetypeList) (row : Nat) (on : Bool) :
    (w.setStore (w.store.modify p (·.setEnabled row on))).Stable registry where
  consistent := ArchetypeStore.modify_consistent stable.consistent listed
    (Archetype.setEnabled_wellFormed (stable.consistent.wellFormed p listed)
      row on) rfl rfl
  pendingSound := stable.pendingSound
  poolReal := stable.poolReal

/-- Setting a flag changes no cell. -/
theorem setEnabled_cell
    (consistent : w.store.Consistent registry) {p : Ptr}
    (listed : p ∈ w.store.archetypeList) (row : Nat) (on : Bool) (e : Entity)
    (t : ComponentTypeId) :
    (w.setStore (w.store.modify p (·.setEnabled row on))).cell e t =
      w.cell e t := by
  unfold World.cell
  change (w.store.modify p _).cell e t = _
  rw [ArchetypeStore.modify_cell (consistent.listedValid p listed)]
  unfold ArchetypeStore.cell
  congr 1
  funext loc
  split
  · rename_i here
    rw [here]
    rfl
  · rfl

/-- The clock does not run backwards. -/
theorem changeTick_le_bumpTick (w : World) :
    w.changeTick ≤ w.bumpTick.changeTick := by
  unfold World.bumpTick
  dsimp only
  split
  · exact Nat.le_succ _
  · exact le_rfl

/-- Every operation answers for itself. -/
theorem operate_answers
    (stable : w.Stable registry) (use : FlagUse)
    (issuesDead : Traced.Accepted Effect.IssuesDead (use.apply registry w)) :
    World.Answers registry (.operate use) w (use.apply registry w).effects
      (use.apply registry w).state := by
  have same : ∀ key, w.changedBaseline key = w.changedBaseline key ∨
      QueryUse.operate use = .operate .reset ∧ w.changedBaseline key = 0 :=
    fun _ => Or.inl rfl
  cases use with
  | operate op =>
      exact answers_of_steps stable (ModeOp.apply_realizes op w stable issuesDead)
        issuesDead
  | moveEntity e index =>
      dsimp only [FlagUse.apply] at issuesDead ⊢
      split
      next target found =>
          rw [found] at issuesDead
          exact answers_of_steps stable
            (World.moveEntity_steps e (List.mem_of_getElem? found)) issuesDead
      next => exact answers_of_cells stable le_rfl (fun _ _ => rfl) same
  | setEnabled index row on =>
      dsimp only [FlagUse.apply]
      split
      next p found =>
          have listed := List.mem_of_getElem? found
          exact answers_of_cells (setEnabled_stable stable listed row on) le_rfl
            (setEnabled_cell stable.consistent listed row on) same
      next => exact answers_of_cells stable le_rfl (fun _ _ => rfl) same
  | flushCommandBuffers =>
      exact answers_of_steps stable
        (World.flushCommandBuffers_realizes (World.stable_inductiveOn registry)
          w stable issuesDead) issuesDead
  | advanceChangeTick =>
      exact answers_of_cells
        ⟨stable.consistent, stable.pendingSound, stable.poolReal⟩
        (changeTick_le_bumpTick w) (fun _ _ => rfl) same
  | reset =>
      refine answers_of_cells ⟨stable.consistent, ?_, ?_⟩ le_rfl
        (fun _ _ => rfl) fun _ => Or.inr ⟨rfl, rfl⟩
      · exact fun e ops found => absurd found
          (by simp [FlagUse.apply, World.reset])
      · exact fun e member => absurd member
          (by simp [FlagUse.apply, World.reset])
  | queueCommand | registerCustomCommand =>
      exact answers_of_cells
        ⟨stable.consistent, stable.pendingSound, stable.poolReal⟩ le_rfl
        (fun _ _ => rfl) same

/-- A query tracks columns, and moves its baseline in the end. -/
theorem advance_answers
    {use : QueryUse} {b : VECSQueryBuilder} (stable : w.Stable registry)
    (executes : b.changed ≠ [] → use.Executes (b.baselineKey b.compileQuery)) :
    World.Answers registry use w [] (b.advance (b.prepare w).2.1) := by
  have tracks := VECSQueryBuilder.prepare_tracks (b := b) stable
  unfold VECSQueryBuilder.advance
  split
  · exact answers_of_tracks tracks
  · rename_i nonempty
    have stable' := tracks.stable
    refine ⟨⟨stable'.consistent, stable'.pendingSound, stable'.poolReal⟩, ?_,
      fun key => ?_⟩
    · exact tracks.ages.trans (.unchanged (fun _ _ => List.not_mem_nil) le_rfl
        fun _ _ => rfl)
    · unfold World.changedBaseline World.setChangedBaseline
      dsimp only
      rw [AList.lookup_insert_if]
      split
      · rename_i isKey
        subst isKey
        exact Or.inr (Or.inl
          ⟨executes (List.isEmpty_iff.not.mp nonempty), rfl⟩)
      · rw [tracks.changedBaselines_eq]
        exact Or.inl rfl

/-- Scanning an archetype writes nothing. -/
theorem scanArchetype_tracks
    (view : ChangeView) {found : World × List Entity} {p : Ptr}
    (stable : found.1.Stable registry)
    (listed : p ∈ found.1.store.archetypeList) :
    World.Tracks registry found.1 (view.scanArchetype found p).1 := by
  have tracked : view.trackArchetype found.1 p =
      found.1.trackColumns (view.ids.map (p, ·)) := by
    unfold World.trackColumns
    rw [List.foldl_map]
    rfl
  have tracks := World.trackColumns_tracks stable (view.ids.map (p, ·))
    (by simp [listed])
  unfold ChangeView.scanArchetype
  dsimp only
  rw [tracked]
  split <;> exact tracks

/-- Scanning many writes nothing. -/
theorem scan_tracks
    (view : ChangeView) {arches : List Ptr} (found : World × List Entity)
    (stable : found.1.Stable registry)
    (listed : ∀ p ∈ arches, p ∈ found.1.store.archetypeList) :
    World.Tracks registry found.1 (arches.foldl view.scanArchetype found).1 := by
  induction arches generalizing found with
  | nil => exact .refl stable
  | cons p arches inductionHypothesis =>
      rw [List.forall_mem_cons] at listed
      have tracks := scanArchetype_tracks view stable listed.1
      exact tracks.trans (inductionHypothesis _ tracks.stable
        (tracks.archetypeList_eq ▸ listed.2))

/-- Taking changes writes nothing. -/
theorem take_tracks (view : ChangeView) (stable : w.Stable registry) :
    World.Tracks registry w (view.take w).2.2 := by
  have answered := VECSQueryBuilder.matchQuery_tracks stable view.query
  have scanned : World.Tracks registry (w.matchQuery view.query).2
      ((w.matchQuery view.query).1.foldl view.scanArchetype
        ((w.matchQuery view.query).2, [])).1 :=
    scan_tracks view ((w.matchQuery view.query).2, []) answered.stable fun _ =>
      World.listed_of_matched stable.consistent
  unfold ChangeView.take
  dsimp only
  split
  · exact answered.trans scanned
  · exact answered

/-- The step lemma. -/
theorem apply_answers
    (stable : w.Stable registry) (use : QueryUse)
    (issuesDead : Traced.Accepted Effect.IssuesDead
      (use.apply engine registry w)) :
    World.Answers registry use w (use.apply engine registry w).effects
      (use.apply engine registry w).state := by
  cases use with
  | operate use => exact operate_answers stable use issuesDead
  | session op =>
      exact answers_of_steps stable (SessionOp.apply_realizes
        (World.stable_inductiveOn registry) op w stable issuesDead) issuesDead
  | execute b => exact advance_answers stable fun changed => ⟨changed, rfl⟩
  | executeOne b => exact advance_answers stable fun changed => ⟨changed, rfl⟩
  | count b =>
      exact answers_of_tracks
        (VECSQueryBuilder.matchQuery_tracks stable b.compileQuery)
  | take view => exact answers_of_tracks (take_tracks view stable)

/-! ## The run lemma -/

/-- What some uses of a world do to versions and baselines. -/
structure RunAnswers (registry : ComponentRegistry) (uses : List QueryUse)
    (w : World) (effects : List Effect) (w' : World) : Prop where
  stable : w'.Stable registry
  ages : World.Ages w effects w'
  past : w.BaselinesPast → w'.BaselinesPast
  lower : ∀ key, (∀ use ∈ uses, ¬use.Executes key) →
    w'.changedBaseline key ≤ w.changedBaseline key
  upper : w.BaselinesPast → .operate .reset ∉ uses →
    ∀ key, w.changedBaseline key ≤ w'.changedBaseline key

/-- Every run answers for its uses. -/
theorem runFrom_answers
    (uses : List QueryUse) (stable : w.Stable registry)
    (issuesDead : Traced.Accepted Effect.IssuesDead
      (runFrom engine registry w uses)) :
    RunAnswers registry uses w (runFrom engine registry w uses).effects
      (runFrom engine registry w uses).state := by
  induction uses generalizing w with
  | nil =>
      exact ⟨stable, .refl w, id, fun _ _ => le_rfl, fun _ _ _ => le_rfl⟩
  | cons use uses inductionHypothesis =>
      obtain ⟨dead, laterDead⟩ := (Traced.accepted_andThen ..).mp issuesDead
      have step := apply_answers stable use dead
      have later := inductionHypothesis step.stable laterDead
      have past : w.BaselinesPast →
          (use.apply engine registry w).state.BaselinesPast := by
        intro past key
        obtain same | ⟨-, present⟩ | ⟨-, zero⟩ := step.baseline key
        · rw [same]
          exact (past key).trans step.ages.clock
        · exact present.le
        · rw [zero]
          exact Nat.zero_le _
      refine ⟨later.stable, step.ages.trans later.ages, later.past ∘ past,
        fun key undisturbed => ?_, fun wPast noReset key => ?_⟩
      · rw [List.forall_mem_cons] at undisturbed
        refine (later.lower key undisturbed.2).trans ?_
        obtain same | ⟨executes, -⟩ | ⟨-, zero⟩ := step.baseline key
        · exact same.le
        · exact absurd executes undisturbed.1
        · rw [zero]
          exact Nat.zero_le _
      · rw [List.mem_cons, not_or] at noReset
        refine le_trans ?_ (later.upper (past wPast) noReset.2 key)
        obtain same | ⟨-, present⟩ | ⟨resets, -⟩ := step.baseline key
        · exact same.ge
        · rw [present]
          exact (wPast key).trans step.ages.clock
        · exact absurd resets.symm noReset.1

/-- What holds in every state that a run reaches. -/
structure Reached (registry : ComponentRegistry) (w : World) : Prop where
  stable : w.Stable registry
  versions : w.VersionsPast
  baselines : w.BaselinesPast

/-- Every run reaches a world in which versions are in order. -/
theorem run_reached
    {uses : List QueryUse}
    (issuesDead : Traced.Accepted Effect.IssuesDead
      (run engine registry uses)) :
    Reached registry (run engine registry uses).state := by
  have answers := runFrom_answers uses (World.empty_stable registry) issuesDead
  have versions : (World.empty registry).VersionsPast := fun e t v found => by
    rw [World.version, World.cell, ArchetypeStore.cell,
      show (World.empty registry).store.entityLocations.lookup e = none from rfl]
      at found
    cases found
  exact ⟨answers.stable, answers.ages.past versions,
    answers.past fun _ => Nat.zero_le _⟩

/-- Uses after uses. -/
theorem run_append (first second : List QueryUse) :
    run engine registry (first ++ second) =
      (run engine registry first).andThen fun w =>
        runFrom engine registry w second :=
  Traced.forEach_append _ _ _ _

end QueryUse

/-! ## Answers in every run -/

namespace VECSQueryBuilder

variable {engine : Engine} {registry : ComponentRegistry}
variable {b : VECSQueryBuilder} {w w' : World} {e : Entity}

/-- A unit comes into being. -/
def spawnUnit : List QueryUse :=
  [.operate (.operate (.operate .createEntity)),
    .operate (.operate (.operate (.addRaw ⟨1⟩ 1 Option.none)))]

/-- The unit is touched. -/
def touchUnit : QueryUse :=
  .operate (.operate (.operate (.markChanged ⟨1⟩ 1 "")))

/-- An entity has the components it has cells of. -/
theorem has_iff_cell
    (consistent : w.store.Consistent registry) (t : ComponentTypeId) :
    w.has e t = true ↔ (w.cell e t).isSome := by
  cases location : w.store.entityLocations.lookup e with
  | none =>
      unfold World.has World.cell ArchetypeStore.cell
      rw [location]
      simp
  | some loc =>
      rw [World.has_of_location consistent location, Archetype.hasComponent_iff]
      exact (ArchetypeStore.Consistent.cell_isSome_iff location t).symm

/-- Whether an entity with a component matches depends on which it has. -/
theorem Matches.of_cells
    (consistent : w.store.Consistent registry)
    (consistent' : w'.store.Consistent registry)
    (same : ∀ t, (w'.cell e t).isSome = (w.cell e t).isSome)
    {t : ComponentTypeId} (held : (w.cell e t).isSome)
    (matching : b.Matches w' e) : b.Matches w e := by
  have has : ∀ u, w.has e u = true ↔ w'.has e u = true := fun u => by
    rw [has_iff_cell consistent, has_iff_cell consistent', same]
  refine ⟨?_, fun u asked => (has u).mpr (matching.all u asked), ?_,
    fun u asked present => matching.none u asked ((has u).mp present)⟩
  · cases location : w.store.entityLocations.lookup e with
    | none =>
        unfold World.cell ArchetypeStore.cell at held
        rw [location] at held
        cases held
    | some loc => exact World.isAlive_of_location consistent location
  · exact matching.any.imp_right fun ⟨u, asked, present⟩ =>
      ⟨u, asked, (has u).mpr present⟩

/-- The baseline is the one stored under the key. -/
theorem prepare_baseline (w : World) (nonempty : b.changed ≠ []) :
    (b.prepare w).2.2 =
      w.changedBaseline (b.baselineKey b.compileQuery) := by
  unfold prepare
  dsimp only
  rw [if_neg (List.isEmpty_iff.not.mpr nonempty)]
  rfl

/-- What was written since the baseline is reported. -/
theorem changed_of_wrote
    {effects : List Effect} (stable : w'.Stable registry)
    (ages : World.Ages w effects w')
    (baseline : w'.changedBaseline (b.baselineKey b.compileQuery) ≤ w.changeTick)
    (unsaturated : w'.changeTick < tickLimit) {t : ComponentTypeId}
    (wrote : .wrote e t ∈ effects) (asked : t ∈ b.changed)
    (matching : b.Matches w' e) (held : w'.has e t = true) : b.Changed w' e := by
  have tracks := prepare_tracks (b := b) stable
  obtain ⟨v, found⟩ := Option.isSome_iff_exists.mp
    (prepare_version stable matching asked held)
  have later := (ages.trans tracks.ages).wrote e t v
    (List.mem_append_left _ wrote) (tracks.changeTick_eq ▸ unsaturated) found
  refine ⟨t, asked, v, found, lt_of_le_of_lt ?_ later⟩
  rw [prepare_baseline w' (List.ne_nil_of_mem asked)]
  exact baseline

/-- A query for changed components reports every matching entity of which one
was written since it was last executed, as long as the clock is not
saturated. -/
theorem run_reportsWrites
    {before between : List QueryUse} (b : VECSQueryBuilder)
    (issuesDead : Traced.Accepted Effect.IssuesDead
      (QueryUse.run engine registry (before ++ between)))
    (unsaturated : (QueryUse.run engine registry
      (before ++ between)).state.changeTick < tickLimit)
    (undisturbed : ∀ use ∈ between,
      ¬use.Executes (b.baselineKey b.compileQuery))
    {t : ComponentTypeId}
    (wrote : .wrote e t ∈ (QueryUse.runFrom engine registry
      (QueryUse.run engine registry before).state between).effects)
    (asked : t ∈ b.changed)
    (held : (QueryUse.run engine registry (before ++ between)).state.has e t =
      true)
    (matching : b.Matches
      (QueryUse.run engine registry (before ++ between)).state e)
    (passing : b.Passes engine registry
      (QueryUse.run engine registry (before ++ between)).state e) :
    e ∈ (b.execute engine registry
      (QueryUse.run engine registry (before ++ between)).state).1 := by
  rw [QueryUse.run_append] at *
  obtain ⟨firstDead, laterDead⟩ := (Traced.accepted_andThen ..).mp issuesDead
  have reached := QueryUse.run_reached firstDead
  have answers := QueryUse.runFrom_answers between reached.stable laterDead
  refine (mem_execute_iff answers.stable e).mpr
    ⟨matching, passing, Or.inr ?_⟩
  exact changed_of_wrote answers.stable answers.ages
    ((answers.lower _ undisturbed).trans (reached.baselines _)) unsaturated
    wrote asked matching held

/-- The unit that is touched after it has been seen is reported. -/
theorem run_reportsWrites_touch :
    ⟨1⟩ ∈ (execute .singlePrecision .healthRegistry { changed := [1] }
      (QueryUse.run .singlePrecision .healthRegistry
        ((spawnUnit ++ [.execute { changed := [1] }]) ++ [touchUnit])).state).1 :=
  run_reportsWrites { changed := [1] } (by decide +kernel) (by decide +kernel)
    (by simp [touchUnit, QueryUse.Executes])
    (List.mem_iff_getElem?.mpr ⟨0, by rfl⟩)
    (List.mem_singleton_self 1) (by decide +kernel)
    ⟨by decide +kernel, by simp, Or.inl rfl, by simp⟩
    ⟨by simp, by decide +kernel, by simp⟩

/-- An entity that has components and was not moved since a query tracked its
columns was tracked by it. -/
theorem tracked_of_held
    {effects : List Effect} (stable : w.Stable registry)
    (stable' : w'.Stable registry)
    (ages : World.Ages (b.advance (b.prepare w).2.1) effects w')
    (unmoved : .moved e ∉ effects) (matching : b.Matches w' e)
    {t : ComponentTypeId} (asked : t ∈ b.changed)
    (held : (w'.cell e t).isSome) :
    ((b.advance (b.prepare w).2.1).version e t).isSome ∧
      (.wrote e t ∉ effects →
        w'.version e t = (b.advance (b.prepare w).2.1).version e t) := by
  have tracks := prepare_tracks (b := b) stable
  have cells : ∀ u, (b.advance (b.prepare w).2.1).cell e u =
      (b.prepare w).2.1.cell e u := fun u => by
    unfold advance
    split <;> rfl
  obtain gone | kept := ages.held e unmoved
  · rw [gone] at held
    cases held
  have same : ∀ u, (w'.cell e u).isSome = (w.cell e u).isSome := fun u => by
    rw [(kept u).1, cells, tracks.cell_isSome]
  have matched := matching.of_cells stable.consistent stable'.consistent same
    (same t ▸ held)
  have tracked : ((b.advance (b.prepare w).2.1).version e t).isSome := by
    unfold World.version
    rw [cells]
    exact prepare_version stable matched asked
      ((has_iff_cell stable.consistent t).mpr (same t ▸ held))
  refine ⟨tracked, fun unwritten => ?_⟩
  obtain equal | untracked := (kept t).2 unwritten
  · exact equal
  · rw [untracked] at tracked
    cases tracked

/-- The next baseline is the present tick. -/
theorem advance_baseline (w : World) (nonempty : b.changed ≠ []) :
    (b.advance w).changedBaseline (b.baselineKey b.compileQuery) =
      (b.advance w).changeTick := by
  unfold advance
  rw [if_neg (List.isEmpty_iff.not.mpr nonempty)]
  unfold World.changedBaseline World.setChangedBaseline
  dsimp only
  rw [AList.lookup_insert]
  rfl

/-- An entity that is reported was written or moved. -/
theorem changes_of_changed
    {effects : List Effect} (stable : w.Stable registry)
    (stable' : w'.Stable registry)
    (past : (b.advance (b.prepare w).2.1).VersionsPast)
    (ages : World.Ages (b.advance (b.prepare w).2.1) effects w')
    (baseline : (b.advance (b.prepare w).2.1).changedBaseline
        (b.baselineKey b.compileQuery) ≤
      w'.changedBaseline (b.baselineKey b.compileQuery))
    (nonempty : b.changed ≠ []) (matching : b.Matches w' e)
    (changed : b.Changed w' e) :
    .moved e ∈ effects ∨ ∃ t ∈ b.changed, .wrote e t ∈ effects := by
  obtain ⟨t, asked, v, found, later⟩ := changed
  have tracks := prepare_tracks (b := b) stable'
  have held : (w'.cell e t).isSome := by
    obtain ⟨c, there, -⟩ := Option.bind_eq_some_iff.mp found
    rw [← tracks.cell_isSome, there]
    rfl
  by_contra! nothing
  obtain ⟨unmoved, unwritten⟩ := nothing
  obtain ⟨tracked, kept⟩ := tracked_of_held stable stable' ages unmoved matching
    asked held
  have same := kept (unwritten t asked)
  have old : (b.advance (b.prepare w).2.1).version e t = some v := by
    rw [← same, ← found]
    exact (tracks.version_eq (same ▸ tracked)).symm
  rw [prepare_baseline w' nonempty] at later
  rw [advance_baseline _ nonempty] at baseline
  exact absurd (past e t v old) (Nat.not_le_of_lt (baseline.trans_lt later))

/-- A query for changed components reports only entities of which one was
written, or that were moved, since it was last executed. -/
theorem run_reportsOnlyChanges
    {before between : List QueryUse} (b : VECSQueryBuilder)
    {execution : QueryUse}
    (executed : execution = .execute b ∨ execution = .executeOne b)
    (nonempty : b.changed ≠ []) (noReset : .operate .reset ∉ between)
    (issuesDead : Traced.Accepted Effect.IssuesDead
      (QueryUse.run engine registry (before ++ execution :: between)))
    (reported : e ∈ (b.execute engine registry (QueryUse.run engine registry
      (before ++ execution :: between)).state).1) :
    .moved e ∈ (QueryUse.runFrom engine registry (QueryUse.run engine registry
        (before ++ [execution])).state between).effects ∨
      ∃ t ∈ b.changed, .wrote e t ∈ (QueryUse.runFrom engine registry
        (QueryUse.run engine registry (before ++ [execution])).state
          between).effects := by
  have split : before ++ execution :: between =
      (before ++ [execution]) ++ between := by simp
  rw [split, QueryUse.run_append] at issuesDead reported
  obtain ⟨firstDead, laterDead⟩ := (Traced.accepted_andThen ..).mp issuesDead
  have reached := QueryUse.run_reached firstDead
  have answers := QueryUse.runFrom_answers between reached.stable laterDead
  have executes : (QueryUse.run engine registry (before ++ [execution])).state =
      b.advance (b.prepare (QueryUse.run engine registry before).state).2.1 := by
    rw [QueryUse.run_append]
    obtain rfl | rfl := executed <;> rfl
  rw [QueryUse.run_append] at firstDead
  have start := QueryUse.run_reached ((Traced.accepted_andThen ..).mp firstDead).1
  obtain ⟨matching, -, unchanged | changed⟩ :=
    (mem_execute_iff answers.stable e).mp reported
  · exact absurd unchanged nonempty
  have upper := answers.upper reached.baselines noReset
    (b.baselineKey b.compileQuery)
  rw [executes] at reached answers matching changed upper ⊢
  exact changes_of_changed start.stable answers.stable reached.versions
    answers.ages upper nonempty matching changed

/-- A unit that was touched is reported. -/
theorem run_reportsOnlyChanges_touch :
    .moved ⟨1⟩ ∈ (QueryUse.runFrom .singlePrecision .healthRegistry
        (QueryUse.run .singlePrecision .healthRegistry
          (spawnUnit ++ [.execute { changed := [1] }])).state
            [touchUnit]).effects ∨
      ∃ t ∈ [1], .wrote ⟨1⟩ t ∈ (QueryUse.runFrom .singlePrecision
        .healthRegistry (QueryUse.run .singlePrecision .healthRegistry
          (spawnUnit ++ [.execute { changed := [1] }])).state
            [touchUnit]).effects :=
  run_reportsOnlyChanges { changed := [1] } (Or.inl rfl)
    (List.cons_ne_nil _ _) (by simp [touchUnit]) (by decide +kernel)
    (by decide +kernel)

end VECSQueryBuilder
end VortarisECS
