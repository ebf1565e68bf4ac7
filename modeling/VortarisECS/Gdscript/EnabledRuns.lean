import VortarisECS.Core.ChangeLog
import VortarisECS.Core.StructuralOps
import VortarisECS.Gdscript.QueryBuilder

/-!
# Enabled flags over whole runs

Queries for enabled entities and `for_each_enabled` read the flags in the rows
of the matched archetypes.  A structural operation leaves their answer for an
entity as it was exactly if it moves no disabled entity.
-/

namespace VortarisECS

namespace World

variable {registry : ComponentRegistry} {w w' : World}

/-! ## Answers -/

/-- The flag of a matched row is the flag of its entity. -/
theorem isEnabled_of_row
    (consistent : w.store.Consistent registry) {p : Ptr}
    (listed : p ∈ w.store.archetypeList) {e : Entity} {row : Nat}
    (inRow : (w.store.deref p).entities[row]? = some e) :
    (w.store.deref p).getEnabled row = w.isEnabled e :=
  (ArchetypeStore.isEnabled_of_location
    ((consistent.located e p row).mpr ⟨listed, inRow⟩)).symm

/-- A matched entity is in a row of a matched archetype. -/
theorem mem_matchedEntities
    (consistent : w.store.Consistent registry) (q : Query) (e : Entity) :
    e ∈ w.matchedEntities q ↔ ∃ p ∈ (w.matchQuery q).1, ∃ row : Nat,
      (w.store.deref p).entities[row]? = some e := by
  have answer : (w.matchQuery q).1 = w.store.archetypeList.filter fun p =>
      q.matchesArchetype (w.store.deref p) :=
    QueryCache.matchQuery_archetypes consistent.cached q
  unfold matchedEntities
  rw [answer, List.mem_flatMap]
  simp only [List.mem_iff_getElem?]

/-- A matched archetype is listed. -/
theorem listed_of_matched
    (consistent : w.store.Consistent registry) {q : Query} {p : Ptr}
    (matched : p ∈ (w.matchQuery q).1) : p ∈ w.store.archetypeList := by
  have answer : (w.matchQuery q).1 = w.store.archetypeList.filter fun p =>
      q.matchesArchetype (w.store.deref p) :=
    QueryCache.matchQuery_archetypes consistent.cached q
  rw [answer] at matched
  exact List.mem_of_mem_filter matched

/-- `for_each_enabled` calls back for the matched entities that are enabled. -/
theorem mem_forEachEnabled
    (consistent : w.store.Consistent registry) {γ : Type} [DecidableEq γ]
    (st : TypeStatics γ) (comps : List γ) (e : Entity) :
    e ∈ (w.forEachEnabled st comps).1.map RowCall.entity ↔
      e ∈ w.matchedEntities { all := st.sIds .enabledOnly comps } ∧
        w.isEnabled e = true := by
  rw [mem_matchedEntities consistent]
  unfold forEachEnabled forEachOf walkedRows matchedRows rowEnabled
  dsimp only
  constructor
  · intro called
    obtain ⟨_, isCall, rfl⟩ := List.mem_map.mp called
    obtain ⟨⟨p, row⟩, walked, rfl⟩ := List.mem_map.mp isCall
    obtain ⟨inRows, enabled⟩ := List.mem_filter.mp walked
    obtain ⟨p', matched, inRange⟩ := List.mem_flatMap.mp inRows
    obtain ⟨row', within, same⟩ := List.mem_map.mp inRange
    cases same
    have inRow := List.getElem?_eq_getElem (List.mem_range.mp within)
    unfold forEachRow
    dsimp only
    rw [inRow, Option.getD_some]
    refine ⟨⟨p, matched, row, inRow⟩, ?_⟩
    rw [← isEnabled_of_row consistent (listed_of_matched consistent matched)
      inRow]
    exact enabled
  · rintro ⟨⟨p, matched, row, inRow⟩, enabled⟩
    have within := (List.getElem?_eq_some_iff.mp inRow).1
    rw [← isEnabled_of_row consistent (listed_of_matched consistent matched)
      inRow] at enabled
    refine List.mem_map.mpr ⟨_, List.mem_map_of_mem (List.mem_filter.mpr
      ⟨List.mem_flatMap.mpr ⟨p, matched, List.mem_map_of_mem
        (List.mem_range.mpr within)⟩, enabled⟩), ?_⟩
    unfold forEachRow
    dsimp only
    rw [inRow]
    rfl

end World

namespace VECSQueryBuilder

variable (engine : Engine) {registry : ComponentRegistry}
  {b : VECSQueryBuilder} {w : World}

/-- Sorting keeps the entities. -/
theorem mem_sortCollected
    (registry : ComponentRegistry) (b : VECSQueryBuilder) (w : World)
    (collected : List Entity) (e : Entity) :
    e ∈ b.sortCollected engine registry w collected ↔ e ∈ collected := by
  unfold sortCollected
  split
  · exact (List.mergeSort_perm _ _).mem_iff
  split
  · exact (List.mergeSort_perm _ _).mem_iff
  · rfl

/-- The builder asks for enabled entities and has no other filter for rows. -/
structure OnlyEnabled (b : VECSQueryBuilder) : Prop where
  enabledOnly : b.enabledOnly = true
  unchanged : b.changed = []
  noFields : b.fieldEquals = []
  noPredicate : b.where_ = Option.none

/-- A query for enabled entities answers with those of the matched ones. -/
theorem mem_execute
    (consistent : w.store.Consistent registry) (only : b.OnlyEnabled)
    (e : Entity) :
    e ∈ (b.execute engine registry w).1 ↔
      e ∈ w.matchedEntities b.compileQuery ∧ w.isEnabled e = true := by
  have selects : ∀ at', b.selects engine registry w at' =
      (w.store.deref at'.1).getEnabled at'.2.2 := fun at' => by
    unfold VECSQueryBuilder.selects counts acceptsRow matchesFieldEquals
    rw [only.enabledOnly, only.unchanged, only.noFields, only.noPredicate]
    simp
  rw [b.execute_sorted, mem_sortCollected,
    World.mem_matchedEntities consistent, ← b.prepare_arches]
  have listed : ∀ p ∈ (b.prepare w).1, p ∈ w.store.archetypeList :=
    fun p matched => World.listed_of_matched consistent
      (b.prepare_arches w ▸ matched)
  constructor
  · intro answered
    obtain ⟨⟨p, e', row⟩, isRow, chosen⟩ := List.mem_filterMap.mp answered
    rw [selects, Option.ite_none_right_eq_some, Option.some.injEq] at chosen
    obtain ⟨enabled, rfl⟩ := chosen
    obtain ⟨p', matched, inRows⟩ := List.mem_flatMap.mp isRow
    obtain ⟨entry, isEntry, same⟩ := List.mem_map.mp inRows
    cases same
    have inRow := List.mem_zipIdx_iff_getElem?.mp isEntry
    refine ⟨⟨p, matched, row, inRow⟩, ?_⟩
    rw [← World.isEnabled_of_row consistent (listed p matched) inRow]
    exact enabled
  · rintro ⟨⟨p, matched, row, inRow⟩, enabled⟩
    rw [← World.isEnabled_of_row consistent (listed p matched) inRow] at enabled
    refine List.mem_filterMap.mpr ⟨(p, e, row), List.mem_flatMap.mpr
      ⟨p, matched, List.mem_map_of_mem
        (List.mem_zipIdx_iff_getElem?.mpr inRow)⟩, ?_⟩
    rw [selects]
    exact if_pos enabled

end VECSQueryBuilder

namespace World

/-- Every entity that lives on keeps its enabled flag, and whether it is in the
answers to queries for enabled entities and is called by `for_each_enabled`,
where it matches before and after. -/
structure KeepsFlags (engine : Engine) (registry : ComponentRegistry)
    (w w' : World) : Prop where
  flags : ∀ e, w.isAlive e = true → w'.isAlive e = true →
    w'.isEnabled e = w.isEnabled e
  queries : ∀ b : VECSQueryBuilder, b.OnlyEnabled → ∀ e,
    e ∈ w.matchedEntities b.compileQuery →
    e ∈ w'.matchedEntities b.compileQuery →
    (e ∈ (b.execute engine registry w').1 ↔
      e ∈ (b.execute engine registry w).1)
  walks : ∀ (γ : Type) [DecidableEq γ] (st : TypeStatics γ) (comps : List γ) e,
    e ∈ w.matchedEntities { all := st.sIds .enabledOnly comps } →
    e ∈ w'.matchedEntities { all := st.sIds .enabledOnly comps } →
    (e ∈ (w'.forEachEnabled st comps).1.map RowCall.entity ↔
      e ∈ (w.forEachEnabled st comps).1.map RowCall.entity)

variable {engine : Engine} {registry : ComponentRegistry} {w w' : World}

/-- A matched entity is alive. -/
theorem isAlive_of_matched
    (consistent : w.store.Consistent registry) {q : Query} {e : Entity}
    (matched : e ∈ w.matchedEntities q) : w.isAlive e = true := by
  obtain ⟨p, isMatch, row, inRow⟩ := (mem_matchedEntities consistent q e).mp
    matched
  exact isAlive_of_location consistent ((consistent.located e p row).mpr
    ⟨listed_of_matched consistent isMatch, inRow⟩)

/-- The answers follow the flags. -/
theorem keepsFlags_of_flags
    (consistent : w.store.Consistent registry)
    (consistent' : w'.store.Consistent registry)
    (flags : ∀ e, w.isAlive e = true → w'.isAlive e = true →
      w'.isEnabled e = w.isEnabled e) : KeepsFlags engine registry w w' where
  flags := flags
  queries b only e before after := by
    rw [b.mem_execute engine consistent only,
      b.mem_execute engine consistent' only,
      flags e (isAlive_of_matched consistent before)
        (isAlive_of_matched consistent' after)]
    simp only [before, after]
  walks γ _ st comps e before after := by
    rw [mem_forEachEnabled consistent, mem_forEachEnabled consistent',
      flags e (isAlive_of_matched consistent before)
        (isAlive_of_matched consistent' after)]
    simp only [before, after]

end World

/-! ## Runs -/

/-- A use of a world.  An archetype is named by its place in the list of
archetypes. -/
inductive FlagUse
  | operate (op : ModeOp)
  | moveEntity (e : Entity) (index : Nat)
  | setEnabled (index row : Nat) (on : Bool)
  | queueCommand (command : Command)
  | flushCommandBuffers
  | registerCustomCommand (id : UInt32)
  | advanceChangeTick
  | reset

namespace FlagUse

/-- Perform one use; an archetype is named by its place in the list. -/
def apply (registry : ComponentRegistry) (w : World) :
    FlagUse → Traced Effect World
  | operate op => op.apply registry w
  | moveEntity e index =>
      match w.store.archetypeList[index]? with
      | some target => w.moveEntity registry e target
      | none => .pure w
  | setEnabled index row on =>
      match w.store.archetypeList[index]? with
      | some p => .pure (w.setStore (w.store.modify p (·.setEnabled row on)))
      | none => .pure w
  | queueCommand command => .pure (w.queueCommand command)
  | flushCommandBuffers => w.flushCommandBuffers registry
  | registerCustomCommand id =>
      .pure { w with customCommands := id :: w.customCommands }
  | advanceChangeTick => .pure w.advanceChangeTick
  | reset => .pure w.reset

/-- The world after some uses of a fresh one. -/
def run (registry : ComponentRegistry) (uses : List FlagUse) :
    Traced Effect World :=
  Traced.forEach (apply registry) (World.empty registry) uses

variable {registry : ComponentRegistry} {w : World}

/-- A flush keeps the list of deferred entities right. -/
theorem flushCommandBuffers_listed (listed : w.control.Listed) :
    (w.flushCommandBuffers registry).state.control.Listed := by
  unfold World.flushCommandBuffers
  split
  · exact listed
  · exact World.listed_executeBuffer (w := { w with commandBuffer := [] })
      listed _

/-- The step lemma of the runs. -/
theorem apply_maintains (use : FlagUse) :
    Traced.Maintains
      (fun w : World => w.Stable registry ∧ w.control.Listed)
      Effect.IssuesDead fun w => use.apply registry w := by
  rintro w ⟨stable, listed⟩ issuesDead
  have inductiveOn := World.stable_inductiveOn registry
  cases use with
  | operate op =>
      exact ⟨(ModeOp.apply_realizes op).keeps inductiveOn w stable issuesDead,
        ModeOp.apply_listed listed op⟩
  | moveEntity e index =>
      dsimp only [apply] at issuesDead ⊢
      split
      next target found =>
          rw [found] at issuesDead
          have steps : Steps registry w (w.moveEntity registry e target).effects
              (w.moveEntity registry e target).state :=
            World.moveEntity_steps e (List.mem_of_getElem? found)
          exact ⟨steps.keeps inductiveOn stable issuesDead,
            World.listed_of_control listed (w.moveEntity_control e target)⟩
      next => exact ⟨stable, listed⟩
  | setEnabled index row on =>
      dsimp only [apply]
      split
      next p found =>
          have isListed := List.mem_of_getElem? found
          refine ⟨⟨?_, stable.pendingSound, stable.poolReal⟩, listed⟩
          exact ArchetypeStore.modify_consistent stable.consistent isListed
            (Archetype.setEnabled_wellFormed
              (stable.consistent.wellFormed p isListed) row on) rfl rfl
      next => exact ⟨stable, listed⟩
  | queueCommand command =>
      exact ⟨⟨stable.consistent, stable.pendingSound, stable.poolReal⟩, listed⟩
  | flushCommandBuffers =>
      exact ⟨(World.flushCommandBuffers_realizes inductiveOn).keeps inductiveOn
        w stable issuesDead, flushCommandBuffers_listed listed⟩
  | registerCustomCommand id =>
      exact ⟨⟨stable.consistent, stable.pendingSound, stable.poolReal⟩, listed⟩
  | advanceChangeTick =>
      exact ⟨⟨stable.consistent, stable.pendingSound, stable.poolReal⟩, listed⟩
  | reset =>
      refine ⟨⟨stable.consistent, ?_, ?_⟩, World.listed_empty 0 false⟩
      · exact fun e ops found => absurd found (by simp [apply, World.reset])
      · exact fun e member => absurd member (by simp [apply, World.reset])

/-- A run that hands out no live id keeps the world stable and the list right. -/
theorem run_maintains
    {uses : List FlagUse}
    (issuesDead : Traced.Accepted Effect.IssuesDead (run registry uses)) :
    (run registry uses).state.Stable registry ∧
      (run registry uses).state.control.Listed :=
  Traced.forEach_maintains (fun use _ => apply_maintains use) _
    ⟨World.empty_stable registry, World.listed_empty 0 false⟩ issuesDead

/-- In every reachable world a structural operation keeps the flags exactly if
the entities that it moves are enabled. -/
theorem keepsFlags_iff
    {uses : List FlagUse} (engine : Engine)
    (issuesDead : Traced.Accepted Effect.IssuesDead (run registry uses))
    (op : StructuralOp) :
    World.KeepsFlags engine registry (run registry uses).state
        (op.apply registry (run registry uses).state) ↔
      ∀ e, op.Moves registry (run registry uses).state e →
        (run registry uses).state.isEnabled e = true := by
  obtain ⟨stable, listed⟩ := run_maintains issuesDead
  generalize (run registry uses).state = w at *
  obtain ⟨moved, stayed⟩ := op.apply_reenables stable listed
  constructor
  · intro keeps e moves
    obtain ⟨alive, enabled⟩ := moved e moves
    rw [← keeps.flags e (op.alive_of_moves stable.consistent moves) alive]
    exact enabled
  · intro movesEnabled
    refine World.keepsFlags_of_flags stable.consistent
      (op.apply_consistent stable) fun e alive survives => ?_
    by_cases moves : op.Moves registry w e
    · rw [(moved e moves).2, movesEnabled e moves]
    · exact stayed e moves alive survives

/-- The disabled entity in the last row takes the row of the destroyed one. -/
theorem keepsFlags_iff_swap :
    let w := (run ComponentRegistry.healthRegistry
      [.operate (.operate .createEntity), .operate (.operate .createEntity),
        .operate (.operate (.addRaw ⟨1⟩ 1 none)),
        .operate (.operate (.addRaw ⟨2⟩ 1 none)), .setEnabled 1 1 false]).state
    w.isEnabled ⟨2⟩ = false ∧
      World.KeepsFlags Engine.singlePrecision ComponentRegistry.healthRegistry w
        (StructuralOp.apply ComponentRegistry.healthRegistry w
          (.destroyEntity ⟨1⟩)) :=
  ⟨by decide +kernel, (keepsFlags_iff Engine.singlePrecision
    (by decide +kernel) (.destroyEntity ⟨1⟩)).mpr fun _ => False.elim⟩

/-- A disabled entity that gets a second component is enabled again. -/
theorem not_keepsFlags_addRaw :
    let w := (run ComponentRegistry.manaRegistry
      [.operate (.operate .createEntity),
        .operate (.operate (.addRaw ⟨1⟩ 1 none)), .setEnabled 1 0 false]).state
    ¬World.KeepsFlags Engine.singlePrecision ComponentRegistry.manaRegistry w
      (StructuralOp.apply ComponentRegistry.manaRegistry w
        (.addRaw ⟨1⟩ 2 none)) := by
  intro w keeps
  exact absurd (keeps.flags ⟨1⟩ (by decide +kernel) (by decide +kernel))
    (by decide +kernel)

end FlagUse
end VortarisECS
