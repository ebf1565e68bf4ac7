import VortarisECS.Core.Runs

/-!
# The representation invariant of the archetype store

The structures of a store hold the same facts several times over: the ids of an
archetype and its directory key, the parallel vectors of its rows, the row index
and the entity locations, the two directories of archetypes.  They agree after
every run.
-/

namespace VortarisECS
namespace ArchetypeStore

/-- The redundant structures of a store, spelled out one by one. -/
structure Represented (s : ArchetypeStore) : Prop where
  /-- The ids of an archetype ascend strictly. -/
  ascending : ∀ p ∈ s.archetypeList,
    (s.deref p).componentIds.Pairwise (· < ·)
  /-- They are the archetype's key in the directory. -/
  keyed : ∀ ids p, s.archetypes.lookup ids = some p →
    (s.deref p).componentIds = ids
  /-- There is one column per component. -/
  columnPerId : ∀ p ∈ s.archetypeList,
    (s.deref p).columns.length = (s.deref p).componentIds.length
  /-- The enabled flags are parallel to the entities. -/
  enabledParallel : ∀ p ∈ s.archetypeList,
    (s.deref p).enabled.length = (s.deref p).entities.length
  /-- So is every column. -/
  columnsParallel : ∀ p ∈ s.archetypeList, ∀ c ∈ (s.deref p).columns,
    c.size = (s.deref p).entities.length
  /-- A tracked column has exactly one version per row. -/
  versionsParallel : ∀ p ∈ s.archetypeList, ∀ c ∈ (s.deref p).columns,
    c.tracking = true → c.versions.length = c.size
  /-- The row index is the inverse of the entity vector. -/
  inverse : ∀ p ∈ s.archetypeList, ∀ e r,
    (s.deref p).entityToRow.lookup e = some r ↔
      (s.deref p).entities[r]? = some e
  /-- The locations say where each entity is. -/
  located : ∀ e p r, s.entityLocations.lookup e = some ⟨p, r⟩ ↔
    p ∈ s.archetypeList ∧ (s.deref p).entities[r]? = some e
  /-- A live entity sits in exactly one row of exactly one archetype. -/
  oneRow : ∀ e, s.isAlive e = true → ∃! loc : EntityLocation,
    loc.archetype ∈ s.archetypeList ∧
      (s.deref loc.archetype).entities[loc.row]? = some e
  /-- The two directories contain the same archetypes. -/
  sameArchetypes : ∀ p, p ∈ s.archetypeList ↔
    ∃ ids, s.archetypes.lookup ids = some p
  listedOnce : s.archetypeList.Nodup
  keyedOnce : ∀ ids ids' p, s.archetypes.lookup ids = some p →
    s.archetypes.lookup ids' = some p → ids = ids'
  allocated : ∀ p ∈ s.archetypeList, p < s.heap.length
  /-- The empty archetype is one of them. -/
  emptyListed : s.emptyArchetype ∈ s.archetypeList ∧
    s.archetypes.lookup [] = some s.emptyArchetype

/-- A consistent store has all of it. -/
theorem Consistent.represented
    {registry : ComponentRegistry} {s : ArchetypeStore}
    (consistent : s.Consistent registry) : s.Represented where
  ascending p listed := (consistent.wellFormed p listed).ascending
  keyed ids p found := ((consistent.keyed ids p).mp found).2
  columnPerId p listed := (consistent.wellFormed p listed).columnsLength
  enabledParallel p listed := (consistent.wellFormed p listed).enabledLength
  columnsParallel p listed c member := by
    obtain ⟨t, inIds, rfl⟩ :=
      Archetype.exists_column_of_mem (consistent.wellFormed p listed) member
    exact ((consistent.wellFormed p listed).columnRows t inIds).rows_length
  versionsParallel p listed c member tracked := by
    obtain ⟨t, inIds, rfl⟩ :=
      Archetype.exists_column_of_mem (consistent.wellFormed p listed) member
    have hasRows := (consistent.wellFormed p listed).columnRows t inIds
    rw [hasRows.versions_length tracked]
    exact hasRows.rows_length.symm
  inverse p listed := (consistent.wellFormed p listed).inverse
  located := consistent.located
  oneRow e alive := by
    obtain ⟨loc, location⟩ := isAlive_iff.mp alive
    refine ⟨loc, ⟨consistent.listed location, consistent.inRow location⟩, ?_⟩
    rintro ⟨p, r⟩ ⟨listed, inRow⟩
    have other := (consistent.located e p r).mpr ⟨listed, inRow⟩
    rw [location] at other
    exact (Option.some.inj other).symm
  sameArchetypes p := by
    constructor
    · intro listed
      exact ⟨_, (consistent.keyed _ p).mpr ⟨listed, rfl⟩⟩
    · rintro ⟨ids, found⟩
      exact ((consistent.keyed ids p).mp found).1
  listedOnce := consistent.listedOnce
  keyedOnce ids ids' p found found' := by
    rw [← ((consistent.keyed ids p).mp found).2,
      ← ((consistent.keyed ids' p).mp found').2]
  allocated := consistent.listedValid
  emptyListed := ⟨consistent.emptyListed,
    (consistent.keyed [] _).mpr ⟨consistent.emptyListed, consistent.emptyIds⟩⟩

end ArchetypeStore

namespace WorldOp

/-- Every run without ids from outside leaves the redundant structures of the
store in agreement. -/
theorem run_represented
    {registry : ComponentRegistry} {ops : List WorldOp}
    (preassignsNothing : ∀ op ∈ ops, op.PreassignsNothing) :
    (run registry ops).state.store.Represented :=
  (run_sound preassignsNothing).stable.consistent.represented

/-- The run that moves, swaps out and compacts one entity. -/
theorem run_represented_swap :
    (run ComponentRegistry.healthRegistry
      [.createEntity, .createEntity, .addRaw ⟨1⟩ 1 (some [7]),
        .addRaw ⟨2⟩ 1 none, .markChanged ⟨2⟩ 1 "hp", .destroyEntity ⟨1⟩,
        .executeBuffer [.removeComponent ⟨2⟩ 1], .compact,
        .clear]).state.store.Represented :=
  run_represented (by simp [PreassignsNothing])

end WorldOp
end VortarisECS
