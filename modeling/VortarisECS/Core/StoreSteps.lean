import VortarisECS.Core.ArchetypeStore
import Mathlib.Data.List.Induction

/-!
# Archetype creation and updates

Creating archetypes and rewriting their contents keeps the store consistent, and
is described by what it does to the entity locations and to the cells.
-/

namespace VortarisECS
namespace ArchetypeStore

variable {registry : ComponentRegistry} {s s' : ArchetypeStore}

/-! ## Creating an archetype -/

/-- A new archetype leaves the old ones. -/
theorem createArchetype_deref
    (registry : ComponentRegistry) (s : ArchetypeStore)
    (ids : List ComponentTypeId) {q : Ptr} (old : q < s.heap.length) :
    (s.createArchetype registry ids).1.deref q = s.deref q := by
  unfold deref createArchetype
  dsimp only
  rw [List.getElem?_append_left old]

/-- A new archetype has the components it was asked for. -/
theorem createArchetype_componentIds
    (registry : ComponentRegistry) (s : ArchetypeStore)
    (ids : List ComponentTypeId) :
    ((s.createArchetype registry ids).1.deref s.heap.length).componentIds =
      ids := by
  unfold deref createArchetype
  simp

/-- A new archetype has no rows. -/
theorem createArchetype_entities
    (registry : ComponentRegistry) (s : ArchetypeStore)
    (ids : List ComponentTypeId) :
    ((s.createArchetype registry ids).1.deref s.heap.length).entities = [] := by
  unfold deref createArchetype
  simp

/-- A new archetype is well formed. -/
theorem createArchetype_wellFormed
    (s : ArchetypeStore) {ids : List ComponentTypeId}
    (ascending : ids.Pairwise (· < ·))
    (registered : ∀ t ∈ ids, (registry.schemaOf t).isSome) :
    ((s.createArchetype registry ids).1.deref s.heap.length).WellFormed
      registry := by
  unfold deref createArchetype
  simp only [List.getElem?_append_right (Nat.le_refl _), Nat.sub_self,
    List.getElem?_cons_zero, Option.getD_some]
  have columnEq : ∀ t ∈ ids, ∀ a : Archetype, a.componentIds = ids →
      a.columns = (ids.map fun t =>
        Column.init (registry.sizeOf t)
          (((registry.schemaOf t).map ComponentSchema.alignment).getD 1)) →
      a.column t = Column.init (registry.sizeOf t)
        (((registry.schemaOf t).map ComponentSchema.alignment).getD 1) := by
    intro t member a sameIds mapped
    unfold Archetype.column Archetype.columnIndex
    rw [mapped, sameIds, List.getElem?_map, List.getElem?_idxOf member]
    rfl
  refine ⟨ascending, registered, List.length_map _, ?_, ?_, rfl, ?_, rfl⟩
  · intro t member
    rw [columnEq t member _ rfl rfl]
    rfl
  · intro t member
    rw [columnEq t member _ rfl rfl]
    exact Column.init_hasRows _ _
  · intro e r
    simp

/-- A new archetype keeps the store consistent. -/
theorem createArchetype_consistent
    (consistent : s.Consistent registry) {ids : List ComponentTypeId}
    (ascending : ids.Pairwise (· < ·))
    (registered : ∀ t ∈ ids, (registry.schemaOf t).isSome)
    (fresh : s.archetypes.lookup ids = none) :
    (s.createArchetype registry ids).1.Consistent registry := by
  have oldDeref : ∀ q ∈ s.archetypeList,
      (s.createArchetype registry ids).1.deref q = s.deref q :=
    fun q member =>
      createArchetype_deref registry s ids (consistent.listedValid q member)
  have newIds := createArchetype_componentIds registry s ids
  have newEntities := createArchetype_entities registry s ids
  have unlisted : s.heap.length ∉ s.archetypeList := fun member =>
    absurd (consistent.listedValid _ member) (Nat.lt_irrefl _)
  have listEq : (s.createArchetype registry ids).1.archetypeList =
      s.archetypeList ++ [s.heap.length] := rfl
  refine ⟨?_, ?_, ?_, ?_, ?_, ?_, ?_, consistent.nullDead, ?_⟩
  · intro p member
    have lengthEq : (s.createArchetype registry ids).1.heap.length =
        s.heap.length + 1 := List.length_append
    rw [lengthEq]
    rw [listEq, List.mem_append, List.mem_singleton] at member
    obtain member | rfl := member
    · exact Nat.lt_succ_of_lt (consistent.listedValid p member)
    · exact Nat.lt_succ_self _
  · rw [listEq, List.nodup_append]
    refine ⟨consistent.listedOnce, List.nodup_singleton _, ?_⟩
    intro p member q memberNew same
    rw [List.mem_singleton] at memberNew
    subst memberNew same
    exact unlisted member
  · rw [listEq]
    exact List.mem_append_left _ consistent.emptyListed
  · change ((s.createArchetype registry ids).1.deref
      s.emptyArchetype).componentIds = []
    rw [oldDeref _ consistent.emptyListed]
    exact consistent.emptyIds
  · intro wanted p
    change (s.archetypes.insert ids s.heap.length).lookup wanted = some p ↔ _
    rw [AList.lookup_insert_if, listEq, List.mem_append, List.mem_singleton]
    by_cases same : wanted = ids
    · subst same
      rw [if_pos rfl, Option.some.injEq]
      constructor
      · rintro rfl
        exact ⟨Or.inr rfl, newIds⟩
      · rintro ⟨member | rfl, idsEq⟩
        · rw [oldDeref p member] at idsEq
          have found := (consistent.keyed wanted p).mpr ⟨member, idsEq⟩
          rw [fresh] at found
          exact absurd found (by simp)
        · rfl
    · rw [if_neg same, consistent.keyed]
      constructor
      · rintro ⟨member, idsEq⟩
        rw [oldDeref p member]
        exact ⟨Or.inl member, idsEq⟩
      · rintro ⟨member | rfl, idsEq⟩
        · rw [oldDeref p member] at idsEq
          exact ⟨member, idsEq⟩
        · rw [newIds] at idsEq
          exact absurd idsEq.symm same
  · intro p member
    rw [listEq, List.mem_append, List.mem_singleton] at member
    obtain member | rfl := member
    · rw [oldDeref p member]
      exact consistent.wellFormed p member
    · exact createArchetype_wellFormed s ascending registered
  · intro e p r
    change s.entityLocations.lookup e = some ⟨p, r⟩ ↔ _
    rw [consistent.located, listEq, List.mem_append, List.mem_singleton]
    constructor
    · rintro ⟨member, found⟩
      rw [oldDeref p member]
      exact ⟨Or.inl member, found⟩
    · rintro ⟨member | rfl, found⟩
      · rw [oldDeref p member] at found
        exact ⟨member, found⟩
      · rw [newEntities] at found
        exact absurd found (by simp)
  · have accurate := consistent.cached.congr fun p member =>
      congrArg Archetype.componentIds (oldDeref p member)
    have registeredNew :=
      QueryCache.registerNewArchetype_accurate accurate s.heap.length
    have newArchetype : (s.createArchetype registry ids).1.queryCache =
        s.queryCache.registerNewArchetype s.heap.length
          ((s.createArchetype registry ids).1.deref s.heap.length) := by
      unfold deref createArchetype
      simp
    rw [newArchetype]
    exact registeredNew

/-- A new store is consistent. -/
theorem initial_consistent (registry : ComponentRegistry) :
    (initial registry).Consistent registry := by
  have derefNew : (initial registry).deref 0 = {
      componentIds := []
      signature := computeSignature [] } := rfl
  have cacheEmpty : (initial registry).queryCache = {} := rfl
  refine ⟨?_, List.nodup_singleton 0, List.mem_singleton_self 0, rfl, ?_, ?_,
    ?_, rfl, ?_⟩
  · intro p member
    rw [show p = 0 from List.mem_singleton.mp member]
    exact Nat.zero_lt_one
  · intro ids p
    change ((∅ : AList fun _ => Ptr).insert [] 0).lookup ids = some p ↔
      p ∈ [0] ∧ _
    rw [AList.lookup_insert_if, List.mem_singleton]
    constructor
    · intro found
      by_cases same : ids = []
      · rw [if_pos same, Option.some.injEq] at found
        subst found
        exact ⟨rfl, same.symm⟩
      · rw [if_neg same] at found
        exact absurd found (by simp)
    · rintro ⟨rfl, idsEq⟩
      rw [derefNew] at idsEq
      exact if_pos idsEq.symm
  · intro p member
    rw [show p = 0 from List.mem_singleton.mp member, derefNew]
    refine ⟨List.Pairwise.nil, ?_, rfl, ?_, ?_, rfl, ?_, rfl⟩
    · exact fun t member => absurd member (by simp)
    · exact fun t member => absurd member (by simp)
    · exact fun t member => absurd member (by simp)
    · simp
  · intro e p r
    change (none : Option EntityLocation) = _ ↔ p ∈ [0] ∧ _
    constructor
    · exact fun found => absurd found (by simp)
    · rintro ⟨member, found⟩
      rw [show p = 0 from List.mem_singleton.mp member, derefNew] at found
      exact absurd found (by simp)
  · rw [cacheEmpty]
    exact QueryCache.accurate_empty _ _

/-- `s'` has every archetype of `s` at its address, and the same locations. -/
structure Extends (s s' : ArchetypeStore) : Prop where
  length_le : s.heap.length ≤ s'.heap.length
  deref_eq : ∀ q, q < s.heap.length → s'.deref q = s.deref q
  listed : ∀ q ∈ s.archetypeList, q ∈ s'.archetypeList
  emptyArchetype_eq : s'.emptyArchetype = s.emptyArchetype
  locations_eq : s'.entityLocations = s.entityLocations

theorem Extends.refl (s : ArchetypeStore) : Extends s s :=
  ⟨le_rfl, fun _ _ => rfl, fun _ member => member, rfl, rfl⟩

/-- More archetypes change nobody's life. -/
theorem Extends.isAlive (extends' : Extends s s') (e : Entity) :
    s'.isAlive e = s.isAlive e := by
  rw [ArchetypeStore.isAlive, extends'.locations_eq]
  rfl

/-- More archetypes change nobody's components. -/
theorem Extends.typesOf
    (extends' : Extends s s') (consistent : s.Consistent registry)
    (e : Entity) : s'.typesOf e = s.typesOf e := by
  unfold ArchetypeStore.typesOf
  rw [extends'.locations_eq]
  cases location : s.entityLocations.lookup e with
  | none => rfl
  | some loc =>
      rw [Option.map_some, Option.map_some,
        extends'.deref_eq _ (consistent.valid location)]

/-- More archetypes change no cell. -/
theorem Extends.cell
    (extends' : Extends s s') (consistent : s.Consistent registry)
    (e : Entity) (t : ComponentTypeId) : s'.cell e t = s.cell e t := by
  unfold ArchetypeStore.cell
  rw [extends'.locations_eq]
  cases location : s.entityLocations.lookup e with
  | none => rfl
  | some loc =>
      rw [Option.bind_some, Option.bind_some,
        extends'.deref_eq _ (consistent.valid location)]

/-- A new archetype extends the store. -/
theorem createArchetype_extends
    (registry : ComponentRegistry) (s : ArchetypeStore)
    (ids : List ComponentTypeId) :
    Extends s (s.createArchetype registry ids).1 where
  length_le := by
    change _ ≤ (s.heap ++ [_]).length
    rw [List.length_append]
    exact Nat.le_add_right _ _
  deref_eq q old := createArchetype_deref registry s ids old
  listed _ member := List.mem_append_left _ member
  emptyArchetype_eq := rfl
  locations_eq := rfl

/-- The archetype `_ensure_archetype` returns is the listed one of its set. -/
theorem ensureArchetype_spec
    (consistent : s.Consistent registry) {ids : List ComponentTypeId}
    (ascending : ids.Pairwise (· < ·))
    (registered : ∀ t ∈ ids, (registry.schemaOf t).isSome) :
    (s.ensureArchetype registry ids).1.Consistent registry ∧
    Extends s (s.ensureArchetype registry ids).1 ∧
    (s.ensureArchetype registry ids).2 ∈
      (s.ensureArchetype registry ids).1.archetypeList ∧
    ((s.ensureArchetype registry ids).1.deref
      (s.ensureArchetype registry ids).2).componentIds = ids := by
  unfold ensureArchetype
  cases found : s.archetypes.lookup ids with
  | some p =>
      obtain ⟨listed, idsEq⟩ := (consistent.keyed ids p).mp found
      exact ⟨consistent, Extends.refl s, listed, idsEq⟩
  | none =>
      exact ⟨createArchetype_consistent consistent ascending registered found,
        createArchetype_extends registry s ids,
        List.mem_append_right _ (List.mem_singleton_self _),
        createArchetype_componentIds registry s ids⟩

/-! ## Overwriting archetype contents -/

/-- Rewriting a listed archetype without touching its ids, its entities or their
index keeps the store consistent. -/
theorem modify_consistent
    (consistent : s.Consistent registry) {p : Ptr}
    (listed : p ∈ s.archetypeList) {f : Archetype → Archetype}
    (wellFormed : (f (s.deref p)).WellFormed registry)
    (sameIds : (f (s.deref p)).componentIds = (s.deref p).componentIds)
    (sameEntities : (f (s.deref p)).entities = (s.deref p).entities) :
    (s.modify p f).Consistent registry := by
  have valid := consistent.listedValid p listed
  have idsEq : ∀ q, ((s.modify p f).deref q).componentIds =
      (s.deref q).componentIds := by
    intro q
    rw [deref_modify f valid]
    by_cases same : q = p
    · rw [if_pos same, sameIds, same]
    · rw [if_neg same]
  have entitiesEq : ∀ q, ((s.modify p f).deref q).entities =
      (s.deref q).entities := by
    intro q
    rw [deref_modify f valid]
    by_cases same : q = p
    · rw [if_pos same, sameEntities, same]
    · rw [if_neg same]
  refine ⟨?_, consistent.listedOnce, consistent.emptyListed, ?_, ?_, ?_, ?_,
    consistent.nullDead, ?_⟩
  · intro q member
    rw [length_heap_modify]
    exact consistent.listedValid q member
  · rw [idsEq]
    exact consistent.emptyIds
  · intro ids q
    rw [idsEq]
    exact consistent.keyed ids q
  · intro q member
    rw [deref_modify f valid]
    by_cases same : q = p
    · rw [if_pos same]
      exact wellFormed
    · rw [if_neg same]
      exact consistent.wellFormed q member
  · intro e q r
    rw [entitiesEq]
    exact consistent.located e q r
  · exact consistent.cached.congr fun q _ => idsEq q

/-- Cells after rewriting one archetype. -/
theorem modify_cell
    {p : Ptr} {f : Archetype → Archetype} (valid : p < s.heap.length)
    (e : Entity) (t : ComponentTypeId) :
    (s.modify p f).cell e t =
      (s.entityLocations.lookup e).bind fun loc =>
        if loc.archetype = p then (f (s.deref p)).cell t loc.row
        else (s.deref loc.archetype).cell t loc.row := by
  unfold cell
  change (s.entityLocations.lookup e).bind _ = _
  congr 1
  funext loc
  rw [deref_modify f valid]
  by_cases same : loc.archetype = p
  · rw [if_pos same, if_pos same]
  · rw [if_neg same, if_neg same]

@[simp] theorem modify_isAlive
    (s : ArchetypeStore) (p : Ptr) (f : Archetype → Archetype) (e : Entity) :
    (s.modify p f).isAlive e = s.isAlive e := rfl

/-! ## Compaction and rehashing -/

@[simp] theorem compact_deref (s : ArchetypeStore) (p : Ptr) :
    s.compact.deref p = s.deref p := rfl

/-- The archetypes that a compaction frees. -/
theorem isVacant_iff {p : Ptr} :
    s.isVacant p = true ↔
      p ≠ s.emptyArchetype ∧ (s.deref p).entities = [] := by
  simp [isVacant]

theorem mem_compact_archetypeList {p : Ptr} :
    p ∈ s.compact.archetypeList ↔
      p ∈ s.archetypeList ∧ ¬s.isVacant p = true := by
  change p ∈ s.archetypeList.filter (fun p => !s.isVacant p) ↔ _
  rw [List.mem_filter, Bool.not_eq_true', Bool.not_eq_true]

/-- A compaction keeps the store consistent. -/
theorem compact_consistent (consistent : s.Consistent registry) :
    s.compact.Consistent registry := by
  refine ⟨?_, ?_, ?_, consistent.emptyIds, ?_, ?_, ?_, consistent.nullDead, ?_⟩
  · intro p listed
    exact consistent.listedValid p (mem_compact_archetypeList.mp listed).1
  · exact consistent.listedOnce.filter _
  · change s.emptyArchetype ∈ _
    rw [mem_compact_archetypeList, isVacant_iff]
    exact ⟨consistent.emptyListed, fun both => both.1 rfl⟩
  · intro ids p
    rw [mem_compact_archetypeList, compact_deref]
    unfold compact
    dsimp only
    rw [AList.lookup_foldl_erase fun p => (s.deref p).componentIds]
    constructor
    · intro found
      by_cases erased : ∃ q ∈ s.archetypeList.filter s.isVacant,
          (s.deref q).componentIds = ids
      · rw [if_pos erased] at found
        exact absurd found (by simp)
      · rw [if_neg erased] at found
        obtain ⟨listed, idsEq⟩ := (consistent.keyed ids p).mp found
        refine ⟨⟨listed, fun vacant => ?_⟩, idsEq⟩
        exact erased ⟨p, List.mem_filter.mpr ⟨listed, vacant⟩, idsEq⟩
    · rintro ⟨⟨listed, kept⟩, idsEq⟩
      rw [if_neg, (consistent.keyed ids p).mpr ⟨listed, idsEq⟩]
      rintro ⟨q, dead, sameIds⟩
      obtain ⟨listedQ, deadQ⟩ := List.mem_filter.mp dead
      have same := consistent.ptr_unique listedQ listed
        (sameIds.trans idsEq.symm)
      subst same
      exact kept deadQ
  · intro p listed
    exact consistent.wellFormed p (mem_compact_archetypeList.mp listed).1
  · intro e p r
    rw [mem_compact_archetypeList, isVacant_iff]
    change s.entityLocations.lookup e = some ⟨p, r⟩ ↔ _
    rw [consistent.located]
    constructor
    · rintro ⟨listed, found⟩
      refine ⟨⟨listed, ?_⟩, found⟩
      rintro ⟨_, noEntities⟩
      rw [noEntities] at found
      exact absurd found (by simp)
    · rintro ⟨⟨listed, _⟩, found⟩
      exact ⟨listed, found⟩
  · have accurate := QueryCache.eraseArchetypes_accurate consistent.cached
      (s.archetypeList.filter s.isVacant)
    have sameList : s.compact.archetypeList =
        s.archetypeList.filter fun p =>
          decide (p ∉ s.archetypeList.filter s.isVacant) := by
      apply List.filter_congr
      intro p listed
      cases vacant : s.isVacant p <;> simp [List.mem_filter, listed, vacant]
    rw [sameList]
    exact accurate

/-- Another order of the hash table keeps the store consistent. -/
theorem rehash_consistent
    (consistent : s.Consistent registry) (order : List Entity) :
    (s.rehash order).Consistent registry := by
  refine ⟨consistent.listedValid, consistent.listedOnce,
    consistent.emptyListed, consistent.emptyIds, consistent.keyed,
    consistent.wellFormed, ?_, ?_, consistent.cached⟩
  · intro e p r
    change (s.entityLocations.rearrange order).lookup e = _ ↔ _
    rw [AList.lookup_rearrange]
    exact consistent.located e p r
  · change (s.entityLocations.rearrange order).lookup Entity.null = none
    rw [AList.lookup_rearrange]
    exact consistent.nullDead

/-- It changes no cell. -/
theorem rehash_cell (s : ArchetypeStore) (order : List Entity)
    (e : Entity) (t : ComponentTypeId) :
    (s.rehash order).cell e t = s.cell e t := by
  change ((s.entityLocations.rearrange order).lookup e).bind _ = _
  rw [AList.lookup_rearrange]
  rfl

theorem rehash_isAlive (s : ArchetypeStore) (order : List Entity)
    (e : Entity) : (s.rehash order).isAlive e = s.isAlive e := by
  change ((s.entityLocations.rearrange order).lookup e).isSome = _
  rw [AList.lookup_rearrange]
  rfl

end ArchetypeStore
end VortarisECS
