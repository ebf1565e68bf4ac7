import VortarisECS.Serialization.Reencode
import VortarisECS.Serialization.SavedWorld

/-!
# Saving again what was loaded

A loader builds every entity in the last row of each set it passes through, so
the rows of a loaded world come in the order of the save.  Archetypes come in
the order of their signatures.  As long as these differ and no component changes
by being stored, the save of the loaded world is the save it was loaded from.
-/

namespace VortarisECS
namespace ArchetypeStore

variable {registry : ComponentRegistry} {s s' : ArchetypeStore}
variable {order order' : List Ptr}

/-! ## The order of a listing -/

/-- The component sets somebody has, in an order of the archetypes. -/
def occupiedSets (s : ArchetypeStore) (order : List Ptr) :
    List (List ComponentTypeId) :=
  (order.map fun p => (s.deref p).componentIds).filter fun ids => s.rows ids ≠ []

/-- Archetypes that are not empty have different signatures. -/
def SignaturesDiffer (s : ArchetypeStore) : Prop :=
  ∀ p ∈ s.archetypeList, ∀ q ∈ s.archetypeList,
    (s.deref p).entities ≠ [] → (s.deref q).entities ≠ [] →
    (s.deref p).signature = (s.deref q).signature → p = q

instance (s : ArchetypeStore) : Decidable s.SignaturesDiffer :=
  inferInstanceAs (Decidable (∀ p ∈ s.archetypeList, ∀ q ∈ s.archetypeList, _))

/-- The occupied component sets are those with rows. -/
theorem mem_occupiedSets
    (consistent : s.Consistent registry) (perm : order.Perm s.archetypeList)
    {ids : List ComponentTypeId} :
    ids ∈ s.occupiedSets order ↔ s.rows ids ≠ [] := by
  unfold occupiedSets
  rw [List.mem_filter, decide_eq_true_eq, and_iff_right_of_imp]
  intro occupied
  obtain ⟨p, listed, idsEq, _⟩ | ⟨_, empty⟩ := rows_cases consistent ids
  · exact List.mem_map.mpr ⟨p, perm.mem_iff.mpr listed, idsEq⟩
  · exact absurd empty occupied

/-- Each component set is listed once. -/
theorem occupiedSets_nodup
    (consistent : s.Consistent registry) (perm : order.Perm s.archetypeList) :
    (s.occupiedSets order).Nodup := by
  apply List.Nodup.filter
  apply List.Nodup.map_on ?_ (perm.nodup_iff.mpr consistent.listedOnce)
  exact fun p member q member' same => consistent.ptr_unique
    (perm.mem_iff.mp member) (perm.mem_iff.mp member') same

/-- A listing goes through the occupied sets. -/
theorem listing_eq_flatMap
    (consistent : s.Consistent registry) (perm : order.Perm s.archetypeList) :
    s.listing order = (s.occupiedSets order).flatMap s.rows := by
  have skips : ∀ sets : List (List ComponentTypeId),
      (sets.filter fun ids => s.rows ids ≠ []).flatMap s.rows =
        sets.flatMap s.rows := by
    intro sets
    induction sets with
    | nil => rfl
    | cons ids sets inductionHypothesis =>
        rw [List.filter_cons, List.flatMap_cons, ← inductionHypothesis]
        by_cases empty : s.rows ids = []
        · rw [if_neg (by simpa using empty), empty, List.nil_append]
        · rw [if_pos (by simpa using empty), List.flatMap_cons]
  unfold occupiedSets listing
  rw [skips, List.flatMap_map]
  apply List.flatMap_congr
  intro p member
  exact (rows_of_listed consistent (perm.mem_iff.mp member)).symm

/-- The component sets are listed by signature. -/
theorem occupiedSets_sorted
    (consistent : s.Consistent registry) (sorted : SortedBySignature s order) :
    (s.occupiedSets order).Pairwise fun ids ids' =>
      computeSignature ids ≤ computeSignature ids' := by
  apply List.Pairwise.filter
  rw [List.pairwise_map]
  apply sorted.sorted.imp_of_mem
  intro p q member member' ordered
  rwa [(consistent.wellFormed p (sorted.perm.mem_iff.mp member)).signed,
    (consistent.wellFormed q (sorted.perm.mem_iff.mp member')).signed] at ordered

theorem SignaturesDiffer.injective
    (differ : s.SignaturesDiffer) (consistent : s.Consistent registry)
    {ids ids' : List ComponentTypeId} (occupied : s.rows ids ≠ [])
    (occupied' : s.rows ids' ≠ [])
    (same : computeSignature ids = computeSignature ids') : ids = ids' := by
  obtain ⟨p, listed, rfl, rowsEq⟩ | ⟨_, empty⟩ := rows_cases consistent ids
  swap
  · exact absurd empty occupied
  obtain ⟨q, listed', rfl, rowsEq'⟩ | ⟨_, empty⟩ := rows_cases consistent ids'
  swap
  · exact absurd empty occupied'
  rw [rowsEq] at occupied
  rw [rowsEq'] at occupied'
  rw [← (consistent.wellFormed p listed).signed,
    ← (consistent.wellFormed q listed').signed] at same
  rw [differ p listed q listed' occupied occupied' same]

/-- Sorting by signatures that differ lists the same rows in the same order,
whatever empty archetypes there are. -/
theorem listing_eq_of_rows
    (consistent : s.Consistent registry) (consistent' : s'.Consistent registry)
    (sorted : SortedBySignature s order) (sorted' : SortedBySignature s' order')
    (differ : s.SignaturesDiffer) (sameRows : ∀ ids, s'.rows ids = s.rows ids) :
    s'.listing order' = s.listing order := by
  have members (ids : List ComponentTypeId) :
      ids ∈ s'.occupiedSets order' ↔ ids ∈ s.occupiedSets order := by
    rw [mem_occupiedSets consistent' sorted'.perm,
      mem_occupiedSets consistent sorted.perm, sameRows]
  have sameSets : s'.occupiedSets order' = s.occupiedSets order := by
    apply List.Perm.eq_of_pairwise ?_ (occupiedSets_sorted consistent' sorted')
      (occupiedSets_sorted consistent sorted)
      ((List.perm_ext_iff_of_nodup
        (occupiedSets_nodup consistent' sorted'.perm)
        (occupiedSets_nodup consistent sorted.perm)).mpr members)
    intro ids ids' member member' less greater
    exact differ.injective consistent
      ((mem_occupiedSets consistent sorted.perm).mp ((members ids).mp member))
      ((mem_occupiedSets consistent sorted.perm).mp member')
      (UInt64.le_antisymm less greater)
  rw [listing_eq_flatMap consistent' sorted'.perm,
    listing_eq_flatMap consistent sorted.perm, sameSets]
  apply List.flatMap_congr
  exact fun ids _ => sameRows ids

/-- The rows of a set are the part of a listing that has it. -/
theorem listing_filter
    (consistent : s.Consistent registry) (perm : order.Perm s.archetypeList)
    (ids : List ComponentTypeId) :
    (s.listing order).filter (fun e => s.typesOf e = some ids) = s.rows ids := by
  have single : ∀ sets : List (List ComponentTypeId), sets.Nodup →
      (sets.flatMap s.rows).filter (fun e => s.typesOf e = some ids) =
        if ids ∈ sets then s.rows ids else [] := by
    intro sets once
    induction sets with
    | nil => rfl
    | cons first sets inductionHypothesis =>
        rw [List.nodup_cons] at once
        rw [List.flatMap_cons, List.filter_append, inductionHypothesis once.2]
        by_cases here : ids = first
        · subst here
          rw [if_neg once.1, if_pos List.mem_cons_self, List.append_nil,
            List.filter_eq_self]
          intro e member
          exact decide_eq_true ((mem_rows_iff consistent).mp member)
        · have none : (s.rows first).filter
              (fun e => s.typesOf e = some ids) = [] := by
            rw [List.filter_eq_nil_iff]
            intro e member has'
            rw [decide_eq_true_eq, (mem_rows_iff consistent).mp member,
              Option.some.injEq] at has'
            exact here has'.symm
          rw [none, List.nil_append]
          simp only [List.mem_cons, here, false_or]
  rw [listing_eq_flatMap consistent perm,
    single _ (occupiedSets_nodup consistent perm)]
  by_cases occupied : s.rows ids = []
  · rw [occupied, ite_self]
  · rw [if_pos ((mem_occupiedSets consistent perm).mpr occupied)]

end ArchetypeStore

namespace World

variable {registry : ComponentRegistry} {w : World} {e : Entity}
variable {order : List Ptr}

/-! ## Rows of a loaded world -/

theorem Tail.of_rows
    {ids : List ComponentTypeId} {front : List ComponentTypeId → List Entity}
    (consistent : w.store.Consistent registry)
    (rows : ∀ ids', w.store.rows ids' =
      if ids' = ids then front ids' ++ [e] else front ids') :
    w.Tail e ids front where
  types := by
    apply (ArchetypeStore.mem_rows_iff consistent).mp
    rw [rows, if_pos rfl]
    exact List.mem_append_right _ (List.mem_singleton_self e)
  rows := rows

theorem sortIds_of_ascending
    {ids : List ComponentTypeId} (ascending : ids.Pairwise (· < ·)) :
    sortIds ids = ids :=
  List.Pairwise.insertionSort_eq (ascending.imp le_of_lt)

/-- Receiving blocks of ascending types keeps an entity in the last row. -/
theorem installBlocks_tail
    {front : List ComponentTypeId → List Entity} {ids : List ComponentTypeId}
    (hosts : w.Hosts registry e) (tail : w.Tail e ids front)
    {blocks : List ComponentBlock}
    (ascending : (ids ++ blocks.map ComponentBlock.type).Pairwise (· < ·))
    (registered : ∀ block ∈ blocks, (registry.schemaOf block.type).isSome) :
    (installBlocks registry e w blocks).state.Tail e
      (ids ++ blocks.map ComponentBlock.type) front := by
  induction blocks generalizing w ids with
  | nil =>
      rw [List.map_nil, List.append_nil]
      exact tail
  | cons block blocks inductionHypothesis =>
      have known := registered block List.mem_cons_self
      rw [List.map_cons, List.append_cons] at ascending
      obtain ⟨headAscending, _, _⟩ := List.pairwise_append.mp ascending
      have absent : block.type ∉ ids := fun member =>
        lt_irrefl _ ((List.pairwise_append.mp headAscending).2.2 _ member _
          (List.mem_singleton_self _))
      have added := tail.addRaw hosts.stable.consistent hosts.idle known absent
        none
      rw [sortIds_of_ascending headAscending] at added
      obtain ⟨nextHosts, _⟩ := installBlock_spec hosts block
      have next : (installBlock registry e w block).state.Tail e
          (ids ++ [block.type]) front := by
        apply Tail.of_rows nextHosts.stable.consistent
        intro ids'
        obtain ⟨schema, found⟩ := Option.isSome_iff_exists.mp known
        unfold installBlock
        rw [found]
        dsimp only
        rw [Traced.mapState_state, writeRaw_rows]
        exact added.rows ids'
      have last := inductionHypothesis nextHosts next ascending fun later member =>
        registered later (List.mem_cons_of_mem block member)
      rw [List.map_cons, List.append_cons]
      exact last

/-- A new entity joins the rows without components, at their end. -/
theorem createEntityPreassigned_tail
    (stable : w.Stable registry) (idle : w.Idle) {id : UInt64}
    (accepted : idRefused id = false) (dead : w.isAlive ⟨id⟩ = false) :
    (w.createEntityPreassigned id).state.Tail ⟨id⟩ [] w.store.rows := by
  obtain ⟨_, hosts, _⟩ := createEntityPreassigned_spec stable idle accepted dead
  have unlocated :=
    lookup_eq_none_of_dead (real_of_accepted accepted) dead
  obtain ⟨formed, bounded⟩ := idRefused_eq_false accepted
  have grownDead : ¬(w.setSlots (w.slots.growTo
      ((⟨id⟩ : Entity).slot + 1))).store.isAlive ⟨id⟩ = true := by
    change ¬(w.store.entityLocations.lookup ⟨id⟩).isSome = true
    rw [unlocated]
    exact Bool.false_ne_true
  apply Tail.of_rows hosts.stable.consistent
  intro ids
  have entered := enterEmpty_rows (w := w.setSlots (w.slots.adopt ⟨id⟩))
    stable.consistent unlocated ids
  unfold createEntityPreassigned
  dsimp only
  rw [if_neg formed, if_neg bounded, if_neg grownDead,
    (agrees_invalidateCache _ : Agrees registry _ _).store_eq]
  exact entered

/-- An installed record comes last among the entities with its components. -/
theorem installRecord_rows
    {record : EntityRecord} (awaits : w.Awaits registry [record])
    (ascending : (record.blocks.map ComponentBlock.type).Pairwise (· < ·))
    (registered : ∀ block ∈ record.blocks,
      (registry.schemaOf block.type).isSome) (ids : List ComponentTypeId) :
    (installRecord registry w record).state.store.rows ids =
      if ids = record.blocks.map ComponentBlock.type then
        w.store.rows ids ++ [⟨record.id⟩]
      else w.store.rows ids := by
  have accepted := awaits.accepted record (List.mem_singleton_self record)
  have dead := awaits.dead record (List.mem_singleton_self record)
  obtain ⟨_, hosts, _⟩ :=
    createEntityPreassigned_spec awaits.stable awaits.idle accepted dead
  have created :=
    createEntityPreassigned_tail awaits.stable awaits.idle accepted dead
  exact (installBlocks_tail hosts created ascending registered).rows ids

theorem installRecords_rows
    {records : List EntityRecord} (awaits : w.Awaits registry records)
    (ascending : ∀ record ∈ records,
      (record.blocks.map ComponentBlock.type).Pairwise (· < ·))
    (registered : ∀ record ∈ records, ∀ block ∈ record.blocks,
      (registry.schemaOf block.type).isSome) (ids : List ComponentTypeId) :
    (Traced.forEach (installRecord registry) w records).state.store.rows ids =
      w.store.rows ids ++
        (records.filter fun record =>
          ids = record.blocks.map ComponentBlock.type).map (⟨·.id⟩) := by
  induction records generalizing w with
  | nil => exact (List.append_nil _).symm
  | cons record records inductionHypothesis =>
      have first := installRecord_rows awaits.head
        (ascending record List.mem_cons_self)
        (registered record List.mem_cons_self) ids
      rw [Traced.forEach_cons, Traced.andThen_state,
        inductionHypothesis (installRecord_spec awaits).1
          (fun later member => ascending later (List.mem_cons_of_mem _ member))
          (fun later member => registered later (List.mem_cons_of_mem _ member)),
        first, List.filter_cons]
      by_cases here : ids = record.blocks.map ComponentBlock.type
      · rw [if_pos here, if_pos (decide_eq_true here), List.map_cons,
          List.append_assoc, List.singleton_append]
      · rw [if_neg here, if_neg (by simpa using here)]

/-! ## The same bytes -/

/-- No component an entity has changes by being stored as it was encoded. -/
def FieldsAgree (registry : ComponentRegistry) (w : World) : Prop :=
  ∀ e, ∀ t ∈ w.getEntityComponentTypes e,
    (w.blockOf registry e (fun _ => []) t).FieldsAgree registry

/-- No component of a layout that fits does. -/
theorem fieldsAgree_of_laidOut
    (laid : ∀ schema ∈ registry.schemas, LaidOut schema.fields 0 schema.size)
    (w : World) : w.FieldsAgree registry :=
  fun _ _ _ => VortarisECS.fieldsAgree_of_laidOut fun schema registered =>
    laid schema (ComponentRegistry.mem_schemas_of_schemaOf registered)

/-- An instance that holds the stored block is saved as the block. -/
theorem blockOf_eq_of_stored
    {v : World} {t : ComponentTypeId} {schema : ComponentSchema}
    (registered : registry.schemaOf t = some schema) {inst : List UInt8}
    (found : w.getRaw e t = some inst)
    (agree : (w.blockOf registry e (fun _ => []) t).FieldsAgree registry)
    (stored : v.getRaw e t = some (writePatches (List.replicate schema.size 0)
      ((w.blockOf registry e (fun _ => []) t).patches schema))) :
    v.blockOf registry e (fun _ => []) t =
      w.blockOf registry e (fun _ => []) t := by
  have payload : (w.blockOf registry e (fun _ => []) t).payload =
      encodeFields schema.fields inst := by
    unfold blockOf
    rw [registered, found]
    exact congrArg (encodeFields · inst) (maskedFields_nil_mask _)
  have compatible := agree schema registered
  have patches : (w.blockOf registry e (fun _ => []) t).patches schema =
      fieldPatches schema.fields (encodeFields schema.fields inst) := by
    unfold ComponentBlock.patches
    rw [payload]
    exact congrArg (fieldPatches · _) (maskedFields_nil_mask _)
  rw [patches] at compatible stored
  rw [← List.length_replicate (n := schema.size) (a := (0 : UInt8))]
    at compatible
  have again := encodeFields_writePatches compatible
  unfold blockOf
  rw [registered, found, stored]
  dsimp only
  rw [maskedFields_nil_mask, again]

/-- Loading the save of one world into another and saving again. -/
def ResavesSame (registry : ComponentRegistry) (source target : World)
    (order : List Ptr) : Prop :=
  let saved := (serializeWorldSnapshot registry source order).data
  let loaded := deserializeWorldSnapshot registry target ⟨saved, 0⟩
  loaded.2 = true ∧
  ∀ order', SortedBySignature loaded.1.state.store order' →
    (serializeWorldSnapshot registry loaded.1.state order').data = saved

/-- The rows of a loaded world are those of the saved one. -/
theorem installRecords_savedRecords_rows
    {source target : World} (consistent : source.store.Consistent registry)
    (perm : order.Perm source.store.archetypeList)
    (awaits : target.Awaits registry (source.savedRecords registry order))
    (empty : ∀ ids, target.store.rows ids = []) (ids : List ComponentTypeId) :
    (Traced.forEach (installRecord registry) target
      (source.savedRecords registry order)).state.store.rows ids =
      source.store.rows ids := by
  have ascending : ∀ record ∈ source.savedRecords registry order,
      (record.blocks.map ComponentBlock.type).Pairwise (· < ·) := by
    intro record member
    obtain ⟨e, _, rfl⟩ := List.mem_map.mp member
    rw [savedRecord_types]
    exact getEntityComponentTypes_ascending consistent e
  have registered : ∀ record ∈ source.savedRecords registry order,
      ∀ block ∈ record.blocks, (registry.schemaOf block.type).isSome := by
    intro record member block inBlocks
    obtain ⟨e, _, rfl⟩ := List.mem_map.mp member
    exact savedRecord_registered consistent inBlocks
  have selects : ∀ e ∈ source.store.listing order,
      decide (ids = (source.savedRecord registry e).blocks.map
        ComponentBlock.type) =
      decide (source.store.typesOf e = some ids) := by
    intro e member
    have alive := (mem_listing_iff_isAlive consistent perm).mp member
    obtain ⟨loc, location⟩ := location_of_isAlive alive
    rw [savedRecord_types, getEntityComponentTypes, if_pos alive,
      ArchetypeStore.typesOf_of_location location, Option.getD_some,
      decide_eq_decide, Option.some.injEq]
    exact eq_comm
  rw [installRecords_rows awaits ascending registered, empty, List.nil_append,
    ← ArchetypeStore.listing_filter consistent perm]
  unfold savedRecords
  rw [List.filter_map, List.map_map]
  refine (List.map_id _).trans (List.filter_congr ?_)
  exact selects

/-- Where sets and stored instances are the same, so is the record. -/
theorem savedRecord_eq_of_loaded
    {loaded source : World} (consistent : source.store.Consistent registry)
    (agree : source.FieldsAgree registry)
    (types : loaded.getEntityComponentTypes e =
      source.getEntityComponentTypes e)
    (stored : ∀ t ∈ source.getEntityComponentTypes e, loaded.getRaw e t =
      (source.savedRecord registry e).components registry t) :
    loaded.savedRecord registry e = source.savedRecord registry e := by
  have once : ((source.savedRecord registry e).blocks.map
      ComponentBlock.type).Nodup := by
    rw [savedRecord_types]
    exact (getEntityComponentTypes_ascending consistent e).imp ne_of_lt
  have blocks : ∀ t ∈ source.getEntityComponentTypes e,
      loaded.blockOf registry e (fun _ => []) t =
        source.blockOf registry e (fun _ => []) t := by
    intro t member
    obtain ⟨schema, inst, registered, found⟩ :=
      getRaw_of_mem_types consistent member
    have inBlocks : source.blockOf registry e (fun _ => []) t ∈
        (source.savedRecord registry e).blocks := List.mem_map_of_mem member
    apply blockOf_eq_of_stored registered found (agree e t member)
    rw [stored t member]
    exact Components.receiveAll_of_mem _ once inBlocks registered
  unfold savedRecord recordOf
  rw [types, List.map_congr_left blocks]

/-- A save that the target can load is saved again byte for byte. -/
theorem resavesSame
    {source target : World} (consistent : source.store.Consistent registry)
    (sorted : SortedBySignature source.store order)
    (differ : source.store.SignaturesDiffer)
    (inRange : ∀ e, source.isAlive e = true → e.slot < maxPreassignedSlot)
    (small : source.store.entityLocations.size < 2 ^ 32)
    (counted : ∀ e, (source.getEntityComponentTypes e).length < 2 ^ 16)
    (agree : source.FieldsAgree registry)
    (inMemory : (serializeWorldSnapshot registry source order).data.length <
      sizeLimit)
    (stable : target.Stable registry) (idle : target.Idle) :
    ResavesSame registry source target order := by
  have parsed := parseSnapshot_savedWorld consistent sorted.perm counted inRange
    small
  obtain ⟨succeeds, stateEq, awaits, contentsEq⟩ :=
    deserializeWorldSnapshot_of_parsed stable idle inMemory parsed
  have admissible : Admissible (source.savedRecords registry order) [] :=
    (savedRecords_admissible_iff consistent sorted.perm).mpr inRange
  refine ⟨succeeds, fun order' sorted' => ?_⟩
  generalize (deserializeWorldSnapshot registry target
    ⟨(serializeWorldSnapshot registry source order).data, 0⟩).1.state =
    loaded at stateEq awaits contentsEq sorted' ⊢
  have loadedConsistent := awaits.stable.consistent
  have represented := represents_contents loadedConsistent
  rw [contentsEq] at represented
  have sameRows (ids : List ComponentTypeId) :
      loaded.store.rows ids = source.store.rows ids := by
    rw [stateEq]
    exact installRecords_savedRecords_rows consistent sorted.perm
      (clear_awaits stable idle admissible) (clear_rows stable idle.outside) ids
  have sameListing := ArchetypeStore.listing_eq_of_rows consistent
    loadedConsistent sorted sorted' differ sameRows
  have sameRecords : loaded.savedRecords registry order' =
      source.savedRecords registry order := by
    unfold savedRecords
    rw [sameListing]
    apply List.map_congr_left
    intro e member
    have alive := (mem_listing_iff_isAlive consistent sorted.perm).mp member
    have held := ofRecords_savedRecords consistent sorted.perm alive
    apply savedRecord_eq_of_loaded consistent agree
    · apply getEntityComponentTypes_ext loadedConsistent consistent
      intro t
      rw [represented.mem_types, held]
      exact savedRecord_components_isSome_iff consistent e t
    · intro t _
      rw [represented.getRaw, held]
      rfl
  rw [serializeWorldSnapshot_data loadedConsistent sorted'.perm,
    serializeWorldSnapshot_data consistent sorted.perm,
    entityCount_toNat_eq loadedConsistent sorted'.perm,
    entityCount_toNat_eq consistent sorted.perm, sameRecords]

end World
end VortarisECS
