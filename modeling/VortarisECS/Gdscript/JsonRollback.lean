import VortarisECS.Gdscript.DataRoundTrip

/-!
# Loads that fail

Before a loader replaces the world it writes the world as text, and when some
entry cannot be spawned it loads that text.  What comes back went through the
text: all entities or, when one of their ids did not survive, none.
-/

namespace VortarisECS

/-! ## The text of a world -/

/-- The id a text makes of an id. -/
def JsonText.readId (json : JsonText) (engine : Engine) (id : Int64) : Int64 :=
  engine.toInt (json.read (.int id))

/-- The fields a text makes of the fields of a component. -/
def JsonText.readFields (json : JsonText) (entries : List (Variant × Variant)) :
    List (Variant × Variant) :=
  json.arrange (json.readEntries entries)

namespace World

variable {engine : Engine} {registry : ComponentRegistry} {w : World}
variable {json : JsonText}

/-- What a loader reads in the text of a world. -/
def textRecords (engine : Engine) (registry : ComponentRegistry)
    (json : JsonText) (w : World) (order : List Ptr) : List DataRecord :=
  (w.store.listing order).map fun e => (w.dataRecord engine registry e).through
    (json.readId engine) json.readFields

/-- A dictionary with texts for keys, each of them once, stays one. -/
theorem read_dictionary
    (engine : Engine) (json : JsonText) (entries : List (String × Variant))
    (once : (entries.map Prod.fst).Nodup) :
    ∃ written, json.read (.dictionary (textEntries entries)) =
        .dictionary written ∧
      ∀ key, engine.lookup written (.string key) =
        (engine.lookup (textEntries entries) (.string key)).map json.read :=
  ⟨_, rfl, engine.lookup_read json once⟩

/-- What came through a text is read as a record that came through it. -/
theorem textEntry_reads
    (titled : ∀ t schema, registry.schemaOf t = some schema →
      registry.idOf schema.typeName = t)
    (consistent : w.store.Consistent registry) (e : Entity) :
    engine.Reads (json.read (w.dataEntry engine registry e))
      ((w.dataRecord engine registry e).through (json.readId engine)
        json.readFields) := by
  obtain ⟨edata, isDictionary, found⟩ := read_dictionary engine json
    [("id", .int e.id.toInt64), ("components", .dictionary (textEntries
      ((w.dataRecord engine registry e).components.map fun comp =>
        (comp.1, .dictionary comp.2))))]
    (show ["id", "components"].Nodup by decide)
  refine ⟨edata, congrArg Variant.dictionary? isDictionary, ?_, ?_, ?_⟩
  · rw [found, engine.lookup_textEntries]
    rfl
  · rw [found, engine.lookup_textEntries]
    rfl
  · have names := dataRecord_names engine titled consistent e
    have components : engine.lookup edata (.string "components") =
        some (.dictionary (json.arrange (json.readEntries (textEntries
          ((w.dataRecord engine registry e).components.map fun comp =>
            (comp.1, .dictionary comp.2)))))) := by
      rw [found, engine.lookup_textEntries]
      rfl
    refine Engine.entryComponents_perm (by
      unfold DataRecord.through
      rw [List.map_map]
      exact names) components
        ((json.arrange_perm _).trans (List.Perm.of_eq ?_))
    rw [JsonText.readEntries_textEntries]
    unfold DataRecord.through
    rw [List.map_map, List.map_map]
    rfl

/-- A loader reads the text of a world as its entries. -/
theorem snapshotEntities_text
    (titled : ∀ t schema, registry.schemaOf t = some schema →
      registry.idOf schema.typeName = t)
    (consistent : w.store.Consistent registry)
    {sort : ArchetypeStore → List Ptr}
    (perm : (sort w.store).Perm w.store.archetypeList)
    (rounds : json.Rounds engine)
    (readsBack : engine.ReadsBack json
      (w.serializeSnapshotJson engine registry sort)) :
    engine.snapshotEntities
        (.string (w.serializeSnapshotJsonString engine registry sort)) =
      some ((w.store.listing (sort w.store)).map fun e =>
        json.read (w.dataEntry engine registry e)) := by
  obtain ⟨root, isDictionary, found⟩ := read_dictionary engine json
    [("version", .int (Int64.ofNat snapshotVersion)),
      ("entities", .array (w.entitiesToData engine registry sort 0))]
    (show ["version", "entities"].Nodup by decide)
  have parsed : engine.parseSnapshotRoot
      (.string (w.serializeSnapshotJsonString engine registry sort)) =
      some root :=
    congrArg Variant.dictionary? (readsBack.trans isDictionary)
  unfold Engine.snapshotEntities
  rw [parsed]
  dsimp only
  rw [found, found, engine.lookup_textEntries, engine.lookup_textEntries]
  have version : (engine.toInt (json.read (.int
      (Int64.ofNat snapshotVersion))) != Int64.ofNat snapshotVersion) =
        false := by
    rw [show Int64.ofNat snapshotVersion = 1 from rfl, rounds.one,
      bne_self_eq_false]
  refine (if_neg ?_).trans ?_
  · exact Bool.eq_false_iff.mp version
  · change some (engine.toArray (.array (json.readItems
      (w.entitiesToData engine registry sort 0)))) = _
    rw [engine.toArray_array, JsonText.readItems_eq,
      entitiesToData_eq titled consistent perm, List.map_map]
    rfl

/-! ## What the text brings back -/

/-- The text of a world without entities. -/
def emptySnapshot : Variant :=
  .dictionary [(.string "version", .int (Int64.ofNat snapshotVersion)),
    (.string "entities", .array [])]

/-- An empty world lists nobody. -/
theorem listing_of_empty
    (consistent : w.store.Consistent registry) {order : List Ptr}
    (perm : order.Perm w.store.archetypeList)
    (empty : w.contents = fun _ => none) : w.store.listing order = [] := by
  refine List.eq_nil_iff_forall_not_mem.mpr fun e member => ?_
  have alive := (mem_listing_iff_isAlive consistent perm).mp member
  rw [← contents_isSome, empty] at alive
  exact absurd alive Bool.false_ne_true

/-- A call on the text of a world leaves what the text says if all of it can be
loaded, and nothing else if not. -/
theorem deserializeSnapshotJson_text
    (named : ∀ name, registry.idOf name ≠ invalidComponentType →
      (registry.schemaOf (registry.idOf name)).isSome)
    (titled : ∀ t schema, registry.schemaOf t = some schema →
      registry.idOf schema.typeName = t)
    (stable : w.Stable registry) {sort : ArchetypeStore → List Ptr}
    (perm : ∀ v : World, (sort v.store).Perm v.store.archetypeList)
    (rounds : json.Rounds engine)
    (readsBack : engine.ReadsBack json
      (w.serializeSnapshotJson engine registry sort))
    (readsEmpty : engine.ReadsBack json emptySnapshot)
    {v : World} (ready : v.Ready registry) (empty : v.contents = fun _ => none)
    (fuel : Nat) :
    let records := w.textRecords engine registry json (sort w.store)
    let after := (v.deserializeSnapshotJson engine registry sort (fuel + 2)
      (.string (w.serializeSnapshotJsonString engine registry sort))).1.state
    after.Ready registry ∧
    (Loadable records →
      after.contents.HoldsData engine registry records) ∧
    (¬Loadable records → after.contents = fun _ => none) := by
  have parsed := snapshotEntities_text titled stable.consistent (perm w) rounds
    readsBack
  have reads : List.Forall₂ engine.Reads
      ((w.store.listing (sort w.store)).map fun e =>
        json.read (w.dataEntry engine registry e))
      (w.textRecords engine registry json (sort w.store)) := by
    unfold textRecords
    rw [List.forall₂_map_left_iff, List.forall₂_map_right_iff,
      List.forall₂_same]
    exact fun e _ => textEntry_reads titled stable.consistent e
  have known : ∀ record ∈ w.textRecords engine registry json (sort w.store),
      record.Known registry := by
    unfold textRecords
    rw [List.forall_mem_map]
    exact fun e _ => (dataRecord_known engine titled stable.consistent
      e).through _ _
  intro records after
  by_cases loadable : Loadable records
  · obtain ⟨-, succeeds⟩ := deserializeSnapshotJson_reads named titled sort ready
      parsed reads known (fuel + 1)
    obtain ⟨afterReady, holds⟩ := succeeds loadable
    exact ⟨afterReady, fun _ => holds, fun refused => absurd loadable refused⟩
  · obtain ⟨cleared, emptied⟩ := ready.clear
    obtain ⟨complete, spawnedReady, -⟩ :=
      spawnFromData_reads named titled cleared emptied reads known
    obtain ⟨clearedAgain, -⟩ := spawnedReady.clear
    have noEntries := listing_of_empty ready.stable.consistent (perm v) empty
    have isEmpty : v.serializeSnapshotJson engine registry sort =
        emptySnapshot := by
      unfold serializeSnapshotJson emptySnapshot
      rw [entitiesToData_eq titled ready.stable.consistent (perm v), noEntries]
      rfl
    have parsedEmpty := snapshotEntities_text titled ready.stable.consistent
      (perm v) rounds (isEmpty ▸ readsEmpty)
    rw [noEntries, List.map_nil] at parsedEmpty
    obtain ⟨-, succeeds⟩ := deserializeSnapshotJson_reads named titled sort
      clearedAgain parsedEmpty List.Forall₂.nil
      (fun _ member => absurd member List.not_mem_nil) fuel
    obtain ⟨lastReady, holds⟩ := succeeds
      ⟨fun _ member => absurd member List.not_mem_nil, List.nodup_nil⟩
    have afterEq : after = ((v.clear.state.spawnFromData engine registry
        ((w.store.listing (sort w.store)).map fun e =>
          json.read (w.dataEntry engine registry e))).1.state.clear.state
            |>.deserializeSnapshotJson engine registry sort (fuel + 1) (.string
              (v.serializeSnapshotJsonString engine registry sort))).1.state := by
      change (v.deserializeSnapshotJson engine registry sort (fuel + 1 + 1)
        _).1.state = _
      rw [deserializeSnapshotJson, parsed]
      dsimp only
      rw [if_pos (complete.not.mpr loadable)]
      rfl
    rw [afterEq]
    exact ⟨lastReady, fun all => absurd all loadable, fun _ => funext fun x =>
      holds.elsewhere x fun _ member => absurd member List.not_mem_nil⟩

/-! ## When everything comes back -/

/-- The text keeps the ids of all entities, and they can be created again. -/
def KeepsIds (engine : Engine) (json : JsonText) (w : World) : Prop :=
  ∀ e, w.isAlive e = true →
    json.readId engine e.id.toInt64 = e.id.toInt64 ∧
      0 < e.id.toInt64 ∧ e.slot < maxPreassignedSlot

/-- What is kept can be loaded. -/
theorem KeepsIds.loadable
    (keeps : w.KeepsIds engine json) (stable : w.Stable registry)
    {order : List Ptr} (perm : order.Perm w.store.archetypeList) :
    Loadable (w.textRecords engine registry json order) := by
  obtain ⟨creatable, once⟩ := (loadable_iff engine stable perm).mpr
    fun e alive => (keeps e alive).2
  have sameId : ∀ e ∈ w.store.listing order,
      ((w.dataRecord engine registry e).through (json.readId engine)
        json.readFields).id = (w.dataRecord engine registry e).id :=
    fun e member =>
      (keeps e ((mem_listing_iff_isAlive stable.consistent perm).mp member)).1
  constructor
  · unfold textRecords
    rw [List.forall_mem_map] at creatable ⊢
    intro e member
    unfold DataRecord.Creatable
    rw [sameId e member]
    exact creatable e member
  · convert once using 1
    unfold textRecords
    rw [List.map_map, List.map_map]
    refine List.map_congr_left fun e member => ?_
    dsimp only [Function.comp_apply]
    unfold DataRecord.entity
    rw [sameId e member]

/-- A world that comes back from a text with the same entities kept its ids. -/
theorem keepsIds_of_holdsData
    (stable : w.Stable registry) {order : List Ptr}
    (perm : order.Perm w.store.archetypeList) (rounds : json.Rounds engine)
    (loadable : Loadable (w.textRecords engine registry json order))
    {v : World} (holds : v.contents.HoldsData engine registry
      (w.textRecords engine registry json order))
    (same : ∀ e, v.isAlive e = w.isAlive e) : w.KeepsIds engine json := by
  have listed := fun e =>
    mem_listing_iff_isAlive (e := e) stable.consistent perm
  let record (e : Entity) : DataRecord := (w.dataRecord engine registry e).through
    (json.readId engine) json.readFields
  obtain ⟨creatable, once⟩ := loadable
  unfold textRecords at creatable once holds
  rw [List.forall_mem_map] at creatable
  rw [List.map_map] at once
  -- What the text makes of an id is the id of an entity, and is kept.
  have renamed : ∀ e, w.isAlive e = true →
      w.isAlive (record e).entity = true := by
    intro e alive
    have own := holds.own _ (List.mem_map_of_mem ((listed e).mpr alive))
    rw [← same, ← contents_isSome]
    exact Option.isSome_iff_exists.mpr ⟨_, own⟩
  have again : ∀ e, (record (record e).entity).entity = (record e).entity := by
    intro e
    have twice := rounds.again e.id.toInt64
    refine congrArg (fun id : Int64 => (⟨id.toUInt64⟩ : Entity)) ?_
    change json.readId engine (json.readId engine
      e.id.toInt64).toUInt64.toInt64 = json.readId engine e.id.toInt64
    rw [Int64.toInt64_toUInt64]
    exact twice
  intro e alive
  have isSelf : (record e).entity = e :=
    List.inj_on_of_nodup_map once ((listed _).mpr (renamed e alive))
      ((listed e).mpr alive) (again e)
  have sameId : json.readId engine e.id.toInt64 = e.id.toInt64 := by
    have ids := congrArg (fun x : Entity => x.id.toInt64) isSelf
    exact (Int64.toInt64_toUInt64 _).symm.trans ids
  have accepted := creatable e ((listed e).mpr alive)
  change 0 < json.readId engine e.id.toInt64 ∧
    idRefused (json.readId engine e.id.toInt64).toUInt64 = false at accepted
  rw [sameId, UInt64.toUInt64_toInt64, idRefused_eq_false_iff] at accepted
  exact ⟨sameId, accepted⟩

/-- A world is loaded from its own text exactly if ids and values survive it. -/
theorem sameData_text_iff
    (named : ∀ name, registry.idOf name ≠ invalidComponentType →
      (registry.schemaOf (registry.idOf name)).isSome)
    (titled : ∀ t schema, registry.schemaOf t = some schema →
      registry.idOf schema.typeName = t)
    (stable : w.Stable registry) {sort : ArchetypeStore → List Ptr}
    (perm : ∀ v : World, (sort v.store).Perm v.store.archetypeList)
    (rounds : json.Rounds engine)
    (readsBack : engine.ReadsBack json
      (w.serializeSnapshotJson engine registry sort))
    (readsEmpty : engine.ReadsBack json emptySnapshot)
    {v : World} (ready : v.Ready registry) (empty : v.contents = fun _ => none)
    (fuel : Nat) :
    w.SameData registry (v.deserializeSnapshotJson engine registry sort
        (fuel + 2) (.string
          (w.serializeSnapshotJsonString engine registry sort))).1.state ↔
      w.KeepsIds engine json ∧ w.Reloads engine registry json.readFields := by
  obtain ⟨afterReady, holds, emptied⟩ := deserializeSnapshotJson_text named titled
    stable perm rounds readsBack readsEmpty ready empty fuel
  generalize (v.deserializeSnapshotJson engine registry sort (fuel + 2)
    (.string (w.serializeSnapshotJsonString engine registry sort))).1.state =
      after at afterReady holds emptied
  have comesBack : Loadable (w.textRecords engine registry json
      (sort w.store)) → w.KeepsIds engine json →
      (w.SameData registry after ↔
        w.Reloads engine registry json.readFields) :=
    fun loadable keeps => sameData_iff_reloads stable afterReady.stable
      (contents_of_holdsData titled stable (perm w) (json.readId engine)
        (fun e alive => (keeps e alive).1) (holds loadable))
  constructor
  · intro same
    by_cases loadable : Loadable (w.textRecords engine registry json
        (sort w.store))
    · have keeps := keepsIds_of_holdsData stable (perm w) rounds loadable
        (holds loadable) same.alive
      exact ⟨keeps, (comesBack loadable keeps).mp same⟩
    · have dead : ∀ e, w.isAlive e = false := by
        intro e
        rw [← same.alive, ← contents_isSome, emptied loadable]
        rfl
      refine ⟨fun e alive => ?_, fun e t schema raw _ found => ?_⟩
      · rw [dead e] at alive
        exact absurd alive Bool.false_ne_true
      · rw [(represents_contents stable.consistent).getRaw,
          contents_of_dead (dead e)] at found
        exact absurd found (Option.some_ne_none raw).symm
  · rintro ⟨keeps, reloads⟩
    exact (comesBack (keeps.loadable stable (perm w)) keeps).mpr reloads

/-- After a batch, a world is in no iteration or window if it was in none
before. -/
theorem spawnFromData_ready
    (named : ∀ name, registry.idOf name ≠ invalidComponentType →
      (registry.schemaOf (registry.idOf name)).isSome)
    (titled : ∀ t schema, registry.schemaOf t = some schema →
      registry.idOf schema.typeName = t)
    (ready : w.Ready registry) {entries : List Variant}
    (issuesDead : Traced.Accepted Effect.IssuesDead
      (w.spawnFromDataImpl engine registry entries)) :
    (w.spawnFromData engine registry entries).1.state.Ready registry := by
  obtain ⟨-, -, stable, spawned, batched, control, -⟩ :=
    spawnFromDataImpl_spec named titled ready.stable ready.listed issuesDead
  obtain ⟨deferEq, iterationEq, -, -⟩ := inIteration_of_control control
  exact ⟨stable, listed_of_control batched.listed control,
    deferEq.trans (batched.deferMoves.trans ready.immediate),
    iterationEq.trans (batched.inIteration.trans ready.outside)⟩

/-- Spawn the entries in place of the world, and then load its text. -/
def rollBack (engine : Engine) (registry : ComponentRegistry)
    (sort : ArchetypeStore → List Ptr) (fuel : Nat) (w : World)
    (entries : List Variant) : Traced Effect World :=
  (w.clear.andThen fun v => (v.spawnFromData engine registry entries).1).andThen
    fun v => v.clear.andThen fun u =>
      (u.deserializeSnapshotJson engine registry sort fuel
        (.string (w.serializeSnapshotJsonString engine registry sort))).1

/-- A load that fails after it cleared the world is rolled back. -/
theorem deserializeSnapshotJson_failed
    {sort : ArchetypeStore → List Ptr} {data : Variant} {entries : List Variant}
    (parsed : engine.snapshotEntities data = some entries) {fuel : Nat}
    (failed : (w.deserializeSnapshotJson engine registry sort (fuel + 1)
      data).2 = false) :
    (w.deserializeSnapshotJson engine registry sort (fuel + 1) data).1 =
      w.rollBack engine registry sort fuel entries := by
  rw [deserializeSnapshotJson, parsed] at failed ⊢
  dsimp only at failed ⊢
  split
  · rfl
  · rename_i complete
    rw [if_neg complete] at failed
    exact absurd failed Bool.true_eq_false_eq_False

/-- So is a mapped one. -/
theorem deserializeSnapshotJsonMapped_failed
    {sort : ArchetypeStore → List Ptr} {data : Variant} {entries : List Variant}
    (parsed : engine.snapshotEntities data = some entries)
    (nonempty : entries ≠ []) {fuel : Nat}
    (failed : (w.deserializeSnapshotJsonMapped engine registry sort fuel
      data).2 = []) :
    (w.deserializeSnapshotJsonMapped engine registry sort fuel data).1 =
      w.rollBack engine registry sort fuel entries := by
  rw [deserializeSnapshotJsonMapped, parsed] at failed ⊢
  dsimp only at failed ⊢
  split
  · rfl
  · rename_i complete
    rw [if_neg complete] at failed
    dsimp only at failed
    rw [failed, List.length_nil, not_not] at complete
    exact absurd (List.eq_nil_of_length_eq_zero complete.symm) nonempty

/-- A rollback restores the world exactly if ids and values survive the text. -/
theorem sameData_rollBack_iff
    (named : ∀ name, registry.idOf name ≠ invalidComponentType →
      (registry.schemaOf (registry.idOf name)).isSome)
    (titled : ∀ t schema, registry.schemaOf t = some schema →
      registry.idOf schema.typeName = t)
    (ready : w.Ready registry) {sort : ArchetypeStore → List Ptr}
    (perm : ∀ v : World, (sort v.store).Perm v.store.archetypeList)
    (rounds : json.Rounds engine)
    (readsBack : engine.ReadsBack json
      (w.serializeSnapshotJson engine registry sort))
    (readsEmpty : engine.ReadsBack json emptySnapshot)
    {entries : List Variant} {fuel : Nat}
    (issuesDead : Traced.Accepted Effect.IssuesDead
      (w.rollBack engine registry sort (fuel + 2) entries)) :
    w.SameData registry
        (w.rollBack engine registry sort (fuel + 2) entries).state ↔
      w.KeepsIds engine json ∧ w.Reloads engine registry json.readFields := by
  have spawnIssuesDead := ((Traced.accepted_andThen _ _ _).mp
    ((Traced.accepted_andThen _ _ _).mp issuesDead).1).2
  have spawned : (w.clear.state.spawnFromData engine registry
      entries).1.state.Ready registry :=
    spawnFromData_ready named titled ready.clear.1 spawnIssuesDead
  exact sameData_text_iff named titled ready.stable perm rounds readsBack
    readsEmpty spawned.clear.1 spawned.clear.2 fuel

/-- A world has its own data. -/
theorem SameData.refl (registry : ComponentRegistry) (w : World) :
    w.SameData registry w where
  alive _ := rfl
  types _ := rfl
  values _ _ _ raw _ found := ⟨raw, found, fun _ _ => rfl⟩

/-- A loader that fails brings the world from before back exactly when it
refused the data at once, or every id and every value survives the text. -/
theorem deserializeSnapshotJson_restores_iff
    (engine : Engine) (schemas : List ComponentSchema) (json : JsonText)
    (sort : ArchetypeStore → List Ptr) (ops : List ModeOp) (data : Variant)
    (fuel : Nat) :
    let registry := ComponentRegistry.ofSchemas schemas
    let w := (ModeOp.run registry ops).state
    let loaded := w.deserializeSnapshotJson engine registry sort (fuel + 3) data
    let mapped :=
      w.deserializeSnapshotJsonMapped engine registry sort (fuel + 2) data
    Traced.Accepted Effect.IssuesDead (ModeOp.run registry ops) →
    w.deferMoves = false → w.inIteration = false →
    (∀ v : World, (sort v.store).Perm v.store.archetypeList) →
    json.Rounds engine →
    engine.ReadsBack json (w.serializeSnapshotJson engine registry sort) →
    engine.ReadsBack json emptySnapshot →
    let restores := engine.snapshotEntities data = none ∨
      (w.KeepsIds engine json ∧ w.Reloads engine registry json.readFields)
    (loaded.2 = false → Traced.Accepted Effect.IssuesDead loaded.1 →
      (w.SameData registry loaded.1.state ↔ restores)) ∧
    (mapped.2 = [] → engine.snapshotEntities data ≠ some [] →
      Traced.Accepted Effect.IssuesDead mapped.1 →
      (w.SameData registry mapped.1.state ↔ restores)) := by
  intro registry w loaded mapped issuesDead immediate outside perm rounds
    readsBack readsEmpty restores
  have titled : ∀ t schema, registry.schemaOf t = some schema →
      registry.idOf schema.typeName = t :=
    fun t schema registered => ComponentRegistry.idOf_typeName registered
  have named : ∀ name, registry.idOf name ≠ invalidComponentType →
      (registry.schemaOf (registry.idOf name)).isSome :=
    fun name hasId => ComponentRegistry.schemaOf_idOf_isSome hasId
  have ready : w.Ready registry := ⟨ModeOp.run_stable issuesDead,
    ModeOp.run_listed registry ops, immediate, outside⟩
  cases parsed : engine.snapshotEntities data with
  | none =>
      have nothing : loaded.1 = .pure w ∧ mapped.1 = .pure w := by
        constructor
        · change (w.deserializeSnapshotJson engine registry sort (fuel + 2 + 1)
            data).1 = _
          rw [deserializeSnapshotJson, parsed]
        · change (w.deserializeSnapshotJsonMapped engine registry sort _
            data).1 = _
          rw [deserializeSnapshotJsonMapped, parsed]
      have refused : restores := Or.inl parsed
      rw [nothing.1, nothing.2]
      exact ⟨fun _ _ => iff_of_true (.refl registry w) refused,
        fun _ _ _ => iff_of_true (.refl registry w) refused⟩
  | some entries =>
      have accepted : restores ↔ w.KeepsIds engine json ∧
          w.Reloads engine registry json.readFields :=
        or_iff_right (by rw [parsed]; exact Option.some_ne_none entries)
      rw [accepted]
      constructor
      · intro failed loadedIssuesDead
        have rollsBack := deserializeSnapshotJson_failed parsed failed
        change loaded.1 = _ at rollsBack
        rw [rollsBack] at loadedIssuesDead ⊢
        exact sameData_rollBack_iff named titled ready perm rounds readsBack
          readsEmpty loadedIssuesDead
      · intro failed nonempty mappedIssuesDead
        have rollsBack := deserializeSnapshotJsonMapped_failed parsed
          (fun none => nonempty (congrArg some none)) failed
        change mapped.1 = _ at rollsBack
        rw [rollsBack] at mappedIssuesDead ⊢
        exact sameData_rollBack_iff named titled ready perm rounds readsBack
          readsEmpty mappedIssuesDead

/-! ## A node -/

/-- The doubles of one and seven, and the text of whole numbers up to seven. -/
def nodeText : JsonText where
  number
    | .int value =>
        if value = 1 then 0x3FF0000000000000
        else if value = 7 then 0x401C000000000000
        else 0
    | _ => 0
  text _ := ""
  arrange := List.reverse
  arrange_perm := List.reverse_perm

/-- An engine that knows the texts of no entity and of a node. -/
def nodeEngine : Engine :=
  { Engine.singlePrecision with
    toInt
      | .int value => value
      | .float bits =>
          if bits = 0x3FF0000000000000 then 1
          else if bits = 0x401C000000000000 then 7
          else 0
      | _ => 0
    stringify
      | .dictionary [_, (_, .array [])] =>
          "\x7b\"entities\":[],\"version\":1\x7d"
      | .dictionary [_, (_, .array [_])] =>
          "\x7b\"entities\":[\x7b\"components\":\x7b\"Node\":\x7b\"parent\":7" ++
            "\x7d\x7d,\"id\":1\x7d],\"version\":1\x7d"
      | _ => ""
    parseString text :=
      if text = "\x7b\"entities\":[],\"version\":1\x7d" then
        .dictionary [(.string "entities", .array []),
          (.string "version", .float 0x3FF0000000000000)]
      else
        .dictionary [(.string "entities", .array [.dictionary [
          (.string "components", .dictionary [(.string "Node",
            .dictionary [(.string "parent", .float 0x401C000000000000)])]),
          (.string "id", .float 0x3FF0000000000000)]]),
          (.string "version", .float 0x3FF0000000000000)]
    toInt_int := fun _ => rfl }

/-- The ids that survive the text of nodes. -/
theorem nodeText_readId (n : Int64) :
    nodeText.readId nodeEngine n =
      if n = 1 then 1 else if n = 7 then 7 else 0 := by
  change nodeEngine.toInt (.float (if n = 1 then _ else if n = 7 then _ else _))
    = _
  split
  · rfl
  · split <;> rfl

/-- Numbers survive it at the second time. -/
theorem nodeText_rounds : nodeText.Rounds nodeEngine where
  one := nodeText_readId 1
  again n := by
    change nodeText.readId nodeEngine (nodeText.readId nodeEngine n) =
      nodeText.readId nodeEngine n
    rw [nodeText_readId n]
    split
    · rfl
    · split <;> rfl

/-- What is saved of a node. -/
def nodeSnapshot : Variant :=
  .dictionary [(.string "version", .int 1), (.string "entities", .array
    [.dictionary [(.string "id", .int 1), (.string "components", .dictionary
      [(.string "Node", .dictionary [(.string "parent", .int 7)])])]])]

/-- The saved node. -/
theorem serializeSnapshotJson_node :
    (ModeOp.run (ComponentRegistry.ofSchemas nodeRegistry.schemas)
      nodeOps).state.serializeSnapshotJson nodeEngine
        (ComponentRegistry.ofSchemas nodeRegistry.schemas)
        ArchetypeStore.archetypeList = nodeSnapshot := by
  generalize isRegistry : ComponentRegistry.ofSchemas nodeRegistry.schemas =
    registry
  have stable : (ModeOp.run registry nodeOps).state.Stable registry := by
    rw [← isRegistry]
    exact ModeOp.run_stable (by decide +kernel)
  have listing : (ModeOp.run registry nodeOps).state.store.listing
      (ModeOp.run registry nodeOps).state.store.archetypeList = [⟨1⟩] := by
    rw [← isRegistry]
    decide +kernel
  have types : (ModeOp.run registry nodeOps).state.getEntityComponentTypes
      ⟨1⟩ = [1] := by
    rw [← isRegistry]
    decide +kernel
  have raw : (ModeOp.run registry nodeOps).state.getRaw ⟨1⟩ 1 =
      some [7, 0, 0, 0, 0, 0, 0, 0] := by
    rw [← isRegistry]
    decide +kernel
  have isNode : registry.schemaOf 1 = some nodeSchema := by
    rw [← isRegistry]
    exact schemaOf_node
  have titled : ∀ t schema, registry.schemaOf t = some schema →
      registry.idOf schema.typeName = t := by
    rw [← isRegistry]
    exact fun t schema registered => ComponentRegistry.idOf_typeName registered
  unfold serializeSnapshotJson
  rw [entitiesToData_eq titled stable.consistent (List.Perm.refl _), listing,
    List.map_singleton]
  unfold dataEntry dataRecord fieldsOf ComponentRegistry.nameOf
  rw [types, List.map_singleton, isNode, raw]
  rfl

/-- Its text is read back. -/
theorem nodeEngine_readsBack :
    nodeEngine.ReadsBack nodeText nodeSnapshot := rfl

/-- Data that is no save leaves a node as it was. -/
theorem deserializeSnapshotJson_restores_node :
    let registry := ComponentRegistry.ofSchemas nodeRegistry.schemas
    let w := (ModeOp.run registry nodeOps).state
    let data := Variant.dictionary [(.string "entities", .array [.nil])]
    w.SameData registry (w.deserializeSnapshotJson nodeEngine registry
        ArchetypeStore.archetypeList (0 + 3) data).1.state ∧
    w.SameData registry (w.deserializeSnapshotJsonMapped nodeEngine registry
        ArchetypeStore.archetypeList (0 + 2) data).1.state := by
  have restores := deserializeSnapshotJson_restores_iff nodeEngine
    nodeRegistry.schemas nodeText ArchetypeStore.archetypeList nodeOps
    (Variant.dictionary [(.string "entities", .array [.nil])]) 0
    (by decide +kernel) (by decide +kernel) (by decide +kernel)
    (fun _ => List.Perm.refl _)
    nodeText_rounds (serializeSnapshotJson_node ▸ nodeEngine_readsBack) rfl
  have parsed : nodeEngine.snapshotEntities (.dictionary
      [(.string "entities", .array [.nil])]) = some [.nil] := rfl
  have keeps : (ModeOp.run (ComponentRegistry.ofSchemas nodeRegistry.schemas)
      nodeOps).state.KeepsIds nodeEngine nodeText := by
    intro e alive
    rw [isAlive_node alive, nodeText_readId]
    decide
  have reloads : (ModeOp.run (ComponentRegistry.ofSchemas nodeRegistry.schemas)
      nodeOps).state.Reloads nodeEngine (ComponentRegistry.ofSchemas
        nodeRegistry.schemas) nodeText.readFields := by
    intro e t schema raw _ found fd _
    obtain ⟨rfl, rfl, rfl⟩ := getRaw_node found
    unfold reloaded
    rw [schemaOf_node]
    rfl
  exact ⟨(restores.1 (by decide +kernel) (by decide +kernel)).mpr
      (Or.inr ⟨keeps, reloads⟩),
    (restores.2 (List.isEmpty_iff.mp (by decide +kernel))
      (by rw [parsed]; simp) (by decide +kernel)).mpr (Or.inr ⟨keeps, reloads⟩)⟩

end World
end VortarisECS
