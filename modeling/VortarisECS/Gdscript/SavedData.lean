import VortarisECS.Core.Reports
import VortarisECS.Gdscript.AutoParenting
import VortarisECS.Gdscript.JsonSnapshot

/-!
# Entries of a save

The entries of a save name an id and components.  A loader spawns all of them
exactly when every id can be created and no id comes twice; the world then holds
what the entries say and nothing else.
-/

namespace VortarisECS

/-- What an entry of a save says. -/
structure DataRecord where
  id : Int64
  components : NamedComponents

/-- The entity of the entry. -/
def DataRecord.entity (record : DataRecord) : Entity := ⟨record.id.toUInt64⟩

/-- The id is one that `create_entity_preassigned` can create. -/
def DataRecord.Creatable (record : DataRecord) : Prop :=
  0 < record.id ∧ idRefused record.id.toUInt64 = false

/-- The loader reads this from the entry, in an order of its own, and no
parent. -/
def Engine.Reads (engine : Engine) (entry : Variant) (record : DataRecord) :
    Prop :=
  ∃ edata, entry.dictionary? = some edata ∧
    (engine.lookup edata (.string "id")).map engine.toInt = some record.id ∧
    engine.lookup edata (.string "parent") = none ∧
    (engine.entryComponents edata).Perm record.components

/-- The components are all registered, each of them once. -/
structure DataRecord.Known (registry : ComponentRegistry)
    (record : DataRecord) : Prop where
  valid : ∀ comp ∈ record.components,
    registry.idOf comp.1 ≠ invalidComponentType
  once : (record.components.map fun comp => registry.idOf comp.1).Nodup

/-- All entries can be spawned. -/
def Ids.Respawns (ids : Ids) (records : List DataRecord) : Prop :=
  (∀ record ∈ records, record.Creatable ∧ ids.live record.entity = false) ∧
    (records.map DataRecord.entity).Nodup

/-- Every id can be created, and none comes twice. -/
def Loadable (records : List DataRecord) : Prop :=
  (∀ record ∈ records, record.Creatable) ∧
    (records.map DataRecord.entity).Nodup

/-- There is what the entries say and nothing else. -/
structure Contents.HoldsData (engine : Engine) (registry : ComponentRegistry)
    (records : List DataRecord) (contents : Contents) : Prop where
  own : ∀ record ∈ records, contents record.entity =
    some (World.givenComponents engine registry record.components)
  elsewhere : ∀ x, (∀ record ∈ records, record.entity ≠ x) → contents x = none

/-! ## Which entries are spawned -/

namespace Ids

variable {engine : Engine} {registry : ComponentRegistry} {ids : Ids}
variable {entry : Variant} {record : DataRecord}

/-- An id that cannot be created, or is taken, is refused. -/
theorem spawn_refused
    (inIteration : Bool) (reads : engine.Reads entry record)
    (refused : ¬(record.Creatable ∧ ids.live record.entity = false)) :
    (ids.spawn engine registry inIteration entry).2 = none := by
  obtain ⟨edata, isEntry, isId, -, -⟩ := reads
  have notCreated : (ids.create (some record.id)).2 = none := by
    unfold create
    dsimp only
    split
    · rfl
    · rename_i accepted
      obtain ⟨positive, notRefused⟩ := not_or.mp accepted
      have creatable : record.Creatable :=
        ⟨Int64.not_le.mp positive, Bool.eq_false_iff.mpr notRefused⟩
      rw [if_pos (Bool.not_eq_false _ ▸ fun dead => refused ⟨creatable, dead⟩)]
  unfold spawn
  rw [isEntry]
  dsimp only
  rw [isId]
  split
  · rfl
  · rename_i created
    rw [created] at notCreated
    exact absurd notCreated (by simp)

/-- A free id is created. -/
theorem spawn_creatable
    (inIteration : Bool) (reads : engine.Reads entry record)
    (known : record.Known registry) (creatable : record.Creatable)
    (dead : ids.live record.entity = false) :
    ids.spawn engine registry inIteration entry =
      (ids.bear (ids.slots.adopt record.entity) record.entity,
        some record.entity) := by
  obtain ⟨edata, isEntry, isId, -, isComponents⟩ := reads
  have created : ids.create (some record.id) =
      (ids.bear (ids.slots.adopt record.entity) record.entity,
        some record.entity) := by
    have accepted : ¬(record.id ≤ 0 ∨ idRefused record.id.toUInt64 = true) := by
      rintro (negative | refused)
      · exact absurd creatable.1 (Int64.not_lt.mpr negative)
      · exact absurd refused (Bool.eq_false_iff.mp creatable.2)
    unfold create
    dsimp only
    rw [if_neg accepted]
    exact if_neg (Bool.eq_false_iff.mp dead)
  unfold spawn
  rw [isEntry]
  dsimp only
  rw [isId, created]
  dsimp only
  rw [if_neg]
  rintro ⟨comp, member, unknown⟩
  exact known.valid comp (isComponents.mem_iff.mp member) unknown

/-- Records respawn one after the other. -/
theorem respawns_cons (later : List DataRecord) :
    ids.Respawns (record :: later) ↔
      (record.Creatable ∧ ids.live record.entity = false) ∧
        (ids.bear (ids.slots.adopt record.entity) record.entity).Respawns
          later := by
  unfold Respawns bear
  dsimp only
  rw [List.forall_mem_cons, List.map_cons, List.nodup_cons]
  have apart : (∀ other ∈ later, Function.update ids.live record.entity true
        other.entity = false) ↔
      record.entity ∉ later.map DataRecord.entity ∧
        ∀ other ∈ later, ids.live other.entity = false := by
    rw [List.mem_map, not_exists, ← forall_and]
    refine forall_congr' fun other => ?_
    rw [Function.update_apply, not_and, ← imp_and]
    refine imp_congr_right fun _ => ?_
    by_cases same : other.entity = record.entity
    · simp [same]
    · simp [same]
  simp only [forall_and] at apart ⊢
  tauto

/-- All entries are spawned exactly when their ids can be created. -/
theorem plan_reads
    (ids : Ids) (inIteration : Bool) {entries : List (Variant × Nat)}
    {records : List DataRecord}
    (reads : List.Forall₂ (fun indexed record => engine.Reads indexed.1 record)
      entries records)
    (known : ∀ record ∈ records, record.Known registry) :
    ((ids.plan engine registry inIteration entries).length = entries.length ↔
      ids.Respawns records) ∧
    (ids.Respawns records → ids.plan engine registry inIteration entries =
      (entries.zip records).map fun pair => ⟨pair.1, pair.2.entity⟩) := by
  induction reads generalizing ids with
  | nil => simp [plan, Respawns]
  | @cons indexed record entries records read _ inductionHypothesis =>
      rw [List.forall_mem_cons] at known
      rw [respawns_cons]
      unfold plan
      dsimp only
      by_cases spawns : record.Creatable ∧ ids.live record.entity = false
      · obtain ⟨sameLength, sameEntries⟩ := inductionHypothesis
          (ids.bear (ids.slots.adopt record.entity) record.entity) known.2
        rw [spawn_creatable inIteration read known.1 spawns.1 spawns.2]
        dsimp only [Option.map_some, Option.toList_some]
        rw [List.singleton_append, List.length_cons, List.length_cons,
          List.zip_cons_cons, List.map_cons, Nat.succ_inj, sameLength,
          and_iff_right spawns]
        exact ⟨Iff.rfl, fun respawns => congrArg _ (sameEntries respawns)⟩
      · have shorter : ((ids.spawn engine registry inIteration
            indexed.1).1.plan engine registry inIteration entries).length ≤
              entries.length := World.length_plan _ _ _
        rw [spawn_refused inIteration read spawns]
        refine ⟨iff_of_false ?_ fun both => spawns both.1,
          fun both => absurd both.1 spawns⟩
        rw [Option.map_none, Option.toList_none, List.nil_append,
          List.length_cons]
        omega

/-- Into no entities records respawn exactly if they can be loaded. -/
theorem respawns_iff_loadable
    {records : List DataRecord} (empty : ∀ e, ids.live e = false) :
    ids.Respawns records ↔ Loadable records := by
  simp only [Respawns, Loadable, empty, and_true]

end Ids

/-! ## What they leave -/

namespace World

variable {engine : Engine} {registry : ComponentRegistry}

variable (engine) in
/-- A component that is named is given its bytes. -/
theorem givenComponents_of_mem
    {components : NamedComponents}
    (once : (components.map fun comp => registry.idOf comp.1).Nodup)
    {comp : String × List (Variant × Variant)} (member : comp ∈ components) :
    givenComponents engine registry components (registry.idOf comp.1) =
      some (givenBytes engine registry comp.1 comp.2) := by
  unfold givenComponents putGiven
  induction components using List.reverseRecOn with
  | nil => exact absurd member List.not_mem_nil
  | append_singleton components last inductionHypothesis =>
      rw [List.map_append, List.nodup_append] at once
      rw [List.foldl_append]
      unfold Components.put
      dsimp only [List.foldl_cons, List.foldl_nil]
      obtain member | isLast := List.mem_append.mp member
      · have other : registry.idOf comp.1 ≠ registry.idOf last.1 :=
          once.2.2 _ (List.mem_map_of_mem member) _ List.mem_cons_self
        rw [if_neg other]
        exact inductionHypothesis once.1 member
      · rw [List.mem_singleton.mp isLast, if_pos rfl]

/-- The order in which different components are given does not matter. -/
theorem givenComponents_perm
    {components given : NamedComponents}
    (once : (components.map fun comp => registry.idOf comp.1).Nodup)
    (perm : given.Perm components) :
    givenComponents engine registry given =
      givenComponents engine registry components := by
  have givenOnce : (given.map fun comp => registry.idOf comp.1).Nodup :=
    (perm.map _).nodup_iff.mpr once
  funext t
  by_cases isGiven : ∃ comp ∈ components, registry.idOf comp.1 = t
  · obtain ⟨comp, member, rfl⟩ := isGiven
    rw [givenComponents_of_mem engine once member,
      givenComponents_of_mem engine givenOnce (perm.mem_iff.mpr member)]
  · simp only [not_exists, not_and] at isGiven
    rw [(givenComponents_eq_none_iff components t).mpr isGiven]
    exact (givenComponents_eq_none_iff given t).mpr fun comp member =>
      isGiven comp (perm.mem_iff.mp member)

end World

/-- An entry that is read has no parent. -/
theorem Engine.parentOf_reads
    {engine : Engine} {entry : Variant} {record : DataRecord}
    (reads : engine.Reads entry record) (mapping : List (Variant × Variant)) :
    engine.parentOf mapping entry = none := by
  obtain ⟨edata, isEntry, -, orphan, -⟩ := reads
  unfold parentOf
  rw [isEntry, Option.bind_some, orphan, Option.bind_none]

namespace World

variable {engine : Engine} {registry : ComponentRegistry} {w : World}
variable {entry : Variant} {record : DataRecord}

variable (registry) in
/-- An entry with an id issues none. -/
theorem spawnEntry_issuesDead
    (reads : engine.Reads entry record) (w : World) :
    Traced.Accepted Effect.IssuesDead
      (w.spawnEntry engine registry entry).1 := by
  obtain ⟨edata, isEntry, isId, -, -⟩ := reads
  obtain ⟨id, hasId, -⟩ := Option.map_eq_some_iff.mp isId
  have createdIssuesDead : Traced.Accepted Effect.IssuesDead
      (w.createForEntry engine edata).1 := by
    unfold createForEntry createEntityPreassignedRef
    rw [hasId]
    dsimp only
    split
    · exact Traced.accepted_pure _ _
    · exact createEntityPreassigned_issuesDead w _
  have addsIssueDead : ∀ (v : World) e components,
      Traced.Accepted Effect.IssuesDead
        (v.addComponents engine registry e components) := by
    intro v e components
    refine forEach_accepted (fun comp _ u => ?_) v
    unfold addComponent
    dsimp only
    split
    · exact Traced.accepted_pure _ _
    · split
      · exact Traced.accepted_pure _ _
      · split
        · exact Traced.accepted_pure _ _
        · exact (addRaw_createsNothing u e _ _).imp fun _ notCreation =>
            notCreation.issuesDead
  unfold spawnEntry
  rw [isEntry]
  dsimp only
  cases creation : w.createForEntry engine edata with
  | mk created handle =>
  rw [creation] at createdIssuesDead
  cases handle with
  | none => exact createdIssuesDead
  | some e =>
      dsimp only
      split
      · exact (Traced.accepted_andThen _ _ _).mpr ⟨createdIssuesDead,
          (destroyEntity_createsNothing _ e).imp fun _ notCreation =>
            notCreation.issuesDead⟩
      · exact (Traced.accepted_andThen _ _ _).mpr
          ⟨createdIssuesDead, addsIssueDead _ e _⟩

/-- Entries that are read hand out no live id. -/
theorem spawnEntries_issuesDead
    {entries : List (Variant × Nat)}
    (reads : ∀ indexed ∈ entries, ∃ record, engine.Reads indexed.1 record)
    (batch : Batch) :
    Traced.Accepted Effect.IssuesDead
      (Traced.forEach (spawnStep engine registry) batch entries) := by
  induction entries generalizing batch with
  | nil => exact Traced.accepted_pure _ _
  | cons indexed entries inductionHypothesis =>
      rw [List.forall_mem_cons] at reads
      obtain ⟨record, read⟩ := reads.1
      rw [Traced.forEach_cons, Traced.accepted_andThen]
      refine ⟨?_, inductionHypothesis reads.2 _⟩
      have issuesDead := spawnEntry_issuesDead registry read batch.world
      unfold spawnStep
      dsimp only
      split <;> exact issuesDead

variable (registry) in
theorem spawnFromDataImpl_issuesDead
    {entries : List Variant}
    (reads : ∀ entry ∈ entries, ∃ record, engine.Reads entry record)
    (w : World) :
    Traced.Accepted Effect.IssuesDead
      (w.spawnFromDataImpl engine registry entries) := by
  refine (Traced.accepted_andThen _ _ _).mpr
    ⟨spawnEntries_issuesDead (fun indexed member => reads indexed.1
      (List.fst_mem_of_mem_zipIdx member)) _, ?_⟩
  refine forEach_accepted (fun item member v => ?_) _
  obtain ⟨record, read⟩ := reads item.1 (List.of_mem_zip member).1
  unfold autoParent
  rw [Engine.parentOf_reads read]
  exact Traced.accepted_pure _ _

/-- The handles of a batch are those of the plan. -/
theorem spawnFromData_handles
    (named : ∀ name, registry.idOf name ≠ invalidComponentType →
      (registry.schemaOf (registry.idOf name)).isSome)
    (stable : w.Stable registry) (listed : w.control.Listed)
    {entries : List Variant}
    (issuesDead : Traced.Accepted Effect.IssuesDead
      (w.spawnFromDataImpl engine registry entries)) :
    (w.spawnFromData engine registry entries).2 =
      (w.ids.plan engine registry w.inIteration entries.zipIdx).map
        SpawnedEntry.entity :=
  ((Batched.refl stable listed).spawnEntries named entries.zipIdx [] []
    ((Traced.accepted_andThen _ _ _).mp issuesDead).1).2.2.1

/-- A world in no iteration or window. -/
structure Ready (registry : ComponentRegistry) (w : World) : Prop where
  stable : w.Stable registry
  listed : w.control.Listed
  immediate : w.deferMoves = false
  outside : w.inIteration = false

/-- An empty world spawns all entries exactly when they can be loaded, and it
then holds what they say. -/
theorem spawnFromData_reads
    (named : ∀ name, registry.idOf name ≠ invalidComponentType →
      (registry.schemaOf (registry.idOf name)).isSome)
    (titled : ∀ t schema, registry.schemaOf t = some schema →
      registry.idOf schema.typeName = t)
    (ready : w.Ready registry) (empty : w.contents = fun _ => none)
    {entries : List Variant} {records : List DataRecord}
    (reads : List.Forall₂ engine.Reads entries records)
    (known : ∀ record ∈ records, record.Known registry) :
    let spawned := w.spawnFromData engine registry entries
    (spawned.2.length = entries.length ↔ Loadable records) ∧
    spawned.1.state.Ready registry ∧
    (Loadable records →
      spawned.1.state.contents.HoldsData engine registry records) := by
  obtain ⟨stable, listed, immediate, outside⟩ := ready
  have lengths : entries.length = records.length := reads.length_eq
  have eachReads : ∀ pair ∈ entries.zip records,
      engine.Reads pair.1 pair.2 := fun pair member =>
    (List.forall₂_iff_zip.mp reads).2 member
  have someReads : ∀ entry ∈ entries, ∃ record, engine.Reads entry record := by
    intro entry member
    rw [← List.map_fst_zip lengths.le] at member
    obtain ⟨pair, inZip, rfl⟩ := List.mem_map.mp member
    exact ⟨pair.2, eachReads pair inZip⟩
  have indexedReads : List.Forall₂ (fun (indexed : Variant × Nat) record =>
      engine.Reads indexed.1 record) entries.zipIdx records := by
    rw [← List.forall₂_map_left_iff (f := Prod.fst), List.zipIdx_map_fst]
    exact reads
  have dead : ∀ e, w.ids.live e = false := by
    intro e
    change w.isAlive e = false
    rw [← contents_isSome, empty]
    rfl
  have issuesDead := spawnFromDataImpl_issuesDead registry someReads w
  have handles := spawnFromData_handles named stable listed issuesDead
  obtain ⟨sameLength, planEq⟩ :=
    w.ids.plan_reads w.inIteration indexedReads known
  obtain ⟨-, mapping, calledStable, spawned, batched, control, elsewhere,
    each⟩ := spawnFromDataImpl_spec named titled stable listed issuesDead
  rw [Ids.respawns_iff_loadable dead] at sameLength planEq
  rw [List.length_zipIdx] at sameLength
  obtain ⟨deferEq, iterationEq, -, -⟩ := inIteration_of_control control
  have stillImmediate := batched.deferMoves.trans immediate
  refine ⟨?_, ⟨calledStable, listed_of_control batched.listed control,
    deferEq.trans stillImmediate,
    iterationEq.trans (batched.inIteration.trans outside)⟩, fun loadable => ?_⟩
  · rw [handles, List.length_map]
    exact sameLength
  · have made := planEq loadable
    have settlesAs : ∀ s ∈ w.ids.plan engine registry w.inIteration
        entries.zipIdx, s.Real →
        (w.spawnFromDataImpl engine registry entries).state.world.contents
            s.entity =
          some (givenComponents engine registry (s.components engine)) := by
      intro s member real
      have own := batched.own s member real
      rw [settled_of_immediate stillImmediate, spawnSettles, immediate,
        if_neg Bool.false_ne_true, outside, if_neg Bool.false_ne_true] at own
      have seconds := List.map_snd_zip
        ((sameLength.mpr loadable).le : _ ≤ entries.length)
      rw [← seconds] at member
      obtain ⟨item, inZip, rfl⟩ := List.mem_map.mp member
      obtain ⟨had', rewrites, left⟩ := each item inZip real _ own
      obtain ⟨record, read⟩ := someReads item.1 (List.of_mem_zip inZip).1
      rw [left, rewrites.2 fun t id redirects => by
        rw [Components.Redirects, Engine.parentOf_reads read] at redirects
        exact absurd redirects.1 Bool.false_ne_true]
    constructor
    · intro record member
      have seconds : (entries.zipIdx.zip records).map Prod.snd = records :=
        List.map_snd_zip (by rw [List.length_zipIdx, lengths])
      rw [← seconds] at member
      obtain ⟨pair, inZip, rfl⟩ := List.mem_map.mp member
      have isMade : (⟨pair.1, pair.2.entity⟩ : SpawnedEntry) ∈ w.ids.plan engine
          registry w.inIteration entries.zipIdx := by
        rw [made]
        exact List.mem_map_of_mem inZip
      have creatable := loadable.1 pair.2 (List.of_mem_zip inZip).2
      obtain ⟨edata, isEntry, -, -, isComponents⟩ :=
        (List.forall₂_iff_zip.mp indexedReads).2 inZip
      have settles := settlesAs _ isMade (real_of_accepted creatable.2)
      rw [SpawnedEntry.components, isEntry, Option.getD_some,
        givenComponents_perm (known _ (List.of_mem_zip inZip).2).once
          isComponents] at settles
      exact settles
    · intro x apart
      refine (elsewhere x fun s member => ?_).trans
        ((batched.elsewhere outside x fun s member => ?_).trans
          (congrFun empty x))
      all_goals
        rw [made] at member
        obtain ⟨pair, inZip, rfl⟩ := List.mem_map.mp member
        exact apart pair.2 (List.of_mem_zip inZip).2

/-! ## Loading -/

/-- A cleared world is ready for a load. -/
theorem Ready.clear (ready : w.Ready registry) :
    w.clear.state.Ready registry ∧ w.clear.state.contents = fun _ => none := by
  have control := clear_control w
  obtain ⟨deferEq, iterationEq, -, -⟩ := inIteration_of_control control
  exact ⟨⟨ready.stable.keeps clear_realizes (clear_createsNothing w),
    listed_of_control ready.listed control, deferEq.trans ready.immediate,
    iterationEq.trans ready.outside⟩, clear_contents ready.stable ready.outside⟩

/-- A loader succeeds exactly when all entries can be loaded, and the world then
holds what they say. -/
theorem deserializeSnapshotJson_reads
    (named : ∀ name, registry.idOf name ≠ invalidComponentType →
      (registry.schemaOf (registry.idOf name)).isSome)
    (titled : ∀ t schema, registry.schemaOf t = some schema →
      registry.idOf schema.typeName = t)
    (sort : ArchetypeStore → List Ptr) (ready : w.Ready registry)
    {data : Variant} {entries : List Variant} {records : List DataRecord}
    (parsed : engine.snapshotEntities data = some entries)
    (reads : List.Forall₂ engine.Reads entries records)
    (known : ∀ record ∈ records, record.Known registry) (fuel : Nat) :
    let loaded := w.deserializeSnapshotJson engine registry sort (fuel + 1) data
    (loaded.2 = true ↔ Loadable records) ∧
    (Loadable records → loaded.1.state.Ready registry ∧
      loaded.1.state.contents.HoldsData engine registry records) := by
  obtain ⟨cleared, empty⟩ := ready.clear
  obtain ⟨complete, spawnedReady, holds⟩ :=
    spawnFromData_reads named titled cleared empty reads known
  unfold deserializeSnapshotJson
  rw [parsed]
  dsimp only
  split
  · rename_i incomplete
    have refused := complete.not.mp incomplete
    exact ⟨iff_of_false Bool.false_ne_true refused,
      fun loadable => absurd loadable refused⟩
  · rename_i all
    rw [not_not, complete] at all
    exact ⟨iff_of_true rfl all, fun loadable => ⟨spawnedReady, holds loadable⟩⟩

end World
end VortarisECS
