import VortarisECS.Network.FieldValues

/-!
# Loading a snapshot on the server

A load clears the world, which makes the sending side forget everything, and
builds the listed entities again.  The first networked component of an entity
queues its spawn; the components behind it are marked dirty as well.
-/

namespace VortarisECS

variable {registry : ComponentRegistry}

/-- The networked components of a record behind the first one. -/
def EntityRecord.resent (registry : ComponentRegistry) (record : EntityRecord) :
    List ComponentTypeId :=
  (networkedTypes registry (record.blocks.map ComponentBlock.type)).tail

/-- The types of the components a list of records gives an entity. -/
def typesOf (records : List EntityRecord) (e : Entity) :
    List ComponentTypeId :=
  ((records.find? fun record => record.id = e.id).map
    fun record => record.blocks.map ComponentBlock.type).getD []

/-- The components of an entity that are dirty after its record was loaded. -/
def resentOf (registry : ComponentRegistry) (records : List EntityRecord)
    (e : Entity) : List ComponentTypeId :=
  ((records.find? fun record => record.id = e.id).map
    (EntityRecord.resent registry)).getD []

namespace World

variable {w : World}

/-- A load clears the world and installs the records. -/
theorem deserializeWorldSnapshot_eq
    (stable : w.Stable registry) (idle : w.Idle) {data : List UInt8}
    (inMemory : data.length < sizeLimit) {records : List EntityRecord}
    (parsed : parseSnapshot registry data = some records) :
    (deserializeWorldSnapshot registry w ⟨data, 0⟩).1 =
      w.clear.andThen fun v =>
        Traced.forEach (installRecord registry) v records := by
  obtain ⟨⟨rest, grammatical⟩, admissible⟩ := parseSnapshot_eq_some.mp parsed
  have awaits := clear_awaits stable idle admissible
  have valid := validateSnapshot_eq inMemory grammatical
  rw [decide_eq_true admissible] at valid
  have rebuilt := rebuildWorld_eq inMemory grammatical awaits
  unfold deserializeWorldSnapshot
  rw [valid, if_pos rfl]
  dsimp only
  rw [rebuilt]
  rfl

end World

namespace Replication

/-- Taking in the components of a new entity. -/
def learn (registry : ComponentRegistry) (r : Replication) (e : Entity)
    (types : List ComponentTypeId) : Replication :=
  types.foldl (fun r t => r.onEntityComponentAdded registry e t) r

variable {w : World} {r : Replication} {e : Entity} {t : ComponentTypeId}

/-- An addition tracks the entity of a networked component. -/
theorem mem_onEntityComponentAdded_tracked :
    e ∈ (r.onEntityComponentAdded registry e t).tracked ↔
      e ∈ r.tracked ∨ isNetworked registry t = true := by
  unfold onEntityComponentAdded
  cases networked : isNetworked registry t with
  | false => exact (or_iff_left Bool.false_ne_true).symm
  | true =>
      rw [Bool.not_true, if_neg Bool.false_ne_true]
      refine iff_of_true ?_ (Or.inr rfl)
      split
      · exact ‹_›
      · exact List.mem_insert_self

/-- It is no concern of other entities. -/
theorem onEntityComponentAdded_sameAt {x : Entity} (other : x ≠ e) :
    SameAt x r (r.onEntityComponentAdded registry e t) := by
  unfold onEntityComponentAdded
  split
  · exact .refl x r
  · split
    · exact markDirty_sameAt other
    · exact track_sameAt other

/-- Taking in a block is an addition for the sending side. -/
theorem onWorldEvents_installBlock
    (hosts : w.Hosts registry e)
    (tracked : e ∈ r.tracked ↔ w.Replicates registry e)
    (block : ComponentBlock) :
    r.onWorldEvents registry (installBlock registry e w block).effects =
      r.onEntityComponentAdded registry e block.type := by
  unfold installBlock
  cases registered : registry.schemaOf block.type with
  | none =>
      have local' : isNetworked registry block.type = false := by
        unfold isNetworked
        rw [registered]
      unfold onEntityComponentAdded
      rw [local']
      rfl
  | some schema =>
      have consistent := hosts.stable.consistent
      obtain ⟨loc, location⟩ := World.location_of_isAlive hosts.alive
      dsimp only
      rw [Traced.mapState_effects]
      by_cases present :
          block.type ∈ (w.store.deref loc.archetype).componentIds
      · rw [World.addRaw_overwrites none hosts.alive registered location
          hosts.idle.immediate present]
        change r.onEntityComponentChanged registry e block.type = _
        unfold onEntityComponentChanged onEntityComponentAdded
        cases networked : isNetworked registry block.type with
        | false => rfl
        | true =>
            have isTracked : e ∈ r.tracked :=
              tracked.mpr (List.ne_nil_of_mem (World.mem_networkedOf.mpr
                ⟨(World.mem_types_iff consistent location).mpr present,
                  networked⟩))
            rw [if_pos isTracked, if_pos isTracked]
      · rw [World.addRaw_moves none hosts.alive registered location
          hosts.idle.immediate present hosts.idle.outside]
        rfl

/-- Taking in a block replicates the entity if the component is networked. -/
theorem installBlock_replicates
    (hosts : w.Hosts registry e) (block : ComponentBlock) :
    (installBlock registry e w block).state.Replicates registry e ↔
      w.Replicates registry e ∨ isNetworked registry block.type = true := by
  obtain ⟨later, contentsEq⟩ := World.installBlock_spec hosts block
  have types : ∀ t, t ∈ (installBlock registry e w
      block).state.getEntityComponentTypes e ↔
      t ∈ w.getEntityComponentTypes e ∨
        t = block.type ∧ (registry.schemaOf block.type).isSome := by
    intro t
    rw [(World.represents_contents later.stable.consistent).mem_types,
      (World.represents_contents hosts.stable.consistent).mem_types, contentsEq,
      Contents.adjust_self, World.contents_of_alive hosts.alive,
      Option.map_some, Option.bind_some, Option.bind_some]
    unfold Components.receive
    cases registry.schemaOf block.type with
    | none =>
        exact (or_iff_left fun both => Bool.noConfusion both.2).symm
    | some schema =>
        dsimp only [Components.put]
        split
        · rename_i same
          exact iff_of_true rfl (Or.inr ⟨same, rfl⟩)
        · rename_i other
          exact (or_iff_left fun both => other both.1).symm
  have registered : isNetworked registry block.type = true →
      (registry.schemaOf block.type).isSome = true := by
    unfold isNetworked
    cases registry.schemaOf block.type with
    | none => exact fun impossible => Bool.noConfusion impossible
    | some schema => exact fun _ => rfl
  rw [replicates_iff_any, replicates_iff_any, List.any_eq_true,
    List.any_eq_true]
  constructor
  · rintro ⟨t, member, networked⟩
    obtain old | ⟨rfl, _⟩ := (types t).mp member
    · exact Or.inl ⟨t, old, networked⟩
    · exact Or.inr networked
  · rintro (⟨t, old, networked⟩ | networked)
    · exact ⟨t, (types t).mpr (Or.inl old), networked⟩
    · exact ⟨_, (types _).mpr (Or.inr ⟨rfl, registered networked⟩), networked⟩

/-- Taking in the blocks of an entity. -/
theorem onWorldEvents_installBlocks
    (hosts : w.Hosts registry e)
    (tracked : e ∈ r.tracked ↔ w.Replicates registry e)
    (blocks : List ComponentBlock) :
    r.onWorldEvents registry (installBlocks registry e w blocks).effects =
      r.learn registry e (blocks.map ComponentBlock.type) := by
  unfold installBlocks
  induction blocks generalizing w r with
  | nil => rfl
  | cons block blocks inductionHypothesis =>
      rw [Traced.forEach_cons, Traced.andThen_effects, onWorldEvents_append,
        onWorldEvents_installBlock hosts tracked]
      refine inductionHypothesis (World.installBlock_spec hosts block).1 ?_
      rw [installBlock_replicates hosts, mem_onEntityComponentAdded_tracked,
        tracked]

/-- Learning of an entity is no concern of others. -/
theorem learn_sameAt {x : Entity} (other : x ≠ e)
    (types : List ComponentTypeId) : SameAt x r (r.learn registry e types) := by
  unfold learn
  induction types generalizing r with
  | nil => exact .refl x r
  | cons t types inductionHypothesis =>
      exact (onEntityComponentAdded_sameAt other).trans inductionHypothesis

/-- What the sending side learns of new components of a tracked entity. -/
theorem learn_tracked_spec
    (isTracked : e ∈ r.tracked) (types : List ComponentTypeId) :
    (∀ t, t ∈ (r.learn registry e types).dirtyOf e ↔
      t ∈ r.dirtyOf e ∨ t ∈ networkedTypes registry types) ∧
    r.learn registry e types =
      { r with dirty := (r.learn registry e types).dirty } := by
  unfold learn
  induction types generalizing r with
  | nil => exact ⟨fun t => (or_iff_left List.not_mem_nil).symm, rfl⟩
  | cons u types inductionHypothesis =>
      rw [List.foldl_cons]
      cases networked : isNetworked registry u with
      | false =>
          have skipped : r.onEntityComponentAdded registry e u = r := by
            unfold onEntityComponentAdded
            rw [networked]
            rfl
          have later : networkedTypes registry (u :: types) =
              networkedTypes registry types :=
            List.filter_cons_of_neg (by simp [networked])
          rw [skipped, later]
          exact inductionHypothesis isTracked
      | true =>
          have marked : r.onEntityComponentAdded registry e u =
              r.markDirty e u := by
            unfold onEntityComponentAdded
            rw [networked, Bool.not_true, if_neg Bool.false_ne_true,
              if_pos isTracked]
          have later : networkedTypes registry (u :: types) =
              u :: networkedTypes registry types :=
            List.filter_cons_of_pos networked
          have stillTracked : e ∈ (r.markDirty e u).tracked := isTracked
          obtain ⟨dirty, others⟩ := inductionHypothesis stillTracked
          rw [marked, later]
          refine ⟨fun t => ?_, others⟩
          rw [dirty, dirtyOf_markDirty, if_pos rfl, List.mem_insert_iff,
            List.mem_cons, or_comm (a := t = u), or_assoc]

/-- What the sending side learns of the components of a new entity. -/
structure Learned (registry : ComponentRegistry) (e : Entity)
    (types : List ComponentTypeId) (r r' : Replication) : Prop where
  others : ∀ x, x ≠ e → SameAt x r r'
  tracked : e ∈ r'.tracked ↔ networkedTypes registry types ≠ []
  pendingSpawn : e ∈ r'.pendingSpawn ↔
    e ∈ r.pendingSpawn ∨ networkedTypes registry types ≠ []
  dirty : ∀ t, t ∈ r'.dirtyOf e ↔
    t ∈ r.dirtyOf e ∨ t ∈ (networkedTypes registry types).tail
  rest : r' = { r with
    tracked := r'.tracked, pendingSpawn := r'.pendingSpawn, dirty := r'.dirty }

/-- What the replication knows of an entity it has learned of. -/
theorem learn_spec
    (untracked : e ∉ r.tracked) (types : List ComponentTypeId) :
    Learned registry e types r (r.learn registry e types) := by
  induction types with
  | nil =>
      exact ⟨fun x _ => .refl x r, iff_of_false untracked (not_not_intro rfl),
        (or_iff_left (not_not_intro rfl)).symm,
        fun t => (or_iff_left List.not_mem_nil).symm, rfl⟩
  | cons u types inductionHypothesis =>
      cases networked : isNetworked registry u with
      | false =>
          have skipped : r.learn registry e (u :: types) =
              r.learn registry e types := by
            unfold learn
            rw [List.foldl_cons]
            unfold onEntityComponentAdded
            rw [networked]
            rfl
          have later : networkedTypes registry (u :: types) =
              networkedTypes registry types :=
            List.filter_cons_of_neg (by simp [networked])
          rw [skipped]
          obtain ⟨others, tracked, pendingSpawn, dirty, rest⟩ :=
            inductionHypothesis
          constructor
          · exact others
          · rw [later]; exact tracked
          · rw [later]; exact pendingSpawn
          · rw [later]; exact dirty
          · exact rest
      | true =>
          have tracks : r.learn registry e (u :: types) =
              (r.track e).learn registry e types := by
            unfold learn
            rw [List.foldl_cons]
            congr 1
            unfold onEntityComponentAdded
            rw [networked, Bool.not_true, if_neg Bool.false_ne_true,
              if_neg untracked]
          have later : networkedTypes registry (u :: types) =
              u :: networkedTypes registry types :=
            List.filter_cons_of_pos networked
          have isTracked : e ∈ (r.track e).tracked := List.mem_insert_self
          have isPending : e ∈ (r.track e).pendingSpawn := List.mem_insert_self
          obtain ⟨dirty, others⟩ :=
            learn_tracked_spec isTracked types
          rw [tracks]
          constructor
          · intro x other
            exact (track_sameAt other).trans (learn_sameAt other types)
          · rw [others, later]
            exact iff_of_true isTracked (List.cons_ne_nil _ _)
          · rw [others, later]
            exact iff_of_true isPending (Or.inr (List.cons_ne_nil _ _))
          · rw [later]
            exact dirty
          · rw [others]
            rfl

/-- Installing a record is learning its types. -/
theorem onWorldEvents_installRecord
    {record : EntityRecord} {records : List EntityRecord}
    (awaits : w.Awaits registry (record :: records))
    (untracked : ⟨record.id⟩ ∉ r.tracked) :
    r.onWorldEvents registry (World.installRecord registry w record).effects =
      r.learn registry ⟨record.id⟩ (record.blocks.map ComponentBlock.type) := by
  obtain ⟨_, hosts, spawned⟩ := World.createEntityPreassigned_spec awaits.stable
    awaits.idle (awaits.accepted record List.mem_cons_self)
    (awaits.dead record List.mem_cons_self)
  have silent : r.onWorldEvents registry
      (w.createEntityPreassigned record.id).effects = r := by
    unfold World.createEntityPreassigned
    dsimp only
    split
    · rfl
    · split
      · rfl
      · split <;> rfl
  have bare : ¬(w.createEntityPreassigned record.id).state.Replicates registry
      ⟨record.id⟩ := by
    intro replicates
    obtain ⟨t, member⟩ := List.exists_mem_of_ne_nil _ replicates
    have here := (World.mem_networkedOf.mp member).1
    rw [(World.represents_contents hosts.stable.consistent).mem_types, spawned,
      Contents.spawn, if_pos rfl] at here
    exact Bool.noConfusion here
  unfold World.installRecord
  rw [Traced.andThen_effects, onWorldEvents_append, silent]
  exact onWorldEvents_installBlocks hosts (iff_of_false untracked bare) _

/-- What the sending side learns of a list of new entities. -/
structure LearnedAll (registry : ComponentRegistry)
    (records : List EntityRecord) (r r' : Replication) : Prop where
  tracked : ∀ e, e ∈ r'.tracked ↔
    e ∈ r.tracked ∨ networkedTypes registry (typesOf records e) ≠ []
  pendingSpawn : ∀ e, e ∈ r'.pendingSpawn ↔
    e ∈ r.pendingSpawn ∨ networkedTypes registry (typesOf records e) ≠ []
  dirty : ∀ e t, t ∈ r'.dirtyOf e ↔
    t ∈ r.dirtyOf e ∨ t ∈ resentOf registry records e
  rest : r' = { r with
    tracked := r'.tracked, pendingSpawn := r'.pendingSpawn, dirty := r'.dirty }

/-- Records that are installed are learned of. -/
theorem installRecords_learned
    {records : List EntityRecord} (awaits : w.Awaits registry records)
    (untracked : ∀ record ∈ records, ⟨record.id⟩ ∉ r.tracked) :
    LearnedAll registry records r (r.onWorldEvents registry
      (Traced.forEach (World.installRecord registry) w records).effects) := by
  induction records generalizing w r with
  | nil =>
      constructor
      · exact fun e => (or_iff_left (not_not_intro rfl)).symm
      · exact fun e => (or_iff_left (not_not_intro rfl)).symm
      · exact fun e t => (or_iff_left List.not_mem_nil).symm
      · rfl
  | cons record records inductionHypothesis =>
      have here : Learned registry ⟨record.id⟩
          (record.blocks.map ComponentBlock.type) r _ :=
        learn_spec (untracked record List.mem_cons_self) _
      have once := List.nodup_cons.mp awaits.once
      have apart : ∀ later ∈ records,
          (⟨later.id⟩ : Entity) ≠ ⟨record.id⟩ := by
        intro later member same
        have sameId : later.id = record.id := congrArg Entity.id same
        exact once.1 (sameId ▸ List.mem_map_of_mem member)
      rw [Traced.forEach_cons, Traced.andThen_effects, onWorldEvents_append,
        onWorldEvents_installRecord awaits
          (untracked record List.mem_cons_self)]
      have later := inductionHypothesis (World.installRecord_spec awaits).1
        fun later member => mt ((here.others _ (apart later member)).tracked).mp
          (untracked later (List.mem_cons_of_mem record member))
      have first : ∀ e : Entity, e = ⟨record.id⟩ →
          (record :: records).find? (fun record => record.id = e.id) =
            some record ∧
          records.find? (fun record => record.id = e.id) = none := by
        rintro e rfl
        exact ⟨List.find?_cons_of_pos (decide_eq_true rfl),
          find?_record_eq_none once.1⟩
      have second : ∀ e : Entity, e ≠ ⟨record.id⟩ →
          (record :: records).find? (fun record => record.id = e.id) =
            records.find? (fun record => record.id = e.id) := by
        intro e other
        apply List.find?_cons_of_neg
        intro same
        exact other (congrArg Entity.mk (of_decide_eq_true same)).symm
      constructor
      · intro e
        rw [later.tracked]
        unfold typesOf
        by_cases isSelf : e = ⟨record.id⟩
        · rw [(first e isSelf).1, (first e isSelf).2, isSelf, here.tracked]
          have unseen := untracked record List.mem_cons_self
          exact (or_iff_left (not_not_intro rfl)).trans
            (or_iff_right unseen).symm
        · rw [second e isSelf, (here.others e isSelf).tracked]
      · intro e
        rw [later.pendingSpawn]
        unfold typesOf
        by_cases isSelf : e = ⟨record.id⟩
        · rw [(first e isSelf).1, (first e isSelf).2, isSelf, here.pendingSpawn]
          exact or_iff_left (not_not_intro rfl)
        · rw [second e isSelf, (here.others e isSelf).pendingSpawn]
      · intro e t
        rw [later.dirty]
        unfold resentOf
        by_cases isSelf : e = ⟨record.id⟩
        · rw [(first e isSelf).1, (first e isSelf).2, isSelf, here.dirty]
          exact or_iff_left List.not_mem_nil
        · rw [second e isSelf, (here.others e isSelf).dirtyOf]
      · rw [later.rest, here.rest]

end Replication

/-! ## Contents of a load -/

/-- A networked component of an entity. -/
def Contents.Shares (registry : ComponentRegistry) (contents : Contents)
    (e : Entity) (t : ComponentTypeId) : Prop :=
  isNetworked registry t = true ∧ ((contents e).bind (· t)).isSome = true

/-- An entity with a networked component. -/
def Contents.Shared (registry : ComponentRegistry) (contents : Contents)
    (e : Entity) : Prop :=
  ∃ t, contents.Shares registry e t

/-- The networked components of a world are shared. -/
theorem World.shares_iff
    {w : World} (consistent : w.store.Consistent registry) (e : Entity)
    (t : ComponentTypeId) :
    w.contents.Shares registry e t ↔ t ∈ w.networkedOf registry e := by
  unfold Contents.Shares
  rw [mem_networkedOf, (represents_contents consistent).mem_types, and_comm]

/-- The replicated entities of a world are shared. -/
theorem World.shared_iff
    {w : World} (consistent : w.store.Consistent registry) (e : Entity) :
    w.contents.Shared registry e ↔ w.Replicates registry e := by
  unfold Contents.Shared
  simp only [shares_iff consistent]
  exact ⟨fun ⟨_, member⟩ => List.ne_nil_of_mem member,
    List.exists_mem_of_ne_nil _⟩

/-- Networked components are registered. -/
theorem registered_of_isNetworked {t : ComponentTypeId}
    (networked : isNetworked registry t = true) :
    (registry.schemaOf t).isSome = true := by
  unfold isNetworked at networked
  cases registered : registry.schemaOf t with
  | none =>
      rw [registered] at networked
      exact Bool.noConfusion networked
  | some schema => rfl

/-- A list of components adds the registered ones. -/
theorem Components.receiveAll_isSome
    (components : Components) (blocks : List ComponentBlock)
    (t : ComponentTypeId) :
    (components.receiveAll registry blocks t).isSome ↔
      (components t).isSome ∨
        t ∈ blocks.map ComponentBlock.type ∧ (registry.schemaOf t).isSome := by
  unfold receiveAll
  induction blocks generalizing components with
  | nil => exact (or_iff_left fun both => absurd both.1 List.not_mem_nil).symm
  | cons block blocks inductionHypothesis =>
      have here : (components.receive registry block t).isSome ↔
          (components t).isSome ∨
            t = block.type ∧ (registry.schemaOf t).isSome := by
        by_cases same : t = block.type
        · rw [same]
          unfold receive
          cases registry.schemaOf block.type with
          | none => exact (or_iff_left fun both => Bool.noConfusion both.2).symm
          | some schema =>
              refine iff_of_true ?_ (Or.inr ⟨rfl, rfl⟩)
              dsimp only [put]
              rw [if_pos rfl]
              rfl
        · rw [receive_of_ne _ same]
          exact (or_iff_left fun both => same both.1).symm
      rw [List.foldl_cons, inductionHypothesis, here, List.map_cons,
        List.mem_cons, or_and_right, or_assoc]

/-- What a list of records shares. -/
theorem Contents.ofRecords_shares_iff
    (records : List EntityRecord) (e : Entity) (t : ComponentTypeId) :
    (Contents.ofRecords registry records).Shares registry e t ↔
      t ∈ networkedTypes registry (typesOf records e) := by
  unfold Shares ofRecords typesOf networkedTypes
  rw [List.mem_filter, and_comm]
  apply and_congr_left
  intro networked
  cases records.find? fun record => record.id = e.id with
  | none => exact iff_of_false Bool.false_ne_true List.not_mem_nil
  | some record =>
      rw [Option.map_some, Option.map_some, Option.bind_some, Option.getD_some]
      unfold EntityRecord.components
      rw [Components.receiveAll_isSome]
      exact (or_iff_right Bool.false_ne_true).trans
        (and_iff_left (registered_of_isNetworked networked))

namespace Link

/-- `deserialize_snapshot` on the server. -/
def load (registry : ComponentRegistry) (l : Link) (data : List UInt8) : Link :=
  l.onServer registry
    (deserializeWorldSnapshot registry l.server ⟨data, 0⟩).1

/-- The sending side right after a load. -/
structure Loaded (registry : ComponentRegistry) (records : List EntityRecord)
    (r r' : Replication) : Prop where
  pendingSpawn : ∀ e, e ∈ r'.pendingSpawn ↔
    (Contents.ofRecords registry records).Shared registry e
  dirty : ∀ e t, t ∈ r'.dirtyOf e ↔ t ∈ resentOf registry records e
  sets : r'.DirtySets
  rest : r' = {
    reconciliationInterval := r.reconciliationInterval
    tracked := r'.tracked
    pendingSpawn := r'.pendingSpawn
    dirty := r'.dirty }

/-- Loading a snapshot on the server. -/
theorem load_spec
    {l : Link} (stable : l.server.Stable registry) (idle : l.server.Idle)
    {data : List UInt8} (inMemory : data.length < sizeLimit)
    {records : List EntityRecord}
    (parsed : parseSnapshot registry data = some records) :
    (l.load registry data).server.Stable registry ∧
    (l.load registry data).server.contents =
      Contents.ofRecords registry records ∧
    Loaded registry records l.replication (l.load registry data).replication := by
  obtain ⟨_, _, last, contentsEq⟩ := World.deserializeWorldSnapshot_of_parsed
    stable idle inMemory parsed
  have awaits := World.clear_awaits stable idle
    (World.parseSnapshot_eq_some.mp parsed).2
  have clearing : l.replication.onWorldEvents registry l.server.clear.effects =
      l.replication.resetState := by
    unfold World.clear
    rw [idle.outside]
    rfl
  have replicationEq : (l.load registry data).replication =
      l.replication.resetState.onWorldEvents registry
        (Traced.forEach (World.installRecord registry) l.server.clear.state
          records).effects := by
    unfold load onServer
    dsimp only
    rw [World.deserializeWorldSnapshot_eq stable idle inMemory parsed,
      Traced.andThen_effects, Replication.onWorldEvents_append, clearing]
  have sets : (l.load registry data).replication.DirtySets := by
    rw [replicationEq]
    refine Replication.onWorldEvents_dirtySets (fun e => ?_) _
    exact List.nodup_nil
  have learned := Replication.installRecords_learned
    (r := l.replication.resetState) awaits fun _ _ => List.not_mem_nil
  rw [← replicationEq] at learned
  have shared : ∀ e, networkedTypes registry (typesOf records e) ≠ [] ↔
      (Contents.ofRecords registry records).Shared registry e := by
    intro e
    unfold Contents.Shared
    simp only [Contents.ofRecords_shares_iff]
    exact ⟨List.exists_mem_of_ne_nil _, fun ⟨_, member⟩ =>
      List.ne_nil_of_mem member⟩
  refine ⟨last.stable, contentsEq, ⟨fun e => ?_, fun e t => ?_, sets, ?_⟩⟩
  · exact (learned.pendingSpawn e).trans
      ((or_iff_right List.not_mem_nil).trans (shared e))
  · exact (learned.dirty e t).trans (or_iff_right List.not_mem_nil)
  · exact learned.rest

end Link
end VortarisECS
