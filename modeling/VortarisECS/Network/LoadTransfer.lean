import VortarisECS.Network.ServerLoad

/-!
# A load on the server reaches the client

The sending side forgets its client when a snapshot is loaded.  The next tick
spawns the loaded entities, which the client refuses for the ids it has, and
resends the components that came behind the first of their entity.  Unless the
tick sends a full state, the client shows the loaded world only if its old copies
agree with all that is not resent.
-/

namespace VortarisECS

variable {registry : ComponentRegistry}

/-- The value of a field of a component, zeros if the component is not there. -/
def Contents.valueOf (registry : ComponentRegistry) (contents : Contents)
    (e : Entity) (t : ComponentTypeId) (fd : FieldDescriptor) : List UInt8 :=
  encodeField fd (((contents e).bind (· t)).getD
    (List.replicate (registry.sizeOf t) 0))

/-- The value of a field depends on the components of its entity. -/
theorem Contents.valueOf_of_eq
    {contents : Contents} {e : Entity} {components : Components}
    (found : contents e = some components) (t : ComponentTypeId)
    (fd : FieldDescriptor) :
    contents.valueOf registry e t fd = components.valueOf registry t fd := by
  unfold valueOf Components.valueOf
  rw [found, Option.bind_some]

/-- No two fields of a component share a byte. -/
def ComponentRegistry.FieldsApart (registry : ComponentRegistry) : Prop :=
  ∀ schema ∈ registry.schemas, LaidOut schema.fields 0 schema.size

namespace ComponentRegistry.FieldsApart

/-- Components whose fields share no bytes are laid out. -/
theorem laidOut
    (apart : registry.FieldsApart) {t : ComponentTypeId}
    {schema : ComponentSchema} (registered : registry.schemaOf t = some schema) :
    LaidOut schema.fields 0 schema.size :=
  apart schema (mem_schemas_of_schemaOf registered)

/-- Components whose layout fits into memory have their fields apart. -/
theorem register
    (apart : registry.FieldsApart) {godot : GodotTypes} {name : String}
    {raw : List FieldDescriptor} (fits : FitsMemory godot raw) :
    (registry.registerSchemaComponent godot name raw).2.FieldsApart := by
  unfold registerSchemaComponent
  cases lays : layoutSchema godot name raw with
  | none => exact apart
  | some schema =>
      dsimp only
      unfold registerComponent
      split
      · exact apart
      · split
        · exact apart
        · intro other member
          obtain old | new := List.mem_append.mp member
          · exact apart other old
          · rw [List.mem_singleton.mp new]
            exact (layoutSchema_laidOut lays fits).1

end ComponentRegistry.FieldsApart

/-- The components of a record have the size of their schema. -/
theorem EntityRecord.components_sized
    {record : EntityRecord} {t : ComponentTypeId} {schema : ComponentSchema}
    (registered : registry.schemaOf t = some schema) {inst : List UInt8}
    (found : record.components registry t = some inst) :
    inst.length = schema.size := by
  have general : ∀ (blocks : List ComponentBlock) (components : Components),
      (∀ inst, components t = some inst → inst.length = schema.size) →
      ∀ inst, components.receiveAll registry blocks t = some inst →
        inst.length = schema.size := by
    intro blocks
    induction blocks with
    | nil => exact fun _ sized => sized
    | cons block blocks inductionHypothesis =>
        intro components sized
        refine inductionHypothesis _ fun inst received => ?_
        by_cases same : t = block.type
        · unfold Components.receive at received
          rw [← same, registered] at received
          dsimp only [Components.put] at received
          rw [if_pos rfl, Option.some.injEq] at received
          rw [← received, World.storePayload_length, List.length_replicate]
        · rw [Components.receive_of_ne _ same] at received
          exact sized inst received
  exact general record.blocks _ (fun _ none => absurd none (by simp)) inst found

namespace World

variable {w : World} {e : Entity} {t : ComponentTypeId}
variable {schema : ComponentSchema} {fd : FieldDescriptor}

/-- The value of a field in a world. -/
theorem contents_valueOf
    (consistent : w.store.Consistent registry) (alive : w.isAlive e = true)
    (fd : FieldDescriptor) :
    w.contents.valueOf registry e t fd = encodeField fd
      ((w.getRaw e t).getD (List.replicate (registry.sizeOf t) 0)) := by
  unfold Contents.valueOf
  rw [contents_of_alive alive, Option.bind_some, bytesAt_eq_getRaw consistent]

/-- A spawn carries the fields that are sent. -/
theorem spawnRecord_valueOf
    (consistent : w.store.Consistent registry) (apart : registry.FieldsApart)
    (registered : registry.schemaOf t = some schema)
    (member : t ∈ w.networkedOf registry e) (inFields : fd ∈ schema.fields)
    (sent : fd.isSent = true) :
    ((w.spawnRecord registry e).components registry).valueOf registry t fd =
      w.contents.valueOf registry e t fd := by
  have laid := apart.laidOut registered
  obtain ⟨_, data, _, found⟩ :=
    getRaw_of_mem_types consistent (mem_networkedOf.mp member).1
  have alive := alive_of_replicates (List.ne_nil_of_mem member)
  have types : (w.spawnRecord registry e).blocks.map ComponentBlock.type =
      w.networkedOf registry e := recordOf_types _ _
  have once : ((w.spawnRecord registry e).blocks.map
      ComponentBlock.type).Nodup := by
    rw [types]
    exact (((represents_contents consistent).typesAscending e).imp
      ne_of_lt).filter _
  have inBlocks : w.blockOf registry e (spawnMaskOf registry) t ∈
      (w.spawnRecord registry e).blocks := List.mem_map_of_mem member
  have received := Components.receiveAll_of_mem (fun _ => none) once inBlocks
    registered
  have masked : maskedFields schema.fields (spawnMaskOf registry t) =
      schema.fields.filter (·.isSent) := by
    unfold spawnMaskOf syncPlanFor
    rw [registered]
    exact maskedFields_map _ _
  rw [contents_valueOf consistent alive, found, Option.getD_some]
  unfold Components.valueOf EntityRecord.components
  have receivedHere : Components.receiveAll registry (fun _ => none)
      (w.spawnRecord registry e).blocks t = some (storeFields
        (schema.fields.filter (·.isSent)) (List.replicate schema.size 0)
        (encodeFields (schema.fields.filter (·.isSent)) data)) := by
    rw [storeFields_eq_writePatches, ← masked]
    refine received.trans ?_
    unfold ComponentBlock.patches blockOf
    dsimp only
    rw [registered, found]
  rw [receivedHere, Option.getD_some]
  exact laid.encodeField_store List.filter_sublist List.length_replicate data
    (List.mem_filter.mpr ⟨inFields, sent⟩)

/-- The delta speaks of an entity when it carries a component of it. -/
theorem saidAbout_ne_nil_iff
    (consistent : w.store.Consistent registry) {r : Replication} :
    w.saidAbout registry r e ≠ [] ↔ ∃ t, w.Carries registry r e t := by
  constructor
  · intro said
    obtain ⟨component, member⟩ := List.exists_mem_of_ne_nil _ said
    unfold saidAbout at member
    split at member
    · obtain ⟨t, isDirty, saidHere⟩ := List.mem_filterMap.mp member
      obtain ⟨networked, has, _, _, _, _, due, _⟩ :=
        deltaComponent_eq_some.mp saidHere
      exact ⟨t, isDirty, mem_networkedOf.mpr
        ⟨(has_iff_mem_types consistent).mp has, networked⟩, due⟩
    · exact absurd member List.not_mem_nil
  · rintro ⟨t, carries⟩ nothing
    have added := (receive_saidAbout_isSome consistent (fun _ => none) t).mpr
      (Or.inr carries)
    rw [nothing] at added
    exact Bool.noConfusion added

end World

/-! ## Showing contents -/

namespace Client

/-- An entity of the client's own. -/
def Owns (c : Client) (e : Entity) : Prop :=
  c.world.isAlive e = true ∧ e ∉ c.replicated

/-- The client replicates the entities with a networked component, next to
entities of its own, and shows their networked components with the value of
every field that is sent. -/
structure Mirrors (registry : ComponentRegistry) (contents : Contents)
    (own : Entity → Prop) (c : Client) : Prop where
  replicated : ∀ e, e ∈ c.replicated ↔ contents.Shared registry e
  alive : ∀ e, c.world.isAlive e = true ↔ contents.Shared registry e ∨ own e
  shows : ∀ e t, contents.Shares registry e t →
    c.world.contents.Shares registry e t
  values : ∀ e t, contents.Shares registry e t → ∀ schema,
    registry.schemaOf t = some schema → ∀ fd ∈ schema.fields,
    fd.isSent = true →
    c.world.contents.valueOf registry e t fd = contents.valueOf registry e t fd

/-- The buckets of a component that the first tick after a load resends. -/
def resentBuckets (registry : ComponentRegistry) (records : List EntityRecord)
    (delta : ℚ) (e : Entity) (t : ComponentTypeId) : List SyncBucket :=
  if t ∈ resentOf registry records e then
    (syncPlanFor registry t).due [] delta
  else []

/-- The copies a client has agree with the loaded entities in all that is not
resent. -/
structure AgreesWith (registry : ComponentRegistry)
    (records : List EntityRecord) (delta : ℚ) (c : Client) : Prop where
  ghosts : ∀ e ∈ c.replicated,
    (Contents.ofRecords registry records).Shared registry e
  own : ∀ e, c.Owns e → (Contents.ofRecords registry records).Shared registry e →
    ∃ t, (Contents.ofRecords registry records).Shares registry e t ∧
      resentBuckets registry records delta e t ≠ []
  shows : ∀ e, c.world.isAlive e = true → ∀ t,
    (Contents.ofRecords registry records).Shares registry e t →
    c.world.contents.Shares registry e t ∨
      resentBuckets registry records delta e t ≠ []
  values : ∀ e, c.world.isAlive e = true → ∀ t,
    (Contents.ofRecords registry records).Shares registry e t → ∀ schema,
    registry.schemaOf t = some schema → ∀ fd ∈ schema.fields,
    fd.isSent = true →
    fd.CarriedBy (resentBuckets registry records delta e t) ∨
    c.world.contents.valueOf registry e t fd =
      (Contents.ofRecords registry records).valueOf registry e t fd

end Client

/-! ## The tick after a load -/

/-- The ids of admissible records are accepted. -/
theorem Admissible.accepted
    {records : List EntityRecord} (admissible : Admissible records [])
    {e : Entity}
    (shared : (Contents.ofRecords registry records).Shared registry e) :
    idRefused e.id = false := by
  obtain ⟨t, _, here⟩ := shared
  have listed : (Contents.ofRecords registry records e).isSome = true := by
    cases found : Contents.ofRecords registry records e with
    | none =>
        rw [found] at here
        exact here
    | some components => rfl
  obtain ⟨record, member, sameId⟩ := List.mem_map.mp
    (Contents.ofRecords_isSome_iff.mp listed)
  rw [← sameId]
  exact (admissible.1 record member).1

namespace Link

/-- A loaded replication under another hash order. -/
theorem Loaded.rehash
    {records : List EntityRecord} {r r' : Replication}
    (loaded : Loaded registry records r r') (order : List Entity)
    (typeOrder : Entity → List ComponentTypeId) :
    Loaded registry records r (r'.rehash order typeOrder) := by
  have dirtyPerm := r'.rehash_dirtyOf_perm order typeOrder
  refine ⟨fun e => ?_, fun e t => ?_, fun e => ?_, ?_⟩
  · exact (List.perm_insertionSort _ _).mem_iff.trans (loaded.pendingSpawn e)
  · exact (dirtyPerm e).mem_iff.trans (loaded.dirty e t)
  · exact (dirtyPerm e).nodup_iff.mpr (loaded.sets e)
  · rw [loaded.rest]
    rfl

section AfterLoad

variable {records : List EntityRecord} {r r' : Replication} {w : World}
variable {delta : ℚ} {e : Entity} {t : ComponentTypeId}

/-- The buckets a dirty component sends are those that are resent. -/
theorem Loaded.due
    (loaded : Loaded registry records r r') (isDirty : t ∈ r'.dirtyOf e) :
    (syncPlanFor registry t).due ((r'.beforeDelta delta).ticksOf e t)
        (r'.beforeDelta delta).elapsedTime =
      Client.resentBuckets registry records delta e t := by
  have noTicks : (r'.beforeDelta delta).ticksOf e t = [] := by
    rw [loaded.rest]
    rfl
  have elapsed : (r'.beforeDelta delta).elapsedTime = delta := by
    rw [loaded.rest]
    exact zero_add delta
  unfold Client.resentBuckets
  rw [noTicks, elapsed, if_pos ((loaded.dirty e t).mp isDirty)]

/-- A tick after a load carries what was loaded. -/
theorem Loaded.carries_iff
    (loaded : Loaded registry records r r')
    (consistent : w.store.Consistent registry)
    (contentsEq : w.contents = Contents.ofRecords registry records) :
    w.Carries registry (r'.beforeDelta delta) e t ↔
      (Contents.ofRecords registry records).Shares registry e t ∧
        Client.resentBuckets registry records delta e t ≠ [] := by
  have shares : t ∈ w.networkedOf registry e ↔
      (Contents.ofRecords registry records).Shares registry e t := by
    rw [← contentsEq, World.shares_iff consistent]
  constructor
  · rintro ⟨isDirty, member, due⟩
    rw [loaded.due isDirty] at due
    exact ⟨shares.mp member, due⟩
  · rintro ⟨shared, resent⟩
    have isDirty : t ∈ r'.dirtyOf e := by
      rw [loaded.dirty]
      by_contra kept
      unfold Client.resentBuckets at resent
      exact resent (if_neg kept)
    refine ⟨isDirty, shares.mpr shared, ?_⟩
    rw [loaded.due isDirty]
    exact resent

/-- The fields it carries. -/
theorem Loaded.carriedBy_iff
    (loaded : Loaded registry records r r')
    (consistent : w.store.Consistent registry)
    (contentsEq : w.contents = Contents.ofRecords registry records)
    (shares : (Contents.ofRecords registry records).Shares registry e t)
    (fd : FieldDescriptor) :
    w.Carries registry (r'.beforeDelta delta) e t ∧ fd.CarriedBy
        ((syncPlanFor registry t).due ((r'.beforeDelta delta).ticksOf e t)
          (r'.beforeDelta delta).elapsedTime) ↔
      fd.CarriedBy (Client.resentBuckets registry records delta e t) := by
  rw [loaded.carries_iff consistent contentsEq]
  constructor
  · rintro ⟨⟨_, resent⟩, carried⟩
    have isDirty : t ∈ r'.dirtyOf e :=
      ((loaded.carries_iff consistent contentsEq).mpr ⟨shares, resent⟩).1
    rw [loaded.due isDirty] at carried
    exact carried
  · intro carried
    have resent : Client.resentBuckets registry records delta e t ≠ [] := by
      obtain ⟨_, bucket, member, _⟩ := carried
      exact List.ne_nil_of_mem member
    have carries : w.Carries registry (r'.beforeDelta delta) e t :=
      (loaded.carries_iff consistent contentsEq).mpr ⟨shares, resent⟩
    have isDirty : t ∈ r'.dirtyOf e := carries.1
    refine ⟨⟨shares, resent⟩, ?_⟩
    rw [loaded.due isDirty]
    exact carried

/-! ### What the client holds before a full state -/

/-- The stages of the tick after a load, up to the full state. -/
structure Delivers (registry : ComponentRegistry) (records : List EntityRecord)
    (w : World) (r' : Replication) (delta : ℚ) (c c' : Client) : Prop where
  consistent : w.store.Consistent registry
  contentsEq : w.contents = Contents.ofRecords registry records
  rest : c'.world.AtRest registry
  fresh : ∀ e, (Contents.ofRecords registry records).Shared registry e →
    c.world.isAlive e = false → c'.world.contents e =
      some ((w.saidAbout registry (r'.beforeDelta delta) e).foldl
        (Components.receiveDelta registry)
        ((w.spawnRecord registry e).components registry))
  held : ∀ e, ((Contents.ofRecords registry records).Shared registry e →
    c.world.isAlive e = true) → c'.world.contents e =
      (c.world.contents e).map fun held =>
        (w.saidAbout registry (r'.beforeDelta delta) e).foldl
          (Components.receiveDelta registry) held
  replicated : ∀ e, e ∈ c'.replicated ↔ e ∈ c.replicated ∨
    (Contents.ofRecords registry records).Shared registry e ∧
      (c.world.isAlive e = false ∨
        ∃ t, w.Carries registry (r'.beforeDelta delta) e t)

/-- The packets of that tick deliver what was loaded. -/
theorem Loaded.delivers
    (loaded : Loaded registry records r r')
    (consistent : w.store.Consistent registry)
    (contentsEq : w.contents = Contents.ofRecords registry records)
    (admissible : Admissible records [])
    {c spawned updated despawned : Client}
    (spawns : Client.Spawned registry w
      (r'.pendingSpawn.filter (w.isAlive ·)) c spawned)
    (updates : Client.Updated registry w (r'.beforeDelta delta) spawned updated)
    (despawns : Client.Despawned registry r'.pendingDespawn updated despawned) :
    Delivers registry records w r' delta c despawned := by
  have replicates : ∀ e, w.Replicates registry e ↔
      (Contents.ofRecords registry records).Shared registry e := by
    intro e
    rw [← contentsEq, World.shared_iff consistent]
  have pending : ∀ e, e ∈ r'.pendingSpawn.filter (w.isAlive ·) ↔
      (Contents.ofRecords registry records).Shared registry e := by
    intro e
    rw [List.mem_filter, loaded.pendingSpawn]
    exact and_iff_left_of_imp fun shared =>
      World.alive_of_replicates ((replicates e).mpr shared)
  have taken : ∀ e, e ∈ r'.pendingSpawn.filter (w.isAlive ·) ∧
      c.CanSpawn e.id ↔
      (Contents.ofRecords registry records).Shared registry e ∧
        c.world.isAlive e = false := by
    intro e
    rw [pending]
    exact and_congr_right fun shared => and_iff_right (admissible.accepted shared)
  have noDespawns : r'.pendingDespawn = [] := by rw [loaded.rest]
  refine ⟨consistent, contentsEq, despawns.rest, fun e shared dead => ?_,
    fun e alive => ?_, fun e => ?_⟩
  · rw [despawns.contents, noDespawns, if_neg List.not_mem_nil,
      updates.contents, spawns.contents, if_pos ((taken e).mpr ⟨shared, dead⟩)]
    rfl
  · rw [despawns.contents, noDespawns, if_neg List.not_mem_nil,
      updates.contents, spawns.contents, if_neg fun both => ?_]
    obtain ⟨shared, dead⟩ := (taken e).mp both
    exact Bool.noConfusion (dead.symm.trans (alive shared))
  · have spawnedAlive : (∃ t, w.Carries registry (r'.beforeDelta delta) e t) →
        spawned.world.isAlive e = true := by
      rintro ⟨t, carries⟩
      have shared := (replicates e).mp (List.ne_nil_of_mem carries.2.1)
      rw [← World.contents_isSome, spawns.contents]
      split
      · rfl
      · rename_i held
        rw [World.contents_isSome, ← Bool.not_eq_false]
        exact fun dead => held ((taken e).mpr ⟨shared, dead⟩)
    have sharedOf : (∃ t, w.Carries registry (r'.beforeDelta delta) e t) →
        (Contents.ofRecords registry records).Shared registry e :=
      fun ⟨t, carries⟩ =>
        (replicates e).mp (List.ne_nil_of_mem carries.2.1)
    rw [despawns.replicated, noDespawns, updates.replicated, spawns.replicated,
      World.saidAbout_ne_nil_iff consistent, taken]
    have none : e ∉ ([] : List Entity) := List.not_mem_nil
    tauto

/-! ### Values that arrive -/

section Delivered

variable {c c' : Client} {schema : ComponentSchema} {fd : FieldDescriptor}
variable (delivers : Delivers registry records w r' delta c c')
variable (loaded : Loaded registry records r r')
include delivers

/-- The networked components afterwards are those that were loaded. -/
theorem Delivers.mem_networkedOf_iff :
    t ∈ w.networkedOf registry e ↔
      (Contents.ofRecords registry records).Shares registry e t := by
  rw [← delivers.contentsEq, World.shares_iff delivers.consistent]

/-- An entity that comes in with its spawn shows what was loaded. -/
theorem Delivers.fresh_shows
    (dead : c.world.isAlive e = false)
    (shares : (Contents.ofRecords registry records).Shares registry e t) :
    c'.world.contents.Shares registry e t := by
  refine ⟨shares.1, ?_⟩
  rw [delivers.fresh e ⟨t, shares⟩ dead, Option.bind_some,
    World.receive_saidAbout_isSome delivers.consistent,
    spawnRecord_components_isSome delivers.consistent]
  exact Or.inl (delivers.mem_networkedOf_iff.mpr shares)

include loaded

/-- The components of an entity that was alive on the client. -/
theorem Delivers.shows_iff
    (alive : c.world.isAlive e = true)
    (shares : (Contents.ofRecords registry records).Shares registry e t) :
    c'.world.contents.Shares registry e t ↔
      c.world.contents.Shares registry e t ∨
        Client.resentBuckets registry records delta e t ≠ [] := by
  have carries : w.Carries registry (r'.beforeDelta delta) e t ↔
      Client.resentBuckets registry records delta e t ≠ [] :=
    (loaded.carries_iff delivers.consistent delivers.contentsEq).trans
      (and_iff_right shares)
  unfold Contents.Shares
  rw [delivers.held e fun _ => alive, World.contents_of_alive alive,
    Option.map_some, Option.bind_some, Option.bind_some,
    World.receive_saidAbout_isSome delivers.consistent, carries,
    and_iff_right shares.1, and_iff_right shares.1]

/-- The fields of an entity that was alive on the client. -/
theorem Delivers.value_held
    (apart : registry.FieldsApart)
    (consistent : c.world.store.Consistent registry)
    (alive : c.world.isAlive e = true)
    (shares : (Contents.ofRecords registry records).Shares registry e t)
    (registered : registry.schemaOf t = some schema)
    (inFields : fd ∈ schema.fields) :
    c'.world.contents.valueOf registry e t fd =
      if fd.CarriedBy (Client.resentBuckets registry records delta e t) then
        (Contents.ofRecords registry records).valueOf registry e t fd
      else c.world.contents.valueOf registry e t fd := by
  have member := delivers.mem_networkedOf_iff.mpr shares
  have serverAlive := World.alive_of_replicates (List.ne_nil_of_mem member)
  have foundHere := World.contents_of_alive alive
  have found : c'.world.contents e = some ((w.saidAbout registry
      (r'.beforeDelta delta) e).foldl (Components.receiveDelta registry)
        (c.world.bytesAt e)) := by
    rw [delivers.held e fun _ => alive, foundHere]
    rfl
  have setsBefore : (r'.beforeDelta delta).DirtySets := loaded.sets
  rw [Contents.valueOf_of_eq found, World.receive_saidAbout_valueOf
    delivers.consistent setsBefore (apart.laidOut registered) registered
    (fun inst isHere => ?_) inFields, Contents.valueOf_of_eq foundHere,
    ← delivers.contentsEq, World.contents_valueOf delivers.consistent serverAlive]
  · exact if_congr (loaded.carriedBy_iff delivers.consistent
      delivers.contentsEq shares fd) rfl rfl
  · rw [World.bytesAt_length consistent isHere,
      ComponentRegistry.sizeOf_of_schemaOf registered]

/-- The fields of an entity that was new to the client. -/
theorem Delivers.value_fresh
    (apart : registry.FieldsApart) (dead : c.world.isAlive e = false)
    (shares : (Contents.ofRecords registry records).Shares registry e t)
    (registered : registry.schemaOf t = some schema)
    (inFields : fd ∈ schema.fields) (sent : fd.isSent = true) :
    c'.world.contents.valueOf registry e t fd =
      (Contents.ofRecords registry records).valueOf registry e t fd := by
  have member := delivers.mem_networkedOf_iff.mpr shares
  have serverAlive := World.alive_of_replicates (List.ne_nil_of_mem member)
  have found := delivers.fresh e ⟨t, shares⟩ dead
  have setsBefore : (r'.beforeDelta delta).DirtySets := loaded.sets
  rw [Contents.valueOf_of_eq found, World.receive_saidAbout_valueOf
    delivers.consistent setsBefore (apart.laidOut registered) registered
    (fun inst isHere => EntityRecord.components_sized registered isHere)
    inFields,
    World.spawnRecord_valueOf delivers.consistent apart registered member
      inFields sent,
    ← delivers.contentsEq, World.contents_valueOf delivers.consistent serverAlive]
  exact ite_self _

/-- What came in mirrors the loaded entities exactly if the copies the client had
agree with them in all that was not resent. -/
theorem Delivers.mirrors_iff
    (apart : registry.FieldsApart)
    (consistent : c.world.store.Consistent registry) :
    c'.Mirrors registry (Contents.ofRecords registry records) c.Owns ↔
      c.AgreesWith registry records delta := by
  have carries : ∀ e t, w.Carries registry (r'.beforeDelta delta) e t ↔
      (Contents.ofRecords registry records).Shares registry e t ∧
        Client.resentBuckets registry records delta e t ≠ [] := fun e t =>
    loaded.carries_iff delivers.consistent delivers.contentsEq
  constructor
  · intro mirrors
    constructor
    · exact fun e replicated => (mirrors.replicated e).mp
        ((delivers.replicated e).mpr (Or.inl replicated))
    · rintro e ⟨alive, local'⟩ shared
      obtain replicated | ⟨_, dead | ⟨t, sent⟩⟩ :=
        (delivers.replicated e).mp ((mirrors.replicated e).mpr shared)
      · exact absurd replicated local'
      · exact Bool.noConfusion (dead.symm.trans alive)
      · exact ⟨t, (carries e t).mp sent⟩
    · exact fun e alive t shares =>
        (delivers.shows_iff loaded alive shares).mp (mirrors.shows e t shares)
    · intro e alive t shares schema registered fd inFields sent
      have value := mirrors.values e t shares schema registered fd inFields sent
      rw [delivers.value_held loaded apart consistent alive shares registered
        inFields] at value
      by_cases carried :
          fd.CarriedBy (Client.resentBuckets registry records delta e t)
      · exact Or.inl carried
      · rw [if_neg carried] at value
        exact Or.inr value
  · intro agrees
    constructor
    · intro e
      rw [delivers.replicated]
      refine ⟨fun sources => ?_, fun shared => ?_⟩
      · exact sources.elim (agrees.ghosts e) And.left
      · by_cases replicated : e ∈ c.replicated
        · exact Or.inl replicated
        · refine Or.inr ⟨shared, ?_⟩
          cases alive : c.world.isAlive e with
          | false => exact Or.inl rfl
          | true =>
              obtain ⟨t, sent⟩ := agrees.own e ⟨alive, replicated⟩ shared
              exact Or.inr ⟨t, (carries e t).mpr sent⟩
    · intro e
      cases alive : c.world.isAlive e with
      | false =>
          have notOwn : ¬c.Owns e := fun own =>
            Bool.noConfusion (alive.symm.trans own.1)
          rw [or_iff_left notOwn, ← World.contents_isSome]
          constructor
          · intro aliveNow
            by_contra unshared
            rw [delivers.held e fun shared => absurd shared unshared,
              World.contents_of_dead alive] at aliveNow
            exact Bool.noConfusion aliveNow
          · intro shared
            rw [delivers.fresh e shared alive]
            rfl
      | true =>
          refine iff_of_true ?_ ?_
          · rw [← World.contents_isSome, delivers.held e fun _ => alive,
              World.contents_of_alive alive]
            rfl
          · by_cases replicated : e ∈ c.replicated
            · exact Or.inl (agrees.ghosts e replicated)
            · exact Or.inr ⟨alive, replicated⟩
    · intro e t shares
      cases alive : c.world.isAlive e with
      | false => exact delivers.fresh_shows alive shares
      | true =>
          exact (delivers.shows_iff loaded alive shares).mpr
            (agrees.shows e alive t shares)
    · intro e t shares schema registered fd inFields sent
      cases alive : c.world.isAlive e with
      | false =>
          exact delivers.value_fresh loaded apart alive shares registered
            inFields sent
      | true =>
          rw [delivers.value_held loaded apart consistent alive shares
            registered inFields]
          split
          · rfl
          · rename_i kept
            exact (agrees.values e alive t shares schema registered fd inFields
              sent).resolve_left kept

omit loaded in
/-- A full state leaves exactly the loaded entities and the client's own. -/
theorem Delivers.reconciled_mirrors
    (apart : registry.FieldsApart) {c'' : Client}
    (reconciled : Client.Reconciled registry w c' c'') :
    c''.Mirrors registry (Contents.ofRecords registry records) c.Owns := by
  have consistent := delivers.consistent
  have replicates : ∀ e, w.Replicates registry e ↔
      (Contents.ofRecords registry records).Shared registry e := by
    intro e
    rw [← delivers.contentsEq, World.shared_iff consistent]
  have whole : ∀ e t,
      (Contents.ofRecords registry records).Shares registry e t →
      c''.world.contents e =
        some ((w.spawnRecord registry e).components registry) := by
    intro e t shares
    rw [reconciled.contents, if_pos ((replicates e).mpr ⟨t, shares⟩)]
  constructor
  · exact fun e => (reconciled.replicated e).trans (replicates e)
  · intro e
    rw [← World.contents_isSome, reconciled.contents]
    by_cases shared : (Contents.ofRecords registry records).Shared registry e
    · rw [if_pos ((replicates e).mpr shared)]
      exact iff_of_true rfl (Or.inl shared)
    · rw [if_neg (mt (replicates e).mp shared), or_iff_right shared]
      have sameReplicated : e ∈ c'.replicated ↔ e ∈ c.replicated := by
        rw [delivers.replicated]
        exact or_iff_left fun both => shared both.1
      by_cases replicated : e ∈ c.replicated
      · rw [if_pos (sameReplicated.mpr replicated)]
        exact iff_of_false Bool.false_ne_true fun own => own.2 replicated
      · rw [if_neg (mt sameReplicated.mp replicated),
          delivers.held e fun isShared => absurd isShared shared,
          Option.isSome_map, World.contents_isSome]
        exact (and_iff_left replicated).symm
  · intro e t shares
    refine ⟨shares.1, ?_⟩
    rw [whole e t shares, Option.bind_some,
      spawnRecord_components_isSome consistent]
    exact delivers.mem_networkedOf_iff.mpr shares
  · intro e t shares schema registered fd inFields sent
    rw [Contents.valueOf_of_eq (whole e t shares),
      World.spawnRecord_valueOf consistent apart registered
        (delivers.mem_networkedOf_iff.mpr shares) inFields sent,
      delivers.contentsEq]

end Delivered
end AfterLoad

/-- After the tick that follows a load, the client replicates the loaded entities
with their values exactly if the tick sends a full state that lists somebody or
the copies the client had agree with the loaded entities in all that is not
resent. -/
theorem load_mirrors_iff
    {l : Link} (stable : l.server.Stable registry) (idle : l.server.Idle)
    (rest : l.client.world.AtRest registry) (apart : registry.FieldsApart)
    {data : List UInt8} (inMemory : data.length < sizeLimit)
    {records : List EntityRecord}
    (parsed : parseSnapshot registry data = some records)
    (entityOrder : List Entity) (typeOrder : Entity → List ComponentTypeId)
    {order : List Ptr} {delta : ℚ}
    (fits : (LinkOp.tick order delta).Fits registry
      ((LinkOp.rehash entityOrder typeOrder).apply registry
        (l.load registry data))) :
    ((LinkOp.tick order delta).apply registry
      ((LinkOp.rehash entityOrder typeOrder).apply registry
        (l.load registry data))).client.Mirrors registry
        (Contents.ofRecords registry records) l.client.Owns ↔
      l.replication.reconciliationInterval ≤ delta ∧
        (∃ e, (Contents.ofRecords registry records).Shared registry e) ∨
      l.client.AgreesWith registry records delta := by
  obtain ⟨stable', contentsEq, loadedFirst⟩ :=
    load_spec stable idle inMemory parsed
  have loaded := loadedFirst.rehash entityOrder typeOrder
  have consistent := stable'.consistent
  have admissible := (World.parseSnapshot_eq_some.mp parsed).2
  obtain ⟨spawned, updated, despawned, spawns, updates, despawns, reconciled,
    unreconciled⟩ := Client.receiveTick_spec consistent loaded.sets fits rest
  have delivers := loaded.delivers consistent contentsEq admissible spawns
    updates despawns
  have reconciles : ((l.load registry data).replication.rehash entityOrder
      typeOrder).Reconciles delta ↔
      l.replication.reconciliationInterval ≤ delta := by
    unfold Replication.Reconciles
    rw [loaded.rest, ge_iff_le, zero_add]
  have arrives : (l.load registry data).server.FullStateArrives registry
      order ↔ ∃ e, (Contents.ofRecords registry records).Shared registry e := by
    have replicates : ∀ e, (l.load registry data).server.Replicates registry e ↔
        (Contents.ofRecords registry records).Shared registry e := by
      intro e
      rw [← contentsEq, World.shared_iff consistent]
    rw [World.fullStateArrives_iff consistent fits.fullState.sorted.perm]
    simp only [replicates]
    refine and_iff_left_of_imp fun _ e shared => ?_
    exact (idRefused_eq_false_iff e).mp (admissible.accepted shared)
  by_cases full : l.replication.reconciliationInterval ≤ delta ∧
      ∃ e, (Contents.ofRecords registry records).Shared registry e
  · refine iff_of_true ?_ (Or.inl full)
    exact delivers.reconciled_mirrors apart
      (reconciled ⟨reconciles.mpr full.1, arrives.mpr full.2⟩)
  · rw [or_iff_right full]
    have same := unreconciled fun both =>
      full ⟨reconciles.mp both.1, arrives.mp both.2⟩
    have clientEq : ((LinkOp.tick order delta).apply registry
        ((LinkOp.rehash entityOrder typeOrder).apply registry
          (l.load registry data))).client = despawned := same
    rw [clientEq]
    exact delivers.mirrors_iff loaded apart rest.stable.consistent

/-- A server with one entity, `hp` 7, that has ticked once. -/
@[irreducible] def healthLink : Link :=
  (start ComponentRegistry.healthRegistry (WorldOp.run
    ComponentRegistry.healthRegistry
      [.createEntity, .addRaw ⟨1⟩ 1 (some [7])]).state).tick
        ComponentRegistry.healthRegistry [1, 0] 1

/-- A snapshot with the same entity, `hp` 9. -/
@[irreducible] def healthSave : List UInt8 :=
  [1, 0, 1, 0, 0, 0, 1, 0, 0, 0, 0, 0, 0, 0, 1, 0, 1, 0, 0, 0, 9]

/-- The saved world. -/
theorem healthSave_parsed :
    parseSnapshot ComponentRegistry.healthRegistry healthSave =
      some [⟨1, [⟨1, [], [9]⟩]⟩] := by
  decide +kernel

/-- The link it is loaded on is in step. -/
theorem healthLink_inStep :
    healthLink.InStep ComponentRegistry.healthRegistry := by
  unfold healthLink
  have issuesDead : Traced.Accepted Effect.IssuesDead
      (WorldOp.run ComponentRegistry.healthRegistry
        [.createEntity, .addRaw ⟨1⟩ 1 (some [7])]) := by decide +kernel
  have stable := WorldOp.run_stable issuesDead
  exact tick_inStep (start_inStep stable (WorldOp.run_idle _ _))
    ⟨World.fullStateFits_of_few stable.consistent (by decide)
      ⟨by decide +kernel, by decide +kernel⟩ (by decide +kernel)
      (by decide +kernel), by decide +kernel, by decide +kernel,
      by decide +kernel, by decide +kernel⟩

/-- Its fields share no bytes. -/
theorem healthRegistry_fieldsApart :
    ComponentRegistry.healthRegistry.FieldsApart := by
  have noSchemas : ({} : ComponentRegistry).FieldsApart :=
    fun _ none => absurd none List.not_mem_nil
  exact noSchemas.register (by decide)

/-- A tick with a full state behind a load that gives an entity another value. -/
theorem load_mirrors_health :
    ((LinkOp.tick [1, 0] 30).apply ComponentRegistry.healthRegistry
      ((LinkOp.rehash [] fun _ => []).apply ComponentRegistry.healthRegistry
        (healthLink.load ComponentRegistry.healthRegistry
          healthSave))).client.Mirrors ComponentRegistry.healthRegistry
        (Contents.ofRecords ComponentRegistry.healthRegistry
          [⟨1, [⟨1, [], [9]⟩]⟩]) healthLink.client.Owns := by
  have inStep := healthLink_inStep
  have loaded := (load_spec inStep.stable inStep.idle (by decide +kernel)
    healthSave_parsed).1
  have sorted : SortedBySignature (healthLink.load
      ComponentRegistry.healthRegistry healthSave).server.store [1, 0] :=
    ⟨by decide +kernel, by decide +kernel⟩
  have fullState := World.fullStateFits_of_few loaded.consistent (by decide)
    sorted (by decide +kernel) (by decide +kernel)
  have fits : (LinkOp.tick [1, 0] 30).Fits ComponentRegistry.healthRegistry
      ((LinkOp.rehash [] fun _ => []).apply ComponentRegistry.healthRegistry
        (healthLink.load ComponentRegistry.healthRegistry healthSave)) := by
    constructor
    · exact fullState
    · decide +kernel
    · decide +kernel
    · decide +kernel
    · decide +kernel
  have due : healthLink.replication.reconciliationInterval ≤ 30 := by
    decide +kernel
  have shared : (Contents.ofRecords ComponentRegistry.healthRegistry
      [⟨1, [⟨1, [], [9]⟩]⟩]).Shared ComponentRegistry.healthRegistry ⟨1⟩ :=
    ⟨1, by decide +kernel, by decide +kernel⟩
  exact (load_mirrors_iff inStep.stable inStep.idle inStep.rest
    healthRegistry_fieldsApart (by decide +kernel) healthSave_parsed [] (fun _ => [])
    fits).mpr (Or.inl ⟨due, ⟨1⟩, shared⟩)

/-- The client of a server that ticked once shows what is on the server. -/
theorem healthLink_mirrors :
    healthLink.client.Mirrors ComponentRegistry.healthRegistry
      healthLink.server.contents healthLink.client.Owns := by
  have onlyServer : ∀ e t, healthLink.server.contents.Shares
      ComponentRegistry.healthRegistry e t → e = ⟨1⟩ ∧ t = 1 := by
    intro e t shares
    rw [World.shares_iff healthLink_inStep.stable.consistent] at shares
    have alive := World.alive_of_replicates (List.ne_nil_of_mem shares)
    obtain ⟨loc, location⟩ := World.location_of_isAlive alive
    have listed : e ∈ healthLink.server.store.entityLocations.keys :=
      AList.mem_keys.mpr (AList.lookup_isSome.mp (by rw [location]; rfl))
    have keys : healthLink.server.store.entityLocations.keys = [⟨1⟩] := by
      decide +kernel
    rw [keys, List.mem_singleton] at listed
    subst listed
    have types : healthLink.server.networkedOf
        ComponentRegistry.healthRegistry ⟨1⟩ = [1] := by decide +kernel
    rw [types, List.mem_singleton] at shares
    exact ⟨rfl, shares⟩
  have shared : ∀ e, healthLink.server.contents.Shared
      ComponentRegistry.healthRegistry e ↔ e = ⟨1⟩ := by
    intro e
    refine ⟨fun ⟨t, shares⟩ => (onlyServer e t shares).1, ?_⟩
    rintro rfl
    exact ⟨1, by decide +kernel, by decide +kernel⟩
  have replicated : healthLink.client.replicated = [⟨1⟩] := by decide +kernel
  constructor
  · intro e
    rw [replicated, List.mem_singleton, shared]
  · intro e
    unfold Client.Owns
    rw [shared, replicated, List.mem_singleton]
    constructor
    · intro alive
      by_cases same : e = ⟨1⟩
      · exact Or.inl same
      · exact Or.inr ⟨alive, same⟩
    · rintro (rfl | ⟨alive, _⟩)
      · decide +kernel
      · exact alive
  · intro e t shares
    obtain ⟨rfl, rfl⟩ := onlyServer e t shares
    exact ⟨by decide +kernel, by decide +kernel⟩
  · intro e t shares schema registered fd inFields _
    obtain ⟨rfl, rfl⟩ := onlyServer e t shares
    have same : healthLink.client.world.getRaw ⟨1⟩ 1 =
        healthLink.server.getRaw ⟨1⟩ 1 := by decide +kernel
    rw [World.contents_valueOf healthLink_inStep.rest.stable.consistent
        (by decide +kernel),
      World.contents_valueOf healthLink_inStep.stable.consistent
        (by decide +kernel), same]

/-- A load that gives an entity another value does not reach a client that has
the entity. -/
theorem not_load_mirrors_health :
    healthLink.client.Mirrors ComponentRegistry.healthRegistry
      healthLink.server.contents healthLink.client.Owns ∧
    (deserializeWorldSnapshot ComponentRegistry.healthRegistry
      healthLink.server ⟨healthSave, 0⟩).2 = true ∧
    ¬((LinkOp.tick [1, 0] 1).apply ComponentRegistry.healthRegistry
      (healthLink.load ComponentRegistry.healthRegistry
        healthSave)).client.Mirrors ComponentRegistry.healthRegistry
        (healthLink.load ComponentRegistry.healthRegistry
          healthSave).server.contents healthLink.client.Owns := by
  refine ⟨healthLink_mirrors, by decide +kernel, fun mirrors => ?_⟩
  have value := mirrors.values ⟨1⟩ 1 ⟨by decide +kernel, by decide +kernel⟩ _
    rfl _ List.mem_cons_self rfl
  revert value
  decide +kernel

end Link
end VortarisECS
