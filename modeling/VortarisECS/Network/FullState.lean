import VortarisECS.Core.RowOrder
import VortarisECS.Network.Reconcile
import VortarisECS.Serialization.RecordEncoding

/-!
# Full states

A full state lists every entity with a networked component, with the fields a
spawn carries.  One that lists nobody is not sent.
-/

namespace VortarisECS

/-- The networked ones among some types. -/
def networkedTypes (registry : ComponentRegistry)
    (types : List ComponentTypeId) : List ComponentTypeId :=
  types.filter (isNetworked registry)

/-- The fields of a component that a spawn carries. -/
def spawnMaskOf (registry : ComponentRegistry) (t : ComponentTypeId) :
    List Bool :=
  (syncPlanFor registry t).spawnMask

namespace World

/-- `serialize_component_block`. -/
def serializeComponentBlock (registry : ComponentRegistry) (w : World)
    (e : Entity) (buf : BinaryBuffer) (t : ComponentTypeId) : BinaryBuffer :=
  match registry.schemaOf t with
  | none => buf
  | some schema =>
      match w.getRaw e t with
      | none => buf
      | some data =>
          serializeComponentFields schema data
            (writeFieldMask (buf.writeU32 t.toNat) (spawnMaskOf registry t))
            (spawnMaskOf registry t)

/-- The blocks of the networked components, in a buffer of their own. -/
def serializeNetworked (registry : ComponentRegistry) (w : World)
    (types : List ComponentTypeId) (e : Entity) : BinaryBuffer :=
  (networkedTypes registry types).foldl (w.serializeComponentBlock registry e) {}

/-- One row of a full state: the buffer and the number of entities so far. -/
def fullStateRow (registry : ComponentRegistry) (w : World)
    (types : List ComponentTypeId) (acc : BinaryBuffer × Nat) (e : Entity) :
    BinaryBuffer × Nat :=
  let ncomp := (networkedTypes registry types).length % 2 ^ 16
  if ncomp = 0 then acc
  else
    (((acc.1.writeU64 e.id.toNat).writeU16 ncomp).writeBytes
      (w.serializeNetworked registry types e).data,
      (acc.2 + 1) % 2 ^ 32)

/-- `serialize_full_state`, with the archetypes in the order the sort left them
in. -/
def serializeFullState (registry : ComponentRegistry) (w : World)
    (order : List Ptr) : BinaryBuffer :=
  let versioned := ({} : BinaryBuffer).writeU16 syncVersion
  let (body, count) := order.foldl
    (fun acc p => (w.store.deref p).entities.foldl
      (w.fullStateRow registry (w.store.deref p).componentIds) acc)
    (versioned.writeU32 0, 0)
  if count > 0 then body.overwriteU32 versioned.pos count else {}

/-! ## What is described -/

variable {registry : ComponentRegistry} {w : World} {e : Entity}
variable {order : List Ptr}

/-- The networked components of an entity. -/
def networkedOf (registry : ComponentRegistry) (w : World) (e : Entity) :
    List ComponentTypeId :=
  networkedTypes registry (w.getEntityComponentTypes e)

/-- The entity is alive and has a networked component. -/
def Replicates (registry : ComponentRegistry) (w : World) (e : Entity) : Prop :=
  w.networkedOf registry e ≠ []

instance (e : Entity) : Decidable (w.Replicates registry e) :=
  inferInstanceAs (Decidable (_ ≠ _))

/-- An entity as a spawn describes it. -/
def spawnRecord (registry : ComponentRegistry) (w : World) (e : Entity) :
    EntityRecord :=
  w.recordOf registry (spawnMaskOf registry) (w.networkedOf registry e) e

/-- The entities a full state lists. -/
def fullStateRecords (registry : ComponentRegistry) (w : World)
    (order : List Ptr) : List EntityRecord :=
  ((w.store.listing order).filter (w.Replicates registry ·)).map
    (w.spawnRecord registry)

/-- An entity has no more networked components than there are schemas. -/
theorem networkedOf_length_le
    (consistent : w.store.Consistent registry) (e : Entity) :
    (w.networkedOf registry e).length ≤ registry.schemas.length :=
  (List.length_filter_le _ _).trans
    (getEntityComponentTypes_length_le consistent e)

/-- A spawn mask has a bit for each field. -/
theorem spawnMaskOf_length
    {t : ComponentTypeId} {schema : ComponentSchema}
    (registered : registry.schemaOf t = some schema) :
    (spawnMaskOf registry t).length = schema.fields.length := by
  unfold spawnMaskOf syncPlanFor
  rw [registered]
  exact List.length_map _

/-- The networked components of an entity. -/
theorem mem_networkedOf {t : ComponentTypeId} :
    t ∈ w.networkedOf registry e ↔
      t ∈ w.getEntityComponentTypes e ∧ isNetworked registry t = true :=
  List.mem_filter

/-- A replicated entity is alive. -/
theorem alive_of_replicates (replicates : w.Replicates registry e) :
    w.isAlive e = true := by
  by_contra dead
  apply replicates
  unfold networkedOf getEntityComponentTypes
  rw [if_neg dead]
  rfl

/-- A spawn record can be encoded, as long as its components can be counted. -/
theorem spawnRecord_encodable
    (consistent : w.store.Consistent registry)
    (counted : (w.networkedOf registry e).length < 2 ^ 16) :
    (w.spawnRecord registry e).Encodable registry .masked := by
  apply recordOf_encodable counted
  intro t member
  obtain ⟨schema, inst, registered, found⟩ :=
    getRaw_of_mem_types consistent (mem_networkedOf.mp member).1
  exact ⟨schema, inst, registered, spawnMaskOf_length registered, found⟩

/-! ## What is written -/

/-- What is written of a component. -/
theorem serializeComponentBlock_eq
    (consistent : w.store.Consistent registry) {t : ComponentTypeId}
    (member : t ∈ w.getEntityComponentTypes e) (buf : BinaryBuffer) :
    w.serializeComponentBlock registry e buf t = buf.writeBytes
      (encodeBlock .masked (w.blockOf registry e (spawnMaskOf registry) t)) := by
  obtain ⟨schema, inst, registered, found⟩ :=
    getRaw_of_mem_types consistent member
  unfold serializeComponentBlock blockOf
  rw [registered, found]
  dsimp only
  rw [serializeComponentFields, writeFields_data, writeFieldMask_eq,
    BinaryBuffer.writeU32, BinaryBuffer.writeNumber,
    BinaryBuffer.writeBytes_writeBytes, BinaryBuffer.writeBytes_writeBytes]
  rfl

/-- What is written of an entity. -/
theorem serializeNetworked_data
    (consistent : w.store.Consistent registry) (e : Entity) :
    (w.serializeNetworked registry (w.getEntityComponentTypes e) e).data =
      (w.spawnRecord registry e).blocks.flatMap (encodeBlock .masked) := by
  have written : w.serializeNetworked registry (w.getEntityComponentTypes e) e =
      ({} : BinaryBuffer).writeBytes
        ((w.networkedOf registry e).flatMap fun t => encodeBlock .masked
          (w.blockOf registry e (spawnMaskOf registry) t)) :=
    BinaryBuffer.foldl_writeBytes
      (fun t member buf => serializeComponentBlock_eq consistent
        (mem_networkedOf.mp member).1 buf) {}
  rw [written]
  unfold spawnRecord recordOf
  rw [List.flatMap_map]
  exact List.nil_append _

/-- What is written in a row. -/
theorem fullStateRow_eq
    (consistent : w.store.Consistent registry)
    (counted : (w.networkedOf registry e).length < 2 ^ 16)
    (acc : BinaryBuffer × Nat) :
    w.fullStateRow registry (w.getEntityComponentTypes e) acc e =
      if w.Replicates registry e then
        (acc.1.writeBytes (encodeRecord .masked (w.spawnRecord registry e)),
          (acc.2 + 1) % 2 ^ 32)
      else acc := by
  have countEq : (networkedTypes registry
      (w.getEntityComponentTypes e)).length % 2 ^ 16 =
      (w.networkedOf registry e).length := Nat.mod_eq_of_lt counted
  unfold fullStateRow
  dsimp only
  rw [countEq, serializeNetworked_data consistent]
  by_cases replicates : w.Replicates registry e
  · have some : (w.networkedOf registry e).length ≠ 0 := fun none =>
      replicates (List.length_eq_zero_iff.mp none)
    have blockCount : (w.spawnRecord registry e).blocks.length =
        (w.networkedOf registry e).length := List.length_map _
    rw [if_neg some, if_pos replicates]
    unfold encodeRecord encodeBlocks BinaryBuffer.writeU64 BinaryBuffer.writeU16
      BinaryBuffer.writeNumber
    rw [BinaryBuffer.writeBytes_writeBytes, BinaryBuffer.writeBytes_writeBytes,
      blockCount]
    rfl
  · have none : (w.networkedOf registry e).length = 0 := by
      unfold Replicates at replicates
      rw [not_not] at replicates
      rw [replicates]
      rfl
    rw [if_pos none, if_neg replicates]

/-- All rows, one entity after the other. -/
theorem fullStateRows_eq
    (consistent : w.store.Consistent registry)
    (counted : ∀ e, (w.networkedOf registry e).length < 2 ^ 16)
    (entities : List Entity) (buf : BinaryBuffer) {count : Nat}
    (small : count < 2 ^ 32) :
    let records := (entities.filter (w.Replicates registry ·)).map
      (w.spawnRecord registry)
    entities.foldl
      (fun acc e =>
        w.fullStateRow registry (w.getEntityComponentTypes e) acc e)
      (buf, count) =
      (buf.writeBytes (records.flatMap (encodeRecord .masked)),
        (count + records.length) % 2 ^ 32) := by
  induction entities generalizing buf count with
  | nil =>
      dsimp only
      rw [List.filter_nil, List.map_nil, List.flatMap_nil,
        BinaryBuffer.writeBytes_nil, List.length_nil, Nat.add_zero,
        Nat.mod_eq_of_lt small]
      rfl
  | cons e entities inductionHypothesis =>
      dsimp only
      rw [List.foldl_cons, fullStateRow_eq consistent (counted e)]
      by_cases replicates : w.Replicates registry e
      · rw [if_pos replicates,
          inductionHypothesis _ (Nat.mod_lt _ (by decide)),
          List.filter_cons, if_pos (decide_eq_true replicates), List.map_cons,
          List.flatMap_cons, BinaryBuffer.writeBytes_writeBytes,
          List.length_cons, Nat.mod_add_mod, Nat.add_assoc, Nat.add_comm 1]
      · rw [if_neg replicates, inductionHypothesis _ small, List.filter_cons,
          if_neg (by simpa using replicates)]

/-- The bytes of a full state. -/
theorem serializeFullState_data
    (consistent : w.store.Consistent registry)
    (perm : order.Perm w.store.archetypeList)
    (counted : ∀ e, (w.networkedOf registry e).length < 2 ^ 16)
    (small : (w.fullStateRecords registry order).length < 2 ^ 32) :
    (w.serializeFullState registry order).data =
      if w.fullStateRecords registry order = [] then []
      else littleEndian 2 syncVersion ++
        (littleEndian 4 (w.fullStateRecords registry order).length ++
          (w.fullStateRecords registry order).flatMap
            (encodeRecord .masked)) := by
  have rows := fullStateRows_eq consistent counted (w.store.listing order)
    ((({} : BinaryBuffer).writeU16 syncVersion).writeU32 0)
    (by decide : 0 < 2 ^ 32)
  have sameRows : ∀ (order : List Ptr) (acc : BinaryBuffer × Nat),
      (∀ p ∈ order, p ∈ w.store.archetypeList) →
      order.foldl (fun acc p => (w.store.deref p).entities.foldl
        (w.fullStateRow registry (w.store.deref p).componentIds) acc) acc =
      (w.store.listing order).foldl (fun acc e =>
        w.fullStateRow registry (w.getEntityComponentTypes e) acc e) acc := by
    intro order
    induction order with
    | nil => exact fun _ _ => rfl
    | cons p order inductionHypothesis =>
        intro acc listed
        unfold ArchetypeStore.listing
        rw [List.foldl_cons, List.flatMap_cons, List.foldl_append,
          inductionHypothesis _ fun q member =>
            listed q (List.mem_cons_of_mem p member)]
        unfold ArchetypeStore.listing
        congr 1
        apply List.foldl_ext
        intro acc e member
        rw [getEntityComponentTypes_of_row consistent
          (listed p List.mem_cons_self) member]
  unfold serializeFullState
  dsimp only at rows ⊢
  rw [sameRows order _ fun p member => perm.mem_iff.mp member, rows]
  dsimp only
  rw [Nat.zero_add, ← fullStateRecords, Nat.mod_eq_of_lt small]
  cases records : w.fullStateRecords registry order with
  | nil => rfl
  | cons record later =>
      rw [if_pos (by simp), if_neg (by simp)]
      unfold BinaryBuffer.overwriteU32
      rw [if_neg]
      · rfl
      · unfold BinaryBuffer.size
        simp only [BinaryBuffer.writeU16, BinaryBuffer.writeU32,
          BinaryBuffer.writeNumber, BinaryBuffer.writeBytes,
          List.length_append, length_littleEndian]
        omega

/-! ## What is read back -/

/-- A full state has the replicated entities. -/
theorem mem_fullStateRecords_iff
    (consistent : w.store.Consistent registry)
    (perm : order.Perm w.store.archetypeList) {e : Entity} :
    e.id ∈ (w.fullStateRecords registry order).map EntityRecord.id ↔
      w.Replicates registry e := by
  unfold fullStateRecords
  rw [List.map_map, List.mem_map]
  constructor
  · rintro ⟨x, member, sameId⟩
    have same : x = e := congrArg Entity.mk sameId
    rw [← same]
    exact of_decide_eq_true (List.mem_filter.mp member).2
  · intro replicates
    have alive := alive_of_replicates replicates
    rw [isAlive, Bool.and_eq_true] at alive
    exact ⟨e, List.mem_filter.mpr
      ⟨(ArchetypeStore.mem_listing_iff consistent perm).mpr alive.2,
        decide_eq_true replicates⟩, rfl⟩

/-- It has each of them once. -/
theorem fullStateRecords_nodup
    (consistent : w.store.Consistent registry)
    (perm : order.Perm w.store.archetypeList) :
    ((w.fullStateRecords registry order).map EntityRecord.id).Nodup := by
  unfold fullStateRecords
  rw [List.map_map]
  have injective : Function.Injective
      (EntityRecord.id ∘ w.spawnRecord registry) :=
    fun _ _ same => congrArg Entity.mk same
  exact ((ArchetypeStore.listing_nodup consistent perm).filter _).map injective

/-- The ids of a full state are admissible exactly when every listed entity has
a slot in range. -/
theorem fullStateRecords_admissible_iff
    (consistent : w.store.Consistent registry)
    (perm : order.Perm w.store.archetypeList) :
    Admissible (w.fullStateRecords registry order) [] ↔
      ∀ e, w.Replicates registry e → idRefused e.id = false := by
  constructor
  · rintro ⟨accepted, _⟩ e replicates
    obtain ⟨record, member, sameId⟩ := List.mem_map.mp
      ((mem_fullStateRecords_iff consistent perm).mpr replicates)
    rw [← sameId]
    exact (accepted record member).1
  · intro accepted
    refine ⟨fun record member => ⟨?_, List.not_mem_nil⟩,
      fullStateRecords_nodup consistent perm⟩
    exact accepted ⟨record.id⟩ ((mem_fullStateRecords_iff consistent perm).mp
      (List.mem_map_of_mem member))

/-- A full state is read back as what was put into it. -/
theorem serializeFullState_parsed
    (consistent : w.store.Consistent registry)
    (perm : order.Perm w.store.archetypeList)
    (counted : ∀ e, (w.networkedOf registry e).length < 2 ^ 16)
    (small : (w.fullStateRecords registry order).length < 2 ^ 32)
    (some : w.fullStateRecords registry order ≠ []) :
    parsePacket registry .fullState
        (w.serializeFullState registry order).data =
      Option.some (.fullState (w.fullStateRecords registry order)) := by
  rw [serializeFullState_data consistent perm counted small, if_neg some]
  have encodable : ∀ record ∈ w.fullStateRecords registry order,
      record.Encodable registry .masked := by
    intro record member
    obtain ⟨e, _, rfl⟩ := List.mem_map.mp member
    exact spawnRecord_encodable consistent (counted e)
  have version : versionParser.Reads (littleEndian 2 syncVersion)
      syncVersion := by
    intro rest
    rw [versionParser_eq_some]
    exact ⟨Parser.reads_number (by decide) rest, by decide, by decide⟩
  have content : Parser.Reads
      ((Parser.number 4).andThen fun count =>
        (Parser.many count (recordParser registry .masked)).map
          SyncPacket.fullState) _ _ :=
    (Parser.reads_number small).andThen ((records_read encodable).map _)
  exact (version.andThen content).complete

end World
end VortarisECS
