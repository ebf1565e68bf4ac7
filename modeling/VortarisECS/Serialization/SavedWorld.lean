import VortarisECS.Core.RowOrder
import VortarisECS.Serialization.RecordEncoding
import VortarisECS.Serialization.Snapshot

/-!
# What a save holds

A save lists the rows of all archetypes as records.  It counts them in 32 bits;
a loader reads that many and refuses ids it could not create.
-/

namespace VortarisECS
namespace World

variable {registry : ComponentRegistry} {w : World} {order : List Ptr}

/-- An entity as a save describes it. -/
def savedRecord (registry : ComponentRegistry) (w : World) (e : Entity) :
    EntityRecord :=
  w.recordOf registry (fun _ => []) (w.getEntityComponentTypes e) e

/-- The entities a save lists. -/
def savedRecords (registry : ComponentRegistry) (w : World)
    (order : List Ptr) : List EntityRecord :=
  (w.store.listing order).map (w.savedRecord registry)

/-- The saved entities are the live ones. -/
theorem mem_listing_iff_isAlive
    (consistent : w.store.Consistent registry)
    (perm : order.Perm w.store.archetypeList) {e : Entity} :
    e ∈ w.store.listing order ↔ w.isAlive e = true := by
  rw [ArchetypeStore.mem_listing_iff consistent perm]
  constructor
  · intro located
    obtain ⟨loc, location⟩ := ArchetypeStore.isAlive_iff.mp located
    exact isAlive_of_location consistent location
  · exact fun alive => (Bool.and_eq_true_iff.mp alive).2

theorem savedRecords_ids (w : World) (order : List Ptr) :
    (w.savedRecords registry order).map EntityRecord.id =
      (w.store.listing order).map Entity.id := by
  unfold savedRecords
  rw [List.map_map]
  rfl

/-- No entity is saved twice. -/
theorem savedRecords_nodup
    (consistent : w.store.Consistent registry)
    (perm : order.Perm w.store.archetypeList) :
    ((w.savedRecords registry order).map EntityRecord.id).Nodup := by
  rw [savedRecords_ids]
  exact (ArchetypeStore.listing_nodup consistent perm).map
    fun _ _ same => congrArg Entity.mk same

/-- There are as many records as entities. -/
theorem savedRecords_length
    (consistent : w.store.Consistent registry)
    (perm : order.Perm w.store.archetypeList) :
    (w.savedRecords registry order).length = w.store.entityLocations.size := by
  unfold savedRecords
  rw [List.length_map, ArchetypeStore.listing_length consistent perm]

theorem savedRecord_encodable
    (consistent : w.store.Consistent registry) {e : Entity}
    (counted : (w.getEntityComponentTypes e).length < 2 ^ 16) :
    (w.savedRecord registry e).Encodable registry .whole := by
  apply recordOf_encodable counted
  intro t member
  obtain ⟨schema, inst, registered, found⟩ :=
    getRaw_of_mem_types consistent member
  exact ⟨schema, inst, registered, rfl, found⟩

/-! ## What is written -/

/-- One component is saved as its block. -/
theorem saveComponent_eq
    (consistent : w.store.Consistent registry) {p : Ptr}
    (listed : p ∈ w.store.archetypeList) {e : Entity} {row : Nat}
    (found : (w.store.deref p).entities[row]? = some e) {t : ComponentTypeId}
    (present : t ∈ (w.store.deref p).componentIds) (buf : BinaryBuffer) :
    saveComponent registry (w.store.deref p) row buf t = buf.writeBytes
      (encodeBlock .whole (w.blockOf registry e (fun _ => []) t)) := by
  obtain ⟨schema, registered⟩ := Option.isSome_iff_exists.mp
    ((consistent.wellFormed p listed).registered t present)
  unfold saveComponent blockOf
  rw [registered, getRaw_of_row consistent listed found present]
  dsimp only
  rw [serializeComponent, writeFields_data, BinaryBuffer.writeU32,
    BinaryBuffer.writeNumber, BinaryBuffer.writeBytes_writeBytes,
    maskedFields_nil_mask]
  rfl

/-- One row is saved as its record. -/
theorem saveRow_eq
    (consistent : w.store.Consistent registry) {p : Ptr}
    (listed : p ∈ w.store.archetypeList) {e : Entity} {row : Nat}
    (found : (w.store.deref p).entities[row]? = some e) (buf : BinaryBuffer) :
    saveRow registry (w.store.deref p) buf (e, row) =
      buf.writeBytes (encodeRecord .whole (w.savedRecord registry e)) := by
  have types := getEntityComponentTypes_of_row consistent listed
    (List.mem_of_getElem? found)
  unfold saveRow
  rw [BinaryBuffer.foldl_writeBytes fun t present buf =>
      saveComponent_eq consistent listed found present buf,
    BinaryBuffer.writeU64, BinaryBuffer.writeU16, BinaryBuffer.writeNumber,
    BinaryBuffer.writeNumber, BinaryBuffer.writeBytes_writeBytes,
    BinaryBuffer.writeBytes_writeBytes]
  unfold encodeRecord encodeBlocks savedRecord recordOf
  rw [List.flatMap_map, List.length_map, types]

/-- One archetype is saved as the records of its rows. -/
theorem saveArchetype_eq
    (consistent : w.store.Consistent registry) {p : Ptr}
    (listed : p ∈ w.store.archetypeList) (buf : BinaryBuffer) :
    saveArchetype registry w.store buf p = buf.writeBytes
      ((w.store.deref p).entities.flatMap fun e =>
        encodeRecord .whole (w.savedRecord registry e)) := by
  have rows : ∀ entry ∈ (w.store.deref p).entities.zipIdx,
      ∀ buf : BinaryBuffer, saveRow registry (w.store.deref p) buf entry =
        buf.writeBytes (encodeRecord .whole (w.savedRecord registry entry.1)) :=
    fun _ member buf => saveRow_eq consistent listed
      (List.mem_zipIdx_iff_getElem?.mp member) buf
  unfold saveArchetype
  rw [BinaryBuffer.foldl_writeBytes rows]
  congr 1
  have entities := List.zipIdx_map_fst 0 (w.store.deref p).entities
  conv_rhs => rw [← entities]
  rw [List.flatMap_map]

/-- The bytes of a save. -/
theorem serializeWorldSnapshot_data
    (consistent : w.store.Consistent registry)
    (perm : order.Perm w.store.archetypeList) :
    (serializeWorldSnapshot registry w order).data =
      littleEndian 2 snapshotVersion ++
        (littleEndian 4 w.entityCount.toNat ++
          (w.savedRecords registry order).flatMap (encodeRecord .whole)) := by
  unfold serializeWorldSnapshot
  rw [BinaryBuffer.foldl_writeBytes fun p member buf =>
    saveArchetype_eq consistent (perm.mem_iff.mp member) buf]
  unfold BinaryBuffer.writeU16 BinaryBuffer.writeU32 BinaryBuffer.writeNumber
  rw [BinaryBuffer.writeBytes_writeBytes, BinaryBuffer.writeBytes_writeBytes]
  unfold savedRecords ArchetypeStore.listing
  rw [List.flatMap_map, List.flatMap_assoc]
  rfl

/-! ## What is read back -/

/-- The count on the wire wraps at 32 bits. -/
theorem entityCount_toNat_eq
    (consistent : w.store.Consistent registry)
    (perm : order.Perm w.store.archetypeList) :
    w.entityCount.toNat = (w.savedRecords registry order).length % 2 ^ 32 := by
  rw [savedRecords_length consistent perm]
  exact UInt32.toNat_ofNat'

/-- A loader reads as many records as the 32-bit count says. -/
theorem serializeWorldSnapshot_parsed
    (consistent : w.store.Consistent registry)
    (perm : order.Perm w.store.archetypeList)
    (counted : ∀ e, (w.getEntityComponentTypes e).length < 2 ^ 16) :
    ∃ rest, snapshotParser registry
        (serializeWorldSnapshot registry w order).data =
      some ((w.savedRecords registry order).take w.entityCount.toNat, rest) := by
  have shorter : w.entityCount.toNat ≤
      (w.savedRecords registry order).length := by
    rw [entityCount_toNat_eq consistent perm]
    exact Nat.mod_le _ _
  have taken : ((w.savedRecords registry order).take
      w.entityCount.toNat).length = w.entityCount.toNat := by
    rw [List.length_take, Nat.min_eq_left shorter]
  have encodable : ∀ record ∈ (w.savedRecords registry order).take
      w.entityCount.toNat, record.Encodable registry .whole := by
    intro record member
    obtain ⟨e, _, rfl⟩ := List.mem_map.mp (List.mem_of_mem_take member)
    exact savedRecord_encodable consistent (counted e)
  have read := records_read encodable
  rw [taken] at read
  refine ⟨((w.savedRecords registry order).drop
    w.entityCount.toNat).flatMap (encodeRecord .whole), ?_⟩
  rw [serializeWorldSnapshot_data consistent perm]
  refine snapshotParser_eq_some.mpr ⟨_, w.entityCount.toNat, _,
    Parser.reads_number (by decide) _,
    Parser.reads_number w.entityCount.toNat_lt _, ?_⟩
  have split := read (((w.savedRecords registry order).drop
    w.entityCount.toNat).flatMap (encodeRecord .whole))
  rw [← List.flatMap_append, List.take_append_drop] at split
  exact split

/-! ## Loading a save -/

/-- A fresh world loads the save, and has the same entities with the same
component types afterwards. -/
def LoadsBack (registry : ComponentRegistry) (w : World) (order : List Ptr) :
    Prop :=
  let loaded := deserializeWorldSnapshot registry (World.empty registry)
    ⟨(serializeWorldSnapshot registry w order).data, 0⟩
  loaded.2 = true ∧
  ∀ e, loaded.1.state.isAlive e = w.isAlive e ∧
    loaded.1.state.getEntityComponentTypes e = w.getEntityComponentTypes e

/-- Component lists are strictly ascending, so their members determine them. -/
theorem getEntityComponentTypes_ext
    {v : World} (consistent : w.store.Consistent registry)
    (consistent' : v.store.Consistent registry) {e x : Entity}
    (same : ∀ t, t ∈ w.getEntityComponentTypes e ↔
      t ∈ v.getEntityComponentTypes x) :
    w.getEntityComponentTypes e = v.getEntityComponentTypes x := by
  have ascending := getEntityComponentTypes_ascending consistent e
  have ascending' := getEntityComponentTypes_ascending consistent' x
  apply List.Perm.eq_of_pairwise (fun t u _ _ less greater =>
    absurd (less.trans greater) (lt_irrefl t)) ascending ascending'
  exact (List.perm_ext_iff_of_nodup (ascending.imp ne_of_lt)
    (ascending'.imp ne_of_lt)).mpr same

variable (registry) in
/-- A saved record has the types of its entity. -/
theorem savedRecord_types (w : World) (e : Entity) :
    (w.savedRecord registry e).blocks.map ComponentBlock.type =
      w.getEntityComponentTypes e :=
  recordOf_types _ _

theorem savedRecord_registered
    (consistent : w.store.Consistent registry) {e : Entity}
    {block : ComponentBlock}
    (member : block ∈ (w.savedRecord registry e).blocks) :
    (registry.schemaOf block.type).isSome := by
  have inTypes : block.type ∈ w.getEntityComponentTypes e := by
    rw [← w.savedRecord_types registry]
    exact List.mem_map_of_mem member
  obtain ⟨schema, _, registered, _⟩ := getRaw_of_mem_types consistent inTypes
  rw [registered]
  rfl

theorem savedRecord_components_isSome_iff
    (consistent : w.store.Consistent registry) (e : Entity)
    (t : ComponentTypeId) :
    ((w.savedRecord registry e).components registry t).isSome ↔
      t ∈ w.getEntityComponentTypes e := by
  have once := (getEntityComponentTypes_ascending consistent e).imp ne_of_lt
  rw [← savedRecord_types registry] at once ⊢
  exact EntityRecord.components_isSome_iff once
    (fun _ => savedRecord_registered consistent) t

/-- Everybody is listed once, and all of them can be created again exactly when
their slots are in range. -/
theorem savedRecords_admissible_iff
    (consistent : w.store.Consistent registry)
    (perm : order.Perm w.store.archetypeList) :
    Admissible (w.savedRecords registry order) [] ↔
      ∀ e, w.isAlive e = true → e.slot < maxPreassignedSlot := by
  unfold Admissible
  rw [and_iff_left (savedRecords_nodup consistent perm)]
  have listed (e : Entity) := mem_listing_iff_isAlive (e := e) consistent perm
  constructor
  · intro accepted e alive
    exact (idRefused_eq_false_iff e).mp (accepted _ (List.mem_map_of_mem
      ((listed e).mpr alive))).1
  · intro inRange record member
    obtain ⟨e, inListing, rfl⟩ := List.mem_map.mp member
    exact ⟨(idRefused_eq_false_iff e).mpr (inRange e ((listed e).mp inListing)),
      List.not_mem_nil⟩

/-- What the reader makes of a save it accepts. -/
theorem ofRecords_savedRecords
    (consistent : w.store.Consistent registry)
    (perm : order.Perm w.store.archetypeList) {e : Entity}
    (alive : w.isAlive e = true) :
    Contents.ofRecords registry (w.savedRecords registry order) e =
      some ((w.savedRecord registry e).components registry) := by
  have listed := (mem_listing_iff_isAlive consistent perm).mpr alive
  have found := find?_record_of_mem (savedRecords_nodup consistent perm)
    (List.mem_map_of_mem listed)
  unfold Contents.ofRecords
  exact congrArg (Option.map _) found

/-- A save of fewer than 2 ^ 32 entities with ids in range lists everybody. -/
theorem parseSnapshot_savedWorld
    (consistent : w.store.Consistent registry)
    (perm : order.Perm w.store.archetypeList)
    (counted : ∀ e, (w.getEntityComponentTypes e).length < 2 ^ 16)
    (inRange : ∀ e, w.isAlive e = true → e.slot < maxPreassignedSlot)
    (small : w.store.entityLocations.size < 2 ^ 32) :
    parseSnapshot registry (serializeWorldSnapshot registry w order).data =
      some (w.savedRecords registry order) := by
  obtain ⟨rest, grammatical⟩ :=
    serializeWorldSnapshot_parsed consistent perm counted
  have countEq : w.entityCount.toNat =
      (w.savedRecords registry order).length := by
    rw [entityCount_toNat_eq consistent perm, savedRecords_length consistent perm,
      Nat.mod_eq_of_lt small]
  rw [countEq, List.take_length] at grammatical
  exact parseSnapshot_eq_some.mpr ⟨⟨rest, grammatical⟩,
    (savedRecords_admissible_iff consistent perm).mpr inRange⟩

/-- A save that lists everybody, with ids in range, brings everybody back. -/
theorem loadsBack_of_parsed
    (consistent : w.store.Consistent registry)
    (perm : order.Perm w.store.archetypeList)
    (inMemory : (serializeWorldSnapshot registry w order).data.length <
      sizeLimit)
    (parsed : parseSnapshot registry
      (serializeWorldSnapshot registry w order).data =
        some (w.savedRecords registry order)) :
    LoadsBack registry w order := by
  obtain ⟨succeeds, _, awaits, contentsEq⟩ :=
    deserializeWorldSnapshot_of_parsed (empty_stable registry) rfl inMemory
      parsed
  have loadedConsistent := awaits.stable.consistent
  have represented := represents_contents loadedConsistent
  rw [contentsEq] at represented
  have sameAlive : ∀ e, (deserializeWorldSnapshot registry
      (World.empty registry) ⟨(serializeWorldSnapshot registry w order).data,
        0⟩).1.state.isAlive e = w.isAlive e := by
    intro e
    rw [represented.isAlive, Bool.eq_iff_iff, Contents.ofRecords_isSome_iff,
      savedRecords_ids, List.mem_map_of_injective fun _ _ same =>
        congrArg Entity.mk same]
    exact mem_listing_iff_isAlive consistent perm
  refine ⟨succeeds, fun e => ⟨sameAlive e, ?_⟩⟩
  cases alive : w.isAlive e with
  | false =>
      have dead := sameAlive e
      rw [alive] at dead
      unfold getEntityComponentTypes
      rw [alive, dead]
      rfl
  | true =>
      apply getEntityComponentTypes_ext loadedConsistent consistent
      intro t
      rw [represented.mem_types, ofRecords_savedRecords consistent perm alive]
      exact savedRecord_components_isSome_iff consistent e t

/-- A fresh world loads a save exactly when every id in it is in range and the
entities can be counted. -/
theorem loadsBack_iff
    (consistent : w.store.Consistent registry)
    (perm : order.Perm w.store.archetypeList)
    (counted : ∀ e, (w.getEntityComponentTypes e).length < 2 ^ 16)
    (inMemory : (serializeWorldSnapshot registry w order).data.length <
      sizeLimit) :
    LoadsBack registry w order ↔
      (∀ e, w.isAlive e = true → e.slot < maxPreassignedSlot) ∧
        w.store.entityLocations.size < 2 ^ 32 := by
  obtain ⟨rest, grammatical⟩ :=
    serializeWorldSnapshot_parsed consistent perm counted
  constructor
  · rintro ⟨succeeds, same⟩
    have valid : validateSnapshot registry
        ⟨(serializeWorldSnapshot registry w order).data, 0⟩ = true := by
      by_contra refused
      unfold deserializeWorldSnapshot at succeeds
      rw [if_neg refused] at succeeds
      exact absurd succeeds (by simp)
    rw [validateSnapshot_eq inMemory grammatical, decide_eq_true_eq] at valid
    have parsed := parseSnapshot_eq_some.mpr ⟨⟨rest, grammatical⟩, valid⟩
    obtain ⟨_, _, _, contentsEq⟩ := deserializeWorldSnapshot_of_parsed
      (empty_stable registry) rfl inMemory parsed
    have everybody : (w.savedRecords registry order).map EntityRecord.id ⊆
        ((w.savedRecords registry order).take w.entityCount.toNat).map
          EntityRecord.id := by
      intro id member
      rw [savedRecords_ids, List.mem_map] at member
      obtain ⟨e, listed, rfl⟩ := member
      have alive := (mem_listing_iff_isAlive consistent perm).mp listed
      rw [← (same e).1, ← contents_isSome, contentsEq] at alive
      exact Contents.ofRecords_isSome_iff.mp alive
    have shorter := (List.subperm_of_subset
      (savedRecords_nodup consistent perm) everybody).length_le
    rw [List.length_map, List.length_map, List.length_take] at shorter
    have bounded := w.entityCount.toNat_lt
    have sizeEq := savedRecords_length consistent perm
    have complete : (w.savedRecords registry order).take
        w.entityCount.toNat = w.savedRecords registry order :=
      List.take_of_length_le (by omega)
    rw [complete] at valid
    exact ⟨(savedRecords_admissible_iff consistent perm).mp valid, by omega⟩
  · rintro ⟨inRange, small⟩
    exact loadsBack_of_parsed consistent perm inMemory
      (parseSnapshot_savedWorld consistent perm counted inRange small)

end World
end VortarisECS
