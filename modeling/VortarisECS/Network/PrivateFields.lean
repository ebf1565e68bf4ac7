import VortarisECS.Core.AlikeSteps
import VortarisECS.Network.Server

/-!
# Private fields

What a server sends depends on its worlds only through the entities, their
components and the fields that cross the wire.  Two runs that differ in nothing
but other fields send the same packets.
-/

namespace VortarisECS

variable {registry : ComponentRegistry}

/-! ## Loads of the same bytes -/

/-- How far fields are read does not depend on the instance. -/
theorem readFields_cursor
    (fields : List FieldDescriptor) (base base' : List UInt8)
    (buf : BinaryBuffer) :
    (readFields fields base buf).2 = (readFields fields base' buf).2 := by
  induction fields generalizing base base' buf with
  | nil => rfl
  | cons fd fields inductionHypothesis =>
      unfold readFields readField
      cases fd.type.scalarWidth with
      | none =>
          dsimp only
          cases buf.readBytes fd.storageSize with
          | none => rfl
          | some read => exact inductionHypothesis _ _ _
      | some width =>
          dsimp only
          cases buf.readNumber width with
          | none => rfl
          | some read => exact inductionHypothesis _ _ _

/-- On the same bytes, the act takes alike worlds to alike worlds and gets as
far in both. -/
def Act.KeepsAlike (act : Act Effect World) : Prop :=
  ∀ (w v : World) (buf : BinaryBuffer), w.Alike v →
    StepAlike (act w buf).1 (act v buf).1 ∧ (act w buf).2 = (act v buf).2

/-- Acts that keep worlds alike, one after the other. -/
theorem Act.KeepsAlike.times
    {act : Act Effect World} (keeps : act.KeepsAlike) (count : Nat) :
    (act.times count).KeepsAlike := by
  induction count with
  | zero => exact fun w v buf alike => ⟨.pure alike, rfl⟩
  | succ count inductionHypothesis =>
      intro w v buf alike
      obtain ⟨steps, cursors⟩ := keeps w v buf alike
      unfold Act.times
      generalize act w buf = first at steps cursors ⊢
      generalize act v buf = second at steps cursors ⊢
      obtain ⟨step, cursor⟩ := first
      obtain ⟨step', cursor'⟩ := second
      obtain rfl : cursor = cursor' := cursors
      cases cursor with
      | none => exact ⟨steps, rfl⟩
      | some rest =>
          obtain ⟨later, cursors⟩ := inductionHypothesis step.state step'.state
            rest steps.state
          exact ⟨steps.followedBy later, cursors⟩

namespace World

/-- A component that is received keeps worlds alike. -/
theorem receiveBlock_keepsAlike (e : Entity) :
    (receiveBlock registry .whole e).KeepsAlike := by
  intro w v buf alike
  unfold receiveBlock
  cases buf.readU32 with
  | none => exact ⟨.pure alike, rfl⟩
  | some read =>
      dsimp only
      cases registry.schemaOf (UInt32.ofNat read.1) with
      | none => exact ⟨.pure alike, rfl⟩
      | some schema =>
          dsimp only
          have added := addRaw_alike registry alike e
            (UInt32.ofNat read.1) none none
          have same := added.state.getRaw_isSome e (UInt32.ofNat read.1)
          cases found : (w.addRaw registry e (UInt32.ofNat read.1)
              none).state.getRaw e (UInt32.ofNat read.1) with
          | none =>
              rw [found, Option.isSome_none] at same
              rw [Option.isNone_iff_eq_none.mp
                (Option.isSome_eq_false_iff.mp same.symm)]
              exact ⟨added, rfl⟩
          | some dst =>
              rw [found, Option.isSome_some] at same
              obtain ⟨dst', found'⟩ := Option.isSome_iff_exists.mp same.symm
              rw [found']
              dsimp only
              exact ⟨added.mapState (added.state.both (alike_writeRaw _ _ _ _)
                  (alike_writeRaw _ _ _ _)),
                readFields_cursor schema.fields dst dst' read.2⟩

variable (registry) in
/-- So do the components of an entity. -/
theorem receiveBlocks_keepsAlike (e : Entity) :
    (receiveBlocks registry .whole e).KeepsAlike := by
  intro w v buf alike
  unfold receiveBlocks
  cases buf.readU16 with
  | none => exact ⟨.pure alike, rfl⟩
  | some read => exact (receiveBlock_keepsAlike e).times read.1 w v read.2 alike

/-- The handle of a given id does not depend on bytes. -/
theorem Alike.preassignedHandle {w v : World} (alike : w.Alike v) (id : UInt64) :
    w.preassignedHandle id = v.preassignedHandle id := by
  unfold World.preassignedHandle ArchetypeStore.isAlive
  rw [alike.locations]

/-- A record that is received keeps worlds alike. -/
theorem receiveRecord_keepsAlike :
    (receiveRecord registry .whole).KeepsAlike := by
  intro w v buf alike
  unfold receiveRecord
  cases buf.readU64 with
  | none => exact ⟨.pure alike, rfl⟩
  | some read =>
      dsimp only
      have created := createEntityPreassigned_alike alike (UInt64.ofNat read.1)
      rw [alike.preassignedHandle]
      split
      · exact ⟨created, rfl⟩
      · obtain ⟨received, cursors⟩ := receiveBlocks_keepsAlike
          registry (v.preassignedHandle (UInt64.ofNat read.1)) _ _
          read.2 created.state
        exact ⟨created.followedBy received, cursors⟩

theorem rebuildWorld_keepsAlike : (rebuildWorld registry).KeepsAlike := by
  intro w v buf alike
  unfold rebuildWorld
  cases buf.readU16 with
  | none => exact ⟨.pure alike, rfl⟩
  | some read =>
      dsimp only
      split
      · exact ⟨.pure alike, rfl⟩
      · cases read.2.readU32 with
        | none => exact ⟨.pure alike, rfl⟩
        | some counted =>
            exact receiveRecord_keepsAlike.times counted.1 w v counted.2 alike

/-- A snapshot is loaded alike. -/
theorem deserializeWorldSnapshot_alike
    {w v : World} (alike : w.Alike v) (buf : BinaryBuffer) :
    StepAlike (deserializeWorldSnapshot registry w buf).1
      (deserializeWorldSnapshot registry v buf).1 := by
  unfold deserializeWorldSnapshot
  split
  · exact (clear_alike alike).followedBy
      (rebuildWorld_keepsAlike _ _ buf (clear_alike alike).state).1
  · exact .pure alike

/-- A write through a reference. -/
theorem alike_poke
    (w : World) (e : Entity) (t : ComponentTypeId) (offset : Nat)
    (bytes : List UInt8) : w.Alike (w.poke e t offset bytes) := by
  unfold poke
  split
  · exact .refl w
  · exact alike_writeRaw w e t _

end World

/-! ## What crosses the wire -/

/-- The value of a field: a number, a text up to its first NUL, or raw bytes. -/
def FieldDescriptor.value (fd : FieldDescriptor) (inst : List UInt8) :
    List UInt8 :=
  match fd.type.scalarWidth with
  | some width => fd.bytesOf inst width
  | none =>
      if fd.type = .stringFixed then
        (fd.bytesOf inst fd.storageSize).takeWhile (· ≠ 0)
      else fd.bytesOf inst fd.storageSize

/-- The fields of a component that are neither local nor left out of the
network. -/
def publicFields (registry : ComponentRegistry) (t : ComponentTypeId) :
    List FieldDescriptor :=
  match registry.schemaOf t with
  | none => []
  | some schema =>
      if isNetworked registry t then schema.fields.filter (·.isSent) else []

/-- Whatever entity and component of the first world: its public fields have
the same values in both. -/
def World.PublicAgree (registry : ComponentRegistry) (w v : World) : Prop :=
  ∀ e ∈ w.store.entityLocations.keys, ∀ t ∈ w.getEntityComponentTypes e,
    ∀ fd ∈ publicFields registry t,
      fd.value ((w.getRaw e t).getD []) = fd.value ((v.getRaw e t).getD [])

-- component type ids are finitely many, and not to be enumerated
instance (w v : World) : Decidable (w.PublicAgree registry v) :=
  have (e : Entity) : Decidable (∀ t ∈ w.getEntityComponentTypes e,
      ∀ fd ∈ publicFields registry t,
        fd.value ((w.getRaw e t).getD []) = fd.value ((v.getRaw e t).getD [])) :=
    List.decidableBAll _ _
  inferInstanceAs (Decidable (∀ e ∈ w.store.entityLocations.keys, _))

/-- A field is written as its value and its size say. -/
theorem encodeField_of_value
    {fd : FieldDescriptor} {inst inst' : List UInt8}
    (same : fd.value inst = fd.value inst') :
    encodeField fd inst = encodeField fd inst' := by
  unfold FieldDescriptor.value at same
  unfold encodeField
  generalize fd.type.scalarWidth = scalar at same ⊢
  cases scalar with
  | some width => exact same
  | none =>
      dsimp only at same ⊢
      split
      · rw [if_pos ‹_›, if_pos ‹_›] at same
        unfold padString
        dsimp only
        rw [same, fd.length_bytesOf, fd.length_bytesOf]
      · rw [if_neg ‹_›, if_neg ‹_›] at same
        exact same

/-- Only sent fields are among those a mask of sent fields selects. -/
theorem mem_maskedFields
    {fields : List FieldDescriptor} {selects : FieldDescriptor → Bool}
    {fd : FieldDescriptor}
    (member : fd ∈ maskedFields fields (fields.map selects)) :
    fd ∈ fields ∧ selects fd = true := by
  induction fields with
  | nil => exact absurd member List.not_mem_nil
  | cons first fields inductionHypothesis =>
      rw [List.map_cons, maskedFields] at member
      split at member
      · obtain rfl | later := List.mem_cons.mp member
        · exact ⟨List.mem_cons_self, ‹_›⟩
        · exact ⟨List.mem_cons_of_mem _ (inductionHypothesis later).1,
            (inductionHypothesis later).2⟩
      · exact ⟨List.mem_cons_of_mem _ (inductionHypothesis member).1,
          (inductionHypothesis member).2⟩

/-- Instances with the same public values. -/
def SamePublic (schema : ComponentSchema) (inst inst' : List UInt8) : Prop :=
  ∀ fd ∈ schema.fields, fd.isSent = true → fd.value inst = fd.value inst'

/-- A mask of sent fields alone. -/
def SentMask (schema : ComponentSchema) (mask : List Bool) : Prop :=
  ∃ selects : FieldDescriptor → Bool,
    mask = schema.fields.map selects ∧
      ∀ fd, selects fd = true → fd.isSent = true

/-- Masks of sent fields show public bytes only. -/
theorem serializeComponentFields_public
    {schema : ComponentSchema} {inst inst' : List UInt8}
    (same : SamePublic schema inst inst') {mask : List Bool}
    (sent : SentMask schema mask) (buf : BinaryBuffer) :
    serializeComponentFields schema inst buf mask =
      serializeComponentFields schema inst' buf mask := by
  obtain ⟨selects, rfl, sends⟩ := sent
  unfold serializeComponentFields
  rw [writeFields_data, writeFields_data]
  have encoded : ∀ fd ∈ maskedFields schema.fields (schema.fields.map selects),
      encodeField fd inst = encodeField fd inst' := fun fd member =>
    encodeField_of_value (same fd (mem_maskedFields member).1
      (sends fd (mem_maskedFields member).2))
  unfold encodeFields
  rw [List.flatMap_congr encoded]

/-- A spawn mask has sent fields only. -/
theorem spawnMaskOf_sent
    {t : ComponentTypeId} {schema : ComponentSchema}
    (registered : registry.schemaOf t = some schema) :
    SentMask schema (spawnMaskOf registry t) := by
  refine ⟨(·.isSent), ?_, fun _ sent => sent⟩
  unfold spawnMaskOf syncPlanFor
  rw [registered]

/-- So have the masks of buckets. -/
theorem buckets_sent
    {t : ComponentTypeId} {schema : ComponentSchema}
    (registered : registry.schemaOf t = some schema) {bucket : SyncBucket}
    (member : bucket ∈ (syncPlanFor registry t).buckets) :
    SentMask schema bucket.2.2 := by
  obtain ⟨entry, inPlan, rfl⟩ := List.mem_map.mp member
  have masked := (List.of_mem_zip (List.fst_mem_of_mem_zipIdx inPlan)).2
  unfold syncPlanFor at masked
  rw [registered] at masked
  obtain ⟨interval, _, maskEq⟩ := List.mem_map.mp masked
  refine ⟨_, maskEq.symm, fun fd selected => ?_⟩
  rw [Bool.and_eq_true] at selected
  exact selected.1

/-! ## Sending -/

variable {w v : World}

/-- Worlds with the same entities, components and public values. -/
structure World.SameWire (registry : ComponentRegistry) (w v : World) :
    Prop where
  alike : w.Alike v
  agree : w.PublicAgree registry v

/-- A component with an instance is one of a listed entity. -/
theorem World.mem_types_of_getRaw
    {e : Entity} {t : ComponentTypeId} {inst : List UInt8}
    (found : w.getRaw e t = some inst) :
    e ∈ w.store.entityLocations.keys ∧ t ∈ w.getEntityComponentTypes e := by
  unfold getRaw at found
  cases located : w.store.entityLocations.lookup e with
  | none =>
      rw [located] at found
      exact absurd found (by simp)
  | some loc =>
      rw [located] at found
      dsimp only at found
      have there : e ∈ w.store.entityLocations.keys := AList.mem_keys.mp
        (AList.lookup_isSome.mp (by rw [located]; rfl))
      refine ⟨there, ?_⟩
      split at found
      · rename_i held
        unfold getEntityComponentTypes ArchetypeStore.typesOf isAlive
          ArchetypeStore.isAlive
        rw [located, if_pos (by simp [held.1])]
        exact Archetype.hasComponent_iff.mp held.2
      · exact absurd found (by simp)

namespace World.SameWire

theorem has (same : SameWire registry w v) (e : Entity) (t : ComponentTypeId) :
    w.has e t = v.has e t := by
  unfold World.has
  rw [same.alike.locations]
  cases v.store.entityLocations.lookup e with
  | none => rfl
  | some loc =>
      dsimp only
      rw [same.alike.hasComponent]

/-- The instances of a component, in either both worlds or neither. -/
theorem instances
    (same : SameWire registry w v) (e : Entity) {t : ComponentTypeId}
    (networked : isNetworked registry t = true) {schema : ComponentSchema}
    (registered : registry.schemaOf t = some schema) :
    Option.Rel (SamePublic schema) (w.getRaw e t) (v.getRaw e t) := by
  have both := same.alike.getRaw_isSome e t
  cases found : w.getRaw e t with
  | none =>
      rw [found, Option.isSome_none] at both
      rw [Option.isNone_iff_eq_none.mp (Option.isSome_eq_false_iff.mp both.symm)]
      exact .none
  | some inst =>
      rw [found, Option.isSome_some] at both
      obtain ⟨inst', found'⟩ := Option.isSome_iff_exists.mp both.symm
      rw [found']
      refine .some fun fd inFields sent => ?_
      obtain ⟨located, inTypes⟩ := mem_types_of_getRaw found
      have values := same.agree e located t inTypes fd (by
        unfold publicFields
        rw [registered]
        dsimp only
        rw [if_pos networked]
        exact List.mem_filter.mpr ⟨inFields, sent⟩)
      rw [found, found'] at values
      exact values

/-- A component is written the same. -/
theorem serializeComponentBlock
    (same : SameWire registry w v) (e : Entity) (buf : BinaryBuffer)
    {t : ComponentTypeId} (networked : isNetworked registry t = true) :
    w.serializeComponentBlock registry e buf t =
      v.serializeComponentBlock registry e buf t := by
  unfold World.serializeComponentBlock
  cases registered : registry.schemaOf t with
  | none => rfl
  | some schema =>
      have instances := same.instances e networked registered
      dsimp only
      generalize w.getRaw e t = first at instances ⊢
      generalize v.getRaw e t = second at instances ⊢
      cases instances with
      | none => rfl
      | some values =>
          exact serializeComponentFields_public values
            (spawnMaskOf_sent registered) _

/-- An entity is written the same. -/
theorem serializeNetworked
    (same : SameWire registry w v) (types : List ComponentTypeId) (e : Entity) :
    w.serializeNetworked registry types e =
      v.serializeNetworked registry types e := by
  unfold World.serializeNetworked
  exact List.foldl_ext _ _ _ fun buf t member =>
    same.serializeComponentBlock e buf (List.mem_filter.mp member).2

/-- A full state is written the same. -/
theorem serializeFullState
    (same : SameWire registry w v) (order : List Ptr) :
    w.serializeFullState registry order =
      v.serializeFullState registry order := by
  have row : w.fullStateRow registry = v.fullStateRow registry := by
    funext types acc e
    unfold fullStateRow
    rw [same.serializeNetworked]
  unfold World.serializeFullState
  simp only [row, same.alike.componentIds,
    ArchetypeStore.entities_of_shape same.alike.store]

/-- A spawn packet is written the same. -/
theorem spawnPacket (same : SameWire registry w v) (e : Entity) :
    Replication.spawnPacket registry w e =
      Replication.spawnPacket registry v e := by
  unfold Replication.spawnPacket
  dsimp only
  rw [same.alike.types, same.serializeNetworked]

/-- A bucket of sent fields. -/
theorem sendBucket
    {schema : ComponentSchema} {inst inst' : List UInt8}
    (values : SamePublic schema inst inst') (elapsed : ℚ) (sends : BucketSends)
    {bucket : SyncBucket} (sent : SentMask schema bucket.2.2) :
    VortarisECS.sendBucket schema inst elapsed sends bucket =
      VortarisECS.sendBucket schema inst' elapsed sends bucket := by
  obtain ⟨index, interval, mask⟩ := bucket
  unfold VortarisECS.sendBucket
  dsimp only
  rw [serializeComponentFields_public values sent]

/-- A component is sent the same. -/
theorem sendComponent
    (same : SameWire registry w v) (elapsed : ℚ) (e : Entity)
    (sends : ComponentSends) (t : ComponentTypeId) :
    VortarisECS.sendComponent registry w elapsed e sends t =
      VortarisECS.sendComponent registry v elapsed e sends t := by
  unfold VortarisECS.sendComponent
  rw [same.has]
  split
  · rfl
  · rename_i sendable
    have networked : isNetworked registry t = true := by
      cases networked : isNetworked registry t with
      | true => rfl
      | false => simp [networked] at sendable
    dsimp only
    cases registered : registry.schemaOf t with
    | none => rfl
    | some schema =>
        have instances := same.instances e networked registered
        generalize w.getRaw e t = first at instances ⊢
        generalize v.getRaw e t = second at instances ⊢
        cases instances with
        | none => rfl
        | some values =>
            dsimp only
            rw [List.foldl_ext _ _ _ fun sends bucket member =>
              sendBucket values elapsed sends (buckets_sent registered member)]

/-- An entity is sent the same. -/
theorem sendEntity
    (same : SameWire registry w v) (elapsed : ℚ) :
    VortarisECS.sendEntity registry w elapsed =
      VortarisECS.sendEntity registry v elapsed := by
  have component : VortarisECS.sendComponent registry w elapsed =
      VortarisECS.sendComponent registry v elapsed := by
    funext e sends t
    exact same.sendComponent elapsed e sends t
  funext sends entry
  unfold VortarisECS.sendEntity
  dsimp only
  rw [component, same.alike.isAlive]

/-- A delta is the same. -/
theorem buildDelta (same : SameWire registry w v) (r : Replication) :
    r.buildDelta registry w = r.buildDelta registry v := by
  unfold Replication.buildDelta
  rw [same.sendEntity]

/-- A tick sends the same packets from both worlds. -/
theorem tick
    (same : SameWire registry w v) (r : Replication) (order : List Ptr)
    (delta : ℚ) :
    r.tick registry w order delta = r.tick registry v order delta := by
  have spawns : ∀ r : Replication,
      r.sendSpawns registry w = r.sendSpawns registry v := by
    intro r
    unfold Replication.sendSpawns
    simp only [same.alike.isAlive, same.spawnPacket]
  have deltas : ∀ r : Replication,
      r.sendDelta registry w = r.sendDelta registry v := by
    intro r
    unfold Replication.sendDelta
    rw [same.buildDelta]
  have fullStates : ∀ r : Replication,
      r.reconcile registry w order delta =
        r.reconcile registry v order delta := by
    intro r
    unfold Replication.reconcile
    rw [same.serializeFullState]
  unfold Replication.tick
  simp only [spawns, deltas, fullStates]

end World.SameWire

/-! ## Two runs -/

/-- Alike worlds are seeded the same. -/
theorem Replication.seedFromWorld_alike
    (alike : w.Alike v) (r : Replication) :
    r.seedFromWorld registry w = r.seedFromWorld registry v := by
  have lists := (ArchetypeStore.shape_eq_iff.mp alike.store).2.2.1
  unfold seedFromWorld
  simp only [lists, alike.componentIds,
    ArchetypeStore.entities_of_shape alike.store]

/-- An event is heard the same. -/
theorem Replication.onWorldEvent_alike
    (r : Replication) {effect effect' : Effect} (alike : effect.Alike effect') :
    r.onWorldEvent registry effect = r.onWorldEvent registry effect' := by
  cases effect with
  | dispatched type e t name seen =>
      cases effect' with
      | dispatched type' e' t' name' seen' =>
          obtain ⟨⟨rfl, rfl, rfl, rfl⟩, worlds⟩ := alike
          cases type with
          | removed =>
              dsimp only [onWorldEvent, onEntityComponentRemoved]
              rw [worlds.types]
          | _ => rfl
      | _ => exact alike.elim
  | _ => cases effect' <;> first | rfl | exact alike.elim

variable (registry) in
theorem Replication.onWorldEvents_alike
    (r : Replication) {effects effects' : List Effect}
    (alike : List.Forall₂ Effect.Alike effects effects') :
    r.onWorldEvents registry effects = r.onWorldEvents registry effects' := by
  induction alike generalizing r with
  | nil => rfl
  | cons head _ inductionHypothesis =>
      unfold onWorldEvents
      rw [List.foldl_cons, List.foldl_cons, onWorldEvent_alike r head]
      exact inductionHypothesis _

/-- Two steps that differ at most in the bytes that are written. -/
def ServerOp.Same : ServerOp → ServerOp → Prop
  | world op, world op' => op.Same op'
  | poke e t offset _, poke e' t' offset' _ => e = e' ∧ t = t' ∧ offset = offset'
  | op, op' => op = op'

namespace ServerOp

variable (registry) in
/-- The world's part of a step keeps worlds alike. -/
theorem onWorld_alike
    (alike : w.Alike v) {op op' : ServerOp} (same : op.Same op') :
    StepAlike (op.onWorld registry w) (op'.onWorld registry v) := by
  cases op with
  | world op =>
      cases op' with
      | world op' => exact WorldOp.apply_alike registry alike same
      | _ => exact ServerOp.noConfusion same
  | poke e t offset bytes =>
      cases op' with
      | poke e' t' offset' bytes' =>
          exact .pure (alike.both (World.alike_poke _ _ _ _ _)
            (World.alike_poke _ _ _ _ _))
      | _ => exact ServerOp.noConfusion same
  | deserializeSnapshot data =>
      obtain rfl : _ = op' := by cases op' <;> exact same
      exact World.deserializeWorldSnapshot_alike alike ⟨data, 0⟩
  | _ =>
      obtain rfl : _ = op' := by cases op' <;> exact same
      exact .pure alike

/-- The replication's part of a step is the same for worlds that agree on the
wire. -/
theorem onReplication_sameWire
    (worlds : World.SameWire registry w v) {op op' : ServerOp}
    (same : op.Same op') (r : Replication) :
    op.onReplication registry w r = op'.onReplication registry v r := by
  cases op with
  | world op =>
      cases op' with
      | world op' => rfl
      | _ => exact ServerOp.noConfusion same
  | poke e t offset bytes =>
      cases op' with
      | poke e' t' offset' bytes' => rfl
      | _ => exact ServerOp.noConfusion same
  | tick order delta =>
      obtain rfl : _ = op' := by cases op' <;> exact same
      exact worlds.tick r order delta
  | requestFullState order =>
      obtain rfl : _ = op' := by cases op' <;> exact same
      dsimp only [onReplication]
      rw [worlds.serializeFullState]
  | _ =>
      obtain rfl : _ = op' := by cases op' <;> exact same
      rfl

/-- The same step of two servers with the same sending side, in worlds that
agree after it. -/
theorem apply_sameWire
    {s s' : Server} (alike : s.world.Alike s'.world)
    (sending : s.replication = s'.replication) {op op' : ServerOp}
    (same : op.Same op')
    (agree : (op.apply registry s).1.world.PublicAgree registry
      (op'.apply registry s').1.world) :
    (op.apply registry s).1.world.Alike (op'.apply registry s').1.world ∧
    (op.apply registry s).1.replication =
      (op'.apply registry s').1.replication ∧
    (op.apply registry s).2 = (op'.apply registry s').2 := by
  have stepped := onWorld_alike registry alike same
  have sent := onReplication_sameWire ⟨stepped.state, agree⟩ same
    (s.replication.onWorldEvents registry (op.onWorld registry s.world).effects)
  have events := Replication.onWorldEvents_alike registry
    s.replication stepped.effects
  have sides : op.onReplication registry (op.onWorld registry s.world).state
        (s.replication.onWorldEvents registry
          (op.onWorld registry s.world).effects) =
      op'.onReplication registry (op'.onWorld registry s'.world).state
        (s'.replication.onWorldEvents registry
          (op'.onWorld registry s'.world).effects) := by
    rw [sent, events, sending]
  have packets := congrArg Prod.snd sides
  exact ⟨stepped.state, congrArg Prod.fst sides, packets⟩

end ServerOp

namespace Server

/-- Runs whose worlds agree in public send the same. -/
theorem run_sameWire
    {s s' : Server} (alike : s.world.Alike s'.world)
    (sending : s.replication = s'.replication) {ops ops' : List ServerOp}
    (same : List.Forall₂ ServerOp.Same ops ops')
    (agree : ∀ n ≤ ops.length, World.PublicAgree registry
      (s.run registry (ops.take n)).1.world
      (s'.run registry (ops'.take n)).1.world) :
    (s.run registry ops).2 = (s'.run registry ops').2 := by
  induction same generalizing s s' with
  | nil => rfl
  | @cons op op' ops ops' head rest inductionHypothesis =>
      have first := agree 1 (by simp)
      obtain ⟨worlds, sides, sent⟩ := ServerOp.apply_sameWire alike sending head
        first
      have later := inductionHypothesis worlds sides fun n within =>
        agree (n + 1) (by simpa using within)
      unfold run
      dsimp only
      rw [sent, later]

/-- Two runs of a server from fresh worlds, before and after it is bound, that
do the same and differ in the values of private fields alone send the same
packets. -/
theorem run_privateFields
    (prelude prelude' : List WorldOp) (ops ops' : List ServerOp)
    (samePrelude : List.Forall₂ WorldOp.Same prelude prelude')
    (same : List.Forall₂ ServerOp.Same ops ops')
    (agree : ∀ n ≤ ops.length, World.PublicAgree registry
      ((bindWorld registry (WorldOp.run registry prelude).state).run registry
        (ops.take n)).1.world
      ((bindWorld registry (WorldOp.run registry prelude').state).run registry
        (ops'.take n)).1.world) :
    ((bindWorld registry (WorldOp.run registry prelude).state).run registry
        ops).2 =
      ((bindWorld registry (WorldOp.run registry prelude').state).run registry
        ops').2 := by
  have start := (StepAlike.forEach WorldOp.Same
    (fun alike same => WorldOp.apply_alike registry alike same)
    samePrelude (World.Alike.refl (World.empty registry))).state
  refine run_sameWire start ?_ same agree
  exact Replication.seedFromWorld_alike start {}

end Server

/-- A registry with a component whose second field stays on the server. -/
def ComponentRegistry.treasureRegistry : ComponentRegistry :=
  (ComponentRegistry.registerSchemaComponent .singlePrecision {} "Treasure"
    [{ name := "value", type := .u8 },
      { name := "trap", type := .u8, syncPriority := syncLocal }]).2

/-- Two treasures with different traps, set and changed in different ways. -/
theorem Server.run_privateFields_treasure :
    let registry := ComponentRegistry.treasureRegistry
    let s := bindWorld registry (WorldOp.run registry
      [.createEntity, .addRaw ⟨1⟩ 1 (some [7, 1])]).state
    let s' := bindWorld registry (WorldOp.run registry
      [.createEntity, .addRaw ⟨1⟩ 1 (some [7, 2])]).state
    (s.run registry [.tick [1, 0] 1, .poke ⟨1⟩ 1 1 [3],
        .world (.setField ⟨1⟩ 1 "trap" [4]), .tick [1, 0] 1,
        .requestFullState [1, 0]]).2 =
      (s'.run registry [.tick [1, 0] 1, .poke ⟨1⟩ 1 1 [5],
        .world (.setField ⟨1⟩ 1 "trap" [6]), .tick [1, 0] 1,
        .requestFullState [1, 0]]).2 := by
  refine run_privateFields [.createEntity, .addRaw ⟨1⟩ 1 (some [7, 1])]
    [.createEntity, .addRaw ⟨1⟩ 1 (some [7, 2])] _ _ ?_ ?_ (by decide +kernel)
  · exact .cons rfl (.cons ⟨rfl, rfl⟩ .nil)
  · exact .cons rfl (.cons ⟨rfl, rfl, rfl⟩ (.cons ⟨rfl, rfl, rfl⟩
      (.cons rfl (.cons rfl .nil))))

end VortarisECS
