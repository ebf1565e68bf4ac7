import Mathlib.Algebra.Order.BigOperators.Group.List
import VortarisECS.Serialization.FieldMask

/-!
# The size of a component on the wire

The validators skip a component by the size its schema has on the wire, a sum in
`size_t`.  The writer and the reader go field by field.  They agree as long as
neither the sum nor a cursor that is moved over one field wraps.
-/

namespace VortarisECS

/-- A `std::vector<uint8_t>` holds fewer bytes than this. -/
def vectorLimit : Nat := 2 ^ 63

/-- The buffer is one a program can have. -/
structure BinaryBuffer.InMemory (buf : BinaryBuffer) : Prop where
  inside : buf.pos ≤ buf.data.length
  short : buf.data.length < vectorLimit

/-- The writer appends `size` bytes. -/
def WritesSize (write : List UInt8 → BinaryBuffer → BinaryBuffer)
    (size : Nat) : Prop :=
  ∀ inst buf, ∃ bytes, bytes.length = size ∧
    (write inst buf).data = buf.data ++ bytes

/-- The reader takes `size` bytes, and fails if fewer are left. -/
def ReadsSize
    (read : List UInt8 → BinaryBuffer → List UInt8 × Option BinaryBuffer)
    (size : Nat) : Prop :=
  ∀ inst buf, buf.InMemory →
    (read inst buf).2 =
      if size ≤ buf.data.length - buf.pos then
        some { buf with pos := buf.pos + size }
      else none

/-- A mask written is read back, and has `fieldMaskBytes` bytes. -/
def MaskReadsBack (mask : List Bool) : Prop :=
  ∀ buf later, buf.data.length + fieldMaskBytes mask.length + later.length <
      vectorLimit →
    readFieldMask ⟨(writeFieldMask buf mask).data ++ later, buf.data.length⟩
        mask.length =
      some (mask, ⟨(writeFieldMask buf mask).data ++ later,
        buf.data.length + fieldMaskBytes mask.length⟩)

/-- The sizes of a schema are those of its writers and readers. -/
structure SizesAgree (schema : ComponentSchema) (mask : List Bool) : Prop where
  writesFields :
    WritesSize (fun inst buf => serializeComponentFields schema inst buf mask)
      (serializedComponentFieldsSize schema mask)
  readsFields :
    ReadsSize (fun inst buf => deserializeComponentFields schema inst buf mask)
      (serializedComponentFieldsSize schema mask)
  writesComponent :
    WritesSize (serializeComponent schema) (serializedComponentSize schema)
  readsComponent :
    ReadsSize (deserializeComponent schema) (serializedComponentSize schema)
  maskReadsBack : MaskReadsBack mask

/-- The sizes of the fields sum up within `size_t`, and no cursor wraps over a
field that is copied as raw storage. -/
structure FieldsFit (fields : List FieldDescriptor) : Prop where
  sum : wireSize fields < sizeLimit
  raw : ∀ fd ∈ fields, fd.type.scalarWidth = none →
    fd.storageSize ≤ vectorLimit

/-! ## Masks -/

/-- A mask reads back as it was written. -/
theorem maskReadsBack (mask : List Bool) : MaskReadsBack mask := by
  intro buf later short
  have sized : (encodeMask mask).length = fieldMaskBytes mask.length := by
    rw [encodeMask, List.length_flatMap, ← length_packMask]
    simp [length_littleEndian]
  rw [writeFieldMask_eq, BinaryBuffer.writeBytes_data]
  have remaining : BinaryBuffer.Remaining
      ⟨buf.data ++ encodeMask mask ++ later, buf.data.length⟩
      (encodeMask mask ++ later) := by
    refine ⟨?_, ?_, ?_⟩
    · dsimp only
      rw [List.append_assoc, List.length_append]
      exact Nat.le_add_right _ _
    · dsimp only
      rw [List.append_assoc, List.drop_left]
    · dsimp only
      rw [List.length_append, List.length_append, sized]
      exact short.trans (by decide)
  obtain ⟨read, _⟩ := readFieldMask_follows mask.length _ _ mask later remaining
    (maskParser_reads rfl later)
  dsimp only at read
  rw [read]
  unfold BinaryBuffer.upTo
  dsimp only
  rw [List.length_append, List.length_append, sized, Nat.add_sub_cancel]

/-! ## Fields that fit -/

theorem FieldsFit.tail
    {fd : FieldDescriptor} {fields : List FieldDescriptor}
    (fit : FieldsFit (fd :: fields)) : FieldsFit fields where
  sum := by
    have := fit.sum
    have split : wireSize (fd :: fields) =
        fieldSize fd + wireSize fields := rfl
    omega
  raw later member := fit.raw later (List.mem_cons_of_mem fd member)

/-- What fits fits with any mask. -/
theorem FieldsFit.masked
    {fields : List FieldDescriptor} (fit : FieldsFit fields)
    (mask : List Bool) : FieldsFit (maskedFields fields mask) := by
  have sublist := maskedFields_sublist fields mask
  refine ⟨lt_of_le_of_lt ?_ fit.sum,
    fun fd member => fit.raw fd (sublist.subset member)⟩
  exact (sublist.map fieldSize).sum_le_sum (fun _ _ => Nat.zero_le _)

/-- Fields that fit are written in their size. -/
theorem FieldsFit.writesSize
    {fields : List FieldDescriptor} (fit : FieldsFit fields) :
    WritesSize (writeFields fields) (fieldsSize fields) := by
  intro inst buf
  rw [fieldsSize_eq_wireSize fit.sum, writeFields_data]
  exact ⟨_, length_encodeFields fields inst, rfl⟩

/-- A field that is not all there is not read. -/
theorem readField_eq_none
    {fd : FieldDescriptor} {buf : BinaryBuffer} (inMemory : buf.InMemory)
    (raw : fd.type.scalarWidth = none → fd.storageSize ≤ vectorLimit)
    (few : buf.data.length - buf.pos < fieldSize fd) (inst : List UInt8) :
    readField fd inst buf = none := by
  have inside := inMemory.inside
  unfold readField
  unfold fieldSize at few
  cases widthEq : fd.type.scalarWidth with
  | some width =>
      rw [widthEq] at few
      dsimp only at few ⊢
      unfold BinaryBuffer.readNumber BinaryBuffer.size
      rw [if_pos (by omega)]
      rfl
  | none =>
      rw [widthEq] at few
      dsimp only at few ⊢
      have noWrap : buf.pos + fd.storageSize < sizeLimit := by
        have cursor : buf.pos < 2 ^ 63 := lt_of_le_of_lt inside inMemory.short
        have small : fd.storageSize ≤ 2 ^ 63 := raw widthEq
        unfold sizeLimit
        omega
      unfold BinaryBuffer.readBytes BinaryBuffer.size
      rw [sizeT_of_lt noWrap, if_pos (by omega)]
      rfl

theorem BinaryBuffer.InMemory.remaining
    {buf : BinaryBuffer} (inMemory : buf.InMemory) :
    buf.Remaining (buf.data.drop buf.pos) :=
  ⟨inMemory.inside, rfl, inMemory.short.trans (by decide)⟩

/-- The fields are read exactly if they are all there. -/
theorem FieldsFit.readsSize
    {fields : List FieldDescriptor} (fit : FieldsFit fields) :
    ReadsSize (readFields fields) (fieldsSize fields) := by
  rw [fieldsSize_eq_wireSize fit.sum]
  induction fields with
  | nil =>
      intro inst buf _
      have nothing : wireSize [] = 0 := rfl
      rw [nothing, if_pos (Nat.zero_le _)]
      rfl
  | cons fd fields inductionHypothesis =>
      intro inst buf inMemory
      have inside := inMemory.inside
      have split : wireSize (fd :: fields) =
          fieldSize fd + wireSize fields := rfl
      rw [split]
      unfold readFields
      by_cases few : buf.data.length - buf.pos < fieldSize fd
      · rw [readField_eq_none inMemory (fit.raw fd List.mem_cons_self) few,
          if_neg (by omega)]
      · have here : fieldSize fd ≤ (buf.data.drop buf.pos).length := by
          rw [List.length_drop]
          omega
        obtain ⟨_, cursor⟩ := inMemory.remaining.advance here
        rw [readField_of_remaining inMemory.remaining here]
        dsimp only
        have after : BinaryBuffer.InMemory
            (buf.upTo ((buf.data.drop buf.pos).drop (fieldSize fd))) := by
          refine ⟨?_, inMemory.short⟩
          rw [cursor, BinaryBuffer.upTo_data]
          omega
        rw [inductionHypothesis fit.tail _ _ after, cursor,
          BinaryBuffer.upTo_data]
        by_cases rest :
            wireSize fields ≤ buf.data.length - (buf.pos + fieldSize fd)
        · rw [if_pos rest, if_pos (by omega), ← Nat.add_assoc]
        · rw [if_neg rest, if_neg (by omega)]

/-! ## Fields that do not fit -/

/-- The wrapped size of a list of fields. -/
theorem fieldsSize_lt (fields : List FieldDescriptor) :
    fieldsSize fields < sizeLimit := by
  have limit : 0 < sizeLimit := by decide
  refine List.foldlRecOn (motive := fun total => total < sizeLimit) fields _
    limit fun total _ fd _ => ?_
  exact Nat.mod_lt _ limit

/-- The writer appends what the sum says only if the sum does not wrap. -/
theorem wireSize_lt_of_writesSize
    {fields : List FieldDescriptor}
    (writes : WritesSize (writeFields fields) (fieldsSize fields)) :
    wireSize fields < sizeLimit := by
  obtain ⟨bytes, sized, written⟩ := writes [] {}
  rw [writeFields_data, BinaryBuffer.writeBytes_data] at written
  have exact' := congrArg List.length (List.append_cancel_left written)
  rw [length_encodeFields, sized] at exact'
  rw [exact']
  exact fieldsSize_lt fields

/-- Reading two lists of fields is reading one after the other. -/
theorem readFields_append
    (first later : List FieldDescriptor) (inst : List UInt8)
    (buf : BinaryBuffer) :
    readFields (first ++ later) inst buf =
      match readFields first inst buf with
      | (inst, none) => (inst, none)
      | (inst, some buf) => readFields later inst buf := by
  induction first generalizing inst buf with
  | nil => rfl
  | cons fd first inductionHypothesis =>
      rw [List.cons_append, readFields, readFields]
      cases readField fd inst buf with
      | none => rfl
      | some read => exact inductionHypothesis read.1 read.2

/-- A cursor that wraps over a raw field lets the reader start over: it does
not fail, although bytes are missing. -/
theorem raw_le_of_readsSize
    {fields : List FieldDescriptor} (sum : wireSize fields < sizeLimit)
    (reads : ReadsSize (readFields fields) (fieldsSize fields))
    {fd : FieldDescriptor} (member : fd ∈ fields)
    (raw : fd.type.scalarWidth = none) : fd.storageSize ≤ vectorLimit := by
  by_contra large
  have large : 2 ^ 63 < fd.storageSize := Nat.lt_of_not_le large
  obtain ⟨earlier, later, rfl⟩ := List.append_of_mem member
  have width : fieldSize fd = fd.storageSize := by
    unfold fieldSize
    rw [raw]
  have split : wireSize (earlier ++ fd :: later) =
      wireSize earlier + (fieldSize fd + wireSize later) := by
    unfold wireSize
    rw [List.map_append, List.sum_append, List.map_cons, List.sum_cons]
  have total : wireSize earlier + (fd.storageSize + wireSize later) <
      2 ^ 64 := by
    rw [← width, ← split]
    exact sum
  -- the cursor reaches the end of the buffer before the field and wraps to zero
  let buf : BinaryBuffer :=
    ⟨List.replicate (2 ^ 64 - fd.storageSize) 0,
      2 ^ 64 - fd.storageSize - wireSize earlier⟩
  have length : buf.data.length = 2 ^ 64 - fd.storageSize :=
    List.length_replicate
  have pos : buf.pos = 2 ^ 64 - fd.storageSize - wireSize earlier := rfl
  clear_value buf
  have inMemory : buf.InMemory := by
    refine ⟨by omega, ?_⟩
    rw [length]
    unfold vectorLimit
    omega
  have fails := reads [] buf inMemory
  rw [fieldsSize_eq_wireSize sum, split, width, if_neg (by omega),
    readFields_append] at fails
  have here : wireSize earlier ≤ (buf.data.drop buf.pos).length := by
    rw [List.length_drop]
    omega
  obtain ⟨_, cursor⟩ := inMemory.remaining.advance here
  have sameData := buf.upTo_data ((buf.data.drop buf.pos).drop
    (wireSize earlier))
  rw [readFields_of_remaining inMemory.remaining here] at fails
  dsimp only at fails
  generalize buf.upTo _ = atEnd at cursor sameData fails
  have wraps : sizeT (atEnd.pos + fd.storageSize) = 0 := by
    rw [show atEnd.pos + fd.storageSize = sizeLimit by unfold sizeLimit; omega]
    exact Nat.mod_self _
  have startsOver : (readField fd
      (storeFields earlier [] ((buf.data.drop buf.pos).take (wireSize earlier)))
      atEnd).map Prod.snd = some ⟨atEnd.data, 0⟩ := by
    unfold readField BinaryBuffer.readBytes
    rw [raw, wraps, if_neg (Nat.not_lt_zero _)]
    rfl
  obtain ⟨⟨inst, started⟩, read, rfl⟩ := Option.map_eq_some_iff.mp startsOver
  have remaining : BinaryBuffer.Remaining ⟨atEnd.data, 0⟩ atEnd.data := by
    refine BinaryBuffer.remaining_start ?_
    rw [sameData]
    exact inMemory.short.trans (by decide)
  rw [readFields, read] at fails
  dsimp only at fails
  rw [readFields_of_remaining remaining (by rw [sameData]; omega)] at fails
  cases fails

/-! ## The sizes of a schema -/

/-- The sizes of a schema are those of its writers and readers exactly if its
fields fit. -/
theorem sizesAgree_iff (schema : ComponentSchema) (mask : List Bool) :
    SizesAgree schema mask ↔ FieldsFit schema.fields := by
  constructor
  · intro agree
    have sum := wireSize_lt_of_writesSize agree.writesComponent
    exact ⟨sum, fun fd member raw =>
      raw_le_of_readsSize sum agree.readsComponent member raw⟩
  · intro fit
    exact ⟨(fit.masked mask).writesSize, (fit.masked mask).readsSize,
      fit.writesSize, fit.readsSize, maskReadsBack mask⟩

/-- Four raw fields whose sizes sum up to zero in `size_t`: the validator skips
no byte, and the reader misses some. -/
theorem not_sizesAgree_blobs :
    let field : String → FieldDescriptor := fun name =>
      { name := name, type := .blob, count := 2 ^ 62 }
    let registered := ({} : ComponentRegistry).registerSchemaComponent
      .singlePrecision "Chunk" [field "a", field "b", field "c", field "d"]
    ∃ schema, registered.2.schemaOf registered.1 = some schema ∧
      ¬SizesAgree schema [] := by
  intro field registered
  refine ⟨_, rfl, fun agree => ?_⟩
  have fails := agree.readsComponent [] {} ⟨Nat.le_refl _, by decide⟩
  exact absurd fails (by decide +kernel)

end VortarisECS
