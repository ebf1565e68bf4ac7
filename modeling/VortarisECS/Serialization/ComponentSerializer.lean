import VortarisECS.Core.Column
import VortarisECS.Library.Patches
import VortarisECS.Serialization.BinaryBuffer

/-!
# Component serialization

The fields of a component are written one after the other.  Scalar fields write
one value of their width, fixed strings their content up to the first NUL and
zeros behind it, and every other field its raw storage.
-/

namespace VortarisECS

/-- The width of the field types that are read and written as one number. -/
def FieldType.scalarWidth : FieldType → Option Nat
  | .bool | .i8 | .u8 => some 1
  | .i16 | .u16 => some 2
  | .i32 | .u32 | .f32 => some 4
  | .i64 | .u64 | .f64 => some 8
  | _ => none

namespace FieldDescriptor

/-- `count` bytes of an instance at the field's place. -/
def bytesOf (fd : FieldDescriptor) (base : List UInt8) (count : Nat) :
    List UInt8 :=
  copyBytes count (base.drop fd.offset)

end FieldDescriptor

/-- A fixed string as written: content up to the first NUL, zeros behind. -/
def padString (bytes : List UInt8) : List UInt8 :=
  let content := bytes.takeWhile (· ≠ 0)
  content ++ List.replicate (bytes.length - content.length) 0

/-- `write_field`. -/
def writeField (fd : FieldDescriptor) (base : List UInt8) (buf : BinaryBuffer) :
    BinaryBuffer :=
  match fd.type.scalarWidth with
  | some width =>
      buf.writeNumber width (ofLittleEndian (fd.bytesOf base width))
  | none =>
      if fd.type = .stringFixed then
        buf.writeBytes (padString (fd.bytesOf base fd.storageSize))
      else buf.writeBytes (fd.bytesOf base fd.storageSize)

/-- `read_field`. -/
def readField (fd : FieldDescriptor) (base : List UInt8) (buf : BinaryBuffer) :
    Option (List UInt8 × BinaryBuffer) :=
  match fd.type.scalarWidth with
  | some width =>
      (buf.readNumber width).map fun (value, rest) =>
        (overlay base fd.offset (littleEndian width value), rest)
  | none =>
      (buf.readBytes fd.storageSize).map fun (bytes, rest) =>
        (overlay base fd.offset bytes, rest)

/-- `field_size`: the bytes of a field on the wire. -/
def fieldSize (fd : FieldDescriptor) : Nat :=
  match fd.type.scalarWidth with
  | some width => width
  | none => fd.storageSize

/-- The fields a mask selects; a field behind the end of the mask is selected. -/
def maskedFields : List FieldDescriptor → List Bool → List FieldDescriptor
  | [], _ => []
  | fields, [] => fields
  | fd :: fields, selected :: mask =>
      if selected then fd :: maskedFields fields mask
      else maskedFields fields mask

/-- An empty mask takes every field. -/
@[simp] theorem maskedFields_nil_mask (fields : List FieldDescriptor) :
    maskedFields fields [] = fields := by
  cases fields <;> rfl

/-- A mask takes fields in their order. -/
theorem maskedFields_sublist
    (fields : List FieldDescriptor) (mask : List Bool) :
    (maskedFields fields mask).Sublist fields := by
  induction fields generalizing mask with
  | nil => exact List.Sublist.refl []
  | cons fd fields inductionHypothesis =>
      cases mask with
      | nil => exact List.Sublist.refl _
      | cons selected mask =>
          rw [maskedFields]
          split
          · exact (inductionHypothesis mask).cons_cons fd
          · exact (inductionHypothesis mask).cons fd

/-- Write fields in order. -/
def writeFields (fields : List FieldDescriptor) (base : List UInt8)
    (buf : BinaryBuffer) : BinaryBuffer :=
  fields.foldl (fun buf fd => writeField fd base buf) buf

/-- Read fields in order.  Returns the instance, with the fields read before the
buffer ran out, and the buffer if it did not. -/
def readFields : List FieldDescriptor → List UInt8 → BinaryBuffer →
    List UInt8 × Option BinaryBuffer
  | [], base, buf => (base, some buf)
  | fd :: fields, base, buf =>
      match readField fd base buf with
      | none => (base, none)
      | some (base, buf) => readFields fields base buf

/-- The wire size of fields, summed in `size_t`. -/
def fieldsSize (fields : List FieldDescriptor) : Nat :=
  fields.foldl (fun total fd => sizeT (total + fieldSize fd)) 0

/-- Append the bytes of all fields. -/
def serializeComponent (schema : ComponentSchema) (inst : List UInt8)
    (buf : BinaryBuffer) : BinaryBuffer :=
  writeFields schema.fields inst buf

/-- The size of all fields on the wire. -/
def serializedComponentSize (schema : ComponentSchema) : Nat :=
  fieldsSize schema.fields

/-- Read all fields. -/
def deserializeComponent (schema : ComponentSchema) (inst : List UInt8)
    (buf : BinaryBuffer) : List UInt8 × Option BinaryBuffer :=
  readFields schema.fields inst buf

/-- Append the bytes of the masked fields. -/
def serializeComponentFields (schema : ComponentSchema) (inst : List UInt8)
    (buf : BinaryBuffer) (mask : List Bool) : BinaryBuffer :=
  writeFields (maskedFields schema.fields mask) inst buf

/-- Read the masked fields. -/
def deserializeComponentFields (schema : ComponentSchema) (inst : List UInt8)
    (buf : BinaryBuffer) (mask : List Bool) :
    List UInt8 × Option BinaryBuffer :=
  readFields (maskedFields schema.fields mask) inst buf

/-- The size of the masked fields on the wire. -/
def serializedComponentFieldsSize (schema : ComponentSchema)
    (mask : List Bool) : Nat :=
  fieldsSize (maskedFields schema.fields mask)

/-- The size of a mask, a bit for each field. -/
def fieldMaskBytes (fieldCount : Nat) : Nat := (fieldCount + 7) / 8

/-! ## The bytes of a field -/

namespace FieldDescriptor

@[simp] theorem length_bytesOf
    (fd : FieldDescriptor) (base : List UInt8) (count : Nat) :
    (fd.bytesOf base count).length = count :=
  length_copyBytes count _

/-- Inside an instance the bytes of a field are a window of it. -/
theorem bytesOf_eq_window
    {fd : FieldDescriptor} {base : List UInt8} {count : Nat}
    (inside : fd.offset + count ≤ base.length) :
    fd.bytesOf base count = window base fd.offset count := by
  unfold bytesOf copyBytes window
  rw [List.length_drop, show count - (base.length - fd.offset) = 0 by omega,
    List.replicate_zero, List.append_nil]

end FieldDescriptor

@[simp] theorem length_padString (bytes : List UInt8) :
    (padString bytes).length = bytes.length := by
  have shorter := (List.takeWhile_sublist (l := bytes) (· ≠ 0)).length_le
  unfold padString
  rw [List.length_append, List.length_replicate]
  omega

/-- What a field writes on the wire. -/
def encodeField (fd : FieldDescriptor) (base : List UInt8) : List UInt8 :=
  match fd.type.scalarWidth with
  | some width => fd.bytesOf base width
  | none =>
      if fd.type = .stringFixed then padString (fd.bytesOf base fd.storageSize)
      else fd.bytesOf base fd.storageSize

/-- An encoded field has the size of the field. -/
@[simp] theorem length_encodeField (fd : FieldDescriptor) (base : List UInt8) :
    (encodeField fd base).length = fieldSize fd := by
  unfold encodeField fieldSize
  split
  · exact fd.length_bytesOf base _
  · split
    · rw [length_padString, fd.length_bytesOf]
    · exact fd.length_bytesOf base _

/-- What fields write on the wire. -/
def encodeFields (fields : List FieldDescriptor) (base : List UInt8) :
    List UInt8 :=
  fields.flatMap (encodeField · base)

/-- Writing a field is writing its encoding. -/
theorem writeField_eq
    (fd : FieldDescriptor) (base : List UInt8) (buf : BinaryBuffer) :
    writeField fd base buf = buf.writeBytes (encodeField fd base) := by
  unfold writeField encodeField
  split
  · rename_i width _
    unfold BinaryBuffer.writeNumber
    have restored := littleEndian_ofLittleEndian (fd.bytesOf base width)
    rw [fd.length_bytesOf] at restored
    rw [restored]
  · split <;> rfl

/-- Writing fields is writing their encodings in order. -/
theorem writeFields_data
    (fields : List FieldDescriptor) (base : List UInt8) (buf : BinaryBuffer) :
    writeFields fields base buf =
      buf.writeBytes (encodeFields fields base) :=
  BinaryBuffer.foldl_writeBytes (fun fd _ b => writeField_eq fd base b) buf

/-! ## Storing the bytes of fields -/

/-- The exact wire size of fields. -/
def wireSize (fields : List FieldDescriptor) : Nat :=
  (fields.map fieldSize).sum

/-- Encoded fields have their wire size. -/
theorem length_encodeFields
    (fields : List FieldDescriptor) (base : List UInt8) :
    (encodeFields fields base).length = wireSize fields := by
  induction fields with
  | nil => rfl
  | cons fd fields inductionHypothesis =>
      rw [encodeFields, List.flatMap_cons, List.length_append,
        length_encodeField, ← encodeFields, inductionHypothesis]
      rfl

/-- As long as it fits, the `size_t` sum is the exact one. -/
theorem fieldsSize_eq_wireSize
    {fields : List FieldDescriptor} (fits : wireSize fields < sizeLimit) :
    fieldsSize fields = wireSize fields := by
  have general : ∀ (fields : List FieldDescriptor) (total : Nat),
      total + wireSize fields < sizeLimit →
      fields.foldl (fun total fd => sizeT (total + fieldSize fd)) total =
        total + wireSize fields := by
    intro fields
    induction fields with
    | nil => exact fun _ _ => rfl
    | cons fd fields inductionHypothesis =>
        intro total small
        have split : wireSize (fd :: fields) =
            fieldSize fd + wireSize fields := rfl
        rw [List.foldl_cons, sizeT_of_lt (by omega),
          inductionHypothesis _ (by omega)]
        omega
  rw [fieldsSize, general fields 0 (by omega), Nat.zero_add]

/-- Put the bytes of fields, as they come off the wire, into their places. -/
def storeFields : List FieldDescriptor → List UInt8 → List UInt8 → List UInt8
  | [], base, _ => base
  | fd :: fields, base, bytes =>
      storeFields fields
        (overlay base fd.offset (bytes.take (fieldSize fd)))
        (bytes.drop (fieldSize fd))

@[simp] theorem length_storeFields
    (fields : List FieldDescriptor) (base bytes : List UInt8) :
    (storeFields fields base bytes).length = base.length := by
  induction fields generalizing base bytes with
  | nil => rfl
  | cons fd fields inductionHypothesis =>
      rw [storeFields, inductionHypothesis, length_overlay]

/-- The places of fields with the bytes they take from a payload. -/
def fieldPatches : List FieldDescriptor → List UInt8 → List Patch
  | [], _ => []
  | fd :: fields, bytes =>
      ⟨fd.offset, bytes.take (fieldSize fd)⟩ ::
        fieldPatches fields (bytes.drop (fieldSize fd))

theorem mem_fieldPatches
    {fields : List FieldDescriptor} {bytes : List UInt8} {patch : Patch}
    (member : patch ∈ fieldPatches fields bytes) :
    ∃ fd ∈ fields, patch.offset = fd.offset ∧
      patch.bytes.length ≤ fieldSize fd := by
  induction fields generalizing bytes with
  | nil => exact absurd member List.not_mem_nil
  | cons fd fields inductionHypothesis =>
      obtain rfl | member := List.mem_cons.mp member
      · exact ⟨fd, List.mem_cons_self, rfl, List.length_take_le _ _⟩
      · obtain ⟨later, laterMember, same⟩ := inductionHypothesis member
        exact ⟨later, List.mem_cons_of_mem fd laterMember, same⟩

/-- Storing fields is patching the instance. -/
theorem storeFields_eq_writePatches
    (fields : List FieldDescriptor) (base bytes : List UInt8) :
    storeFields fields base bytes =
      writePatches base (fieldPatches fields bytes) := by
  induction fields generalizing base bytes with
  | nil => rfl
  | cons fd fields inductionHypothesis =>
      rw [storeFields, inductionHypothesis]
      rfl

/-- Reading a field takes its wire bytes and stores them in their place. -/
theorem readField_of_remaining
    {buf : BinaryBuffer} {input : List UInt8} (remaining : buf.Remaining input)
    {fd : FieldDescriptor} (fits : fieldSize fd ≤ input.length)
    (base : List UInt8) :
    readField fd base buf =
      some (overlay base fd.offset (input.take (fieldSize fd)),
        buf.upTo (input.drop (fieldSize fd))) := by
  unfold readField
  unfold fieldSize at fits ⊢
  cases widthEq : fd.type.scalarWidth with
  | some width =>
      rw [widthEq] at fits
      dsimp only at fits ⊢
      obtain ⟨read, _⟩ := BinaryBuffer.readNumber_follows width buf input _ _
        remaining (Parser.number_eq_some.mpr ⟨fits, rfl, rfl⟩)
      dsimp only at read
      have sized : (input.take width).length = width := by
        rw [List.length_take]
        omega
      have restored := littleEndian_ofLittleEndian (input.take width)
      rw [sized] at restored
      rw [read, Option.map_some, restored]
  | none =>
      rw [widthEq] at fits
      dsimp only at fits ⊢
      obtain ⟨read, _⟩ := BinaryBuffer.readBytes_follows fd.storageSize buf input
        _ _ remaining (Parser.bytes_eq_some.mpr ⟨fits, rfl, rfl⟩)
      dsimp only at read
      rw [read, Option.map_some]

theorem readField_length
    {fd : FieldDescriptor} {base base' : List UInt8} {buf rest : BinaryBuffer}
    (read : readField fd base buf = some (base', rest)) :
    base'.length = base.length := by
  unfold readField at read
  split at read <;>
  · rw [Option.map_eq_some_iff] at read
    obtain ⟨_, _, same⟩ := read
    rw [← (Prod.mk.inj same).1, length_overlay]

/-- Reading fields never changes the size of an instance. -/
@[simp] theorem readFields_length
    (fields : List FieldDescriptor) (base : List UInt8) (buf : BinaryBuffer) :
    (readFields fields base buf).1.length = base.length := by
  induction fields generalizing base buf with
  | nil => rfl
  | cons fd fields inductionHypothesis =>
      unfold readFields
      split
      · rfl
      · rename_i read
        rw [inductionHypothesis, readField_length read]

/-- Reading fields that are all there. -/
theorem readFields_of_remaining
    {buf : BinaryBuffer} {input : List UInt8} (remaining : buf.Remaining input)
    {fields : List FieldDescriptor} (fits : wireSize fields ≤ input.length)
    (base : List UInt8) :
    readFields fields base buf =
      (storeFields fields base (input.take (wireSize fields)),
        some (buf.upTo (input.drop (wireSize fields)))) := by
  induction fields generalizing buf input base with
  | nil =>
      have nothing : wireSize [] = 0 := rfl
      rw [nothing, List.drop_zero, remaining.upTo_self]
      rfl
  | cons fd fields inductionHypothesis =>
      have split : wireSize (fd :: fields) =
          fieldSize fd + wireSize fields := rfl
      rw [split] at fits ⊢
      have headFits : fieldSize fd ≤ input.length := by omega
      obtain ⟨after, _⟩ := remaining.advance headFits
      rw [readFields, readField_of_remaining remaining headFits]
      dsimp only
      rw [inductionHypothesis after (by rw [List.length_drop]; omega),
        BinaryBuffer.upTo_upTo, List.drop_drop, storeFields, List.take_take,
        Nat.min_eq_left (by omega), List.drop_take,
        Nat.add_sub_cancel_left]

/-- Storing what was encoded overwrites field by field. -/
theorem storeFields_encodeFields
    (fields : List FieldDescriptor) (source base : List UInt8) :
    storeFields fields base (encodeFields fields source) =
      fields.foldl
        (fun base fd => overlay base fd.offset (encodeField fd source)) base := by
  induction fields generalizing base with
  | nil => rfl
  | cons fd fields inductionHypothesis =>
      have sized := length_encodeField fd source
      rw [storeFields, encodeFields, List.flatMap_cons, ← encodeFields,
        List.take_left' sized, List.drop_left' sized, inductionHypothesis]
      rfl

end VortarisECS
