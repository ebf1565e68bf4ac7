import VortarisECS.Reflect.Variant
import VortarisECS.Serialization.ComponentSerializer

/-!
# Fields as Variants

Reflection turns the memory of a field into a Variant and back.  Whole numbers
of every width go through `int64_t`, floats through `double`, and arrays element
by element.
-/

namespace VortarisECS

/-! ## Scalars -/

/-- The unsigned number in `width` bytes, as an `int64_t`. -/
def unsignedNumber (width : Nat) (src : List UInt8) : Int64 :=
  Int64.ofNat (ofLittleEndian (copyBytes width src))

/-- The signed number in `width` bytes, as an `int64_t`. -/
def signedNumber (width : Nat) (src : List UInt8) : Int64 :=
  Int64.ofInt
    (BitVec.ofNat (8 * width) (ofLittleEndian (copyBytes width src))).toInt

/-- The low bytes of an `int64_t`. -/
def numberBytes (width : Nat) (value : Int64) : List UInt8 :=
  littleEndian width value.toBitVec.toNat

/-- `scalar_to_variant`. -/
def scalarToVariant (engine : Engine) (type : FieldType) (src : List UInt8) :
    Option Variant :=
  match type with
  | .bool => some (.bool (copyBytes 1 src != [0]))
  | .i8 => some (.int (signedNumber 1 src))
  | .i16 => some (.int (signedNumber 2 src))
  | .i32 => some (.int (signedNumber 4 src))
  | .i64 => some (.int (signedNumber 8 src))
  | .u8 => some (.int (unsignedNumber 1 src))
  | .u16 => some (.int (unsignedNumber 2 src))
  | .u32 => some (.int (unsignedNumber 4 src))
  | .u64 => some (.int (unsignedNumber 8 src))
  | .f32 => some (.float (engine.widen
      (UInt32.ofNat (ofLittleEndian (copyBytes 4 src)))))
  | .f64 => some (.float (UInt64.ofNat (ofLittleEndian (copyBytes 8 src))))
  | .stringFixed | .blob => none
  | type => some (.value type (copyBytes (engine.types.sizeOf type) src))

/-- `scalar_from_variant`: the bytes that are stored. -/
def scalarFromVariant (engine : Engine) (type : FieldType) (variant : Variant) :
    Option (List UInt8) :=
  match type with
  | .bool => some [if engine.toBool variant then 1 else 0]
  | .i8 | .u8 => some (numberBytes 1 (engine.toInt variant))
  | .i16 | .u16 => some (numberBytes 2 (engine.toInt variant))
  | .i32 | .u32 => some (numberBytes 4 (engine.toInt variant))
  | .i64 | .u64 => some (numberBytes 8 (engine.toInt variant))
  | .f32 => some (littleEndian 4 (engine.narrow (engine.toFloat variant)).toNat)
  | .f64 => some (littleEndian 8 (engine.toFloat variant).toNat)
  | .stringFixed | .blob => none
  | type => some (engine.toValue type variant)

/-! ## Fields -/

/-- The element type of a fixed array; the number zero is that of `Bool`. -/
def FieldDescriptor.arrayType (fd : FieldDescriptor) : FieldType :=
  fd.elementType.getD .bool

/-- The stride of a fixed array. -/
def FieldDescriptor.elemSize (fd : FieldDescriptor) : Nat :=
  fd.storageSize / fd.count

/-- `field_to_variant`, for memory that starts with the field.  What does not
fit into an array of the engine is written behind its end. -/
def fieldToVariant (engine : Engine) (fd : FieldDescriptor)
    (src : List UInt8) : Option Variant :=
  match fd.type with
  | .stringFixed =>
      some (.string (engine.decode
        ((copyBytes fd.count src).takeWhile (· ≠ 0))))
  | .blob =>
      some (.byteArray ((copyBytes fd.count src).take (resizedTo fd.count)))
  | type =>
      if fd.count ≤ 1 then scalarToVariant engine type src
      else
        ((List.range fd.count).mapM fun i =>
          scalarToVariant engine fd.arrayType (src.drop (i * fd.elemSize))).map
          fun items => .array (items.take (resizedTo fd.count))

/-- The byte continues a code point. -/
def continuesCodePoint (byte : UInt8) : Bool := byte &&& 0xC0 == 0x80

/-- The last place up to `p` where a code point starts. -/
def leadByte (src : List UInt8) : Nat → Nat
  | 0 => 0
  | p + 1 =>
      if continuesCodePoint ((src[p + 1]?).getD 0) then leadByte src p
      else p + 1

/-- As much of a text as fits into `maxLen` bytes, cut between code points. -/
def cutText (src : List UInt8) (maxLen : Nat) : List UInt8 :=
  let copy := min src.length maxLen
  if copy < src.length ∧ 0 < copy ∧
      continuesCodePoint ((src[copy]?).getD 0) = true then
    src.take (leadByte src copy)
  else src.take copy

/-- Elements go to their places one after the other. -/
def storeElements (engine : Engine) (type : FieldType) (stride : Nat) :
    List UInt8 → Nat → List Variant → Option (List UInt8)
  | base, _, [] => some base
  | base, offset, item :: items =>
      match scalarFromVariant engine type item with
      | none => none
      | some bytes =>
          storeElements engine type stride (overlay base offset bytes)
            (offset + stride) items

/-- `field_from_variant`, for the component whose field it is.  It fails before
it stores anything. -/
def fieldFromVariant (engine : Engine) (fd : FieldDescriptor)
    (base : List UInt8) (variant : Variant) : Option (List UInt8) :=
  match fd.type with
  | .stringFixed =>
      if fd.count = 0 then some base
      else
        some (overlay base fd.offset
          (cutText (utf8 (engine.toText variant)) (fd.count - 1) ++ [0]))
  | .blob =>
      some (overlay base fd.offset
        (copyBytes fd.count (engine.toByteArray variant)))
  | type =>
      if fd.count ≤ 1 then
        (scalarFromVariant engine type variant).map (overlay base fd.offset ·)
      else
        storeElements engine fd.arrayType fd.elemSize base fd.offset
          ((engine.toArray variant).take fd.count)

theorem length_storeElements
    {engine : Engine} {type : FieldType} {stride offset : Nat}
    {base bytes : List UInt8} {items : List Variant}
    (stored : storeElements engine type stride base offset items =
      some bytes) : bytes.length = base.length := by
  induction items generalizing base offset with
  | nil => rw [Option.some.inj stored]
  | cons item items inductionHypothesis =>
      unfold storeElements at stored
      split at stored
      · exact absurd stored (by simp)
      · exact (inductionHypothesis stored).trans (length_overlay _ _ _)

/-- A component keeps its size. -/
theorem length_fieldFromVariant
    {engine : Engine} {fd : FieldDescriptor} {base bytes : List UInt8}
    {variant : Variant}
    (stored : fieldFromVariant engine fd base variant = some bytes) :
    bytes.length = base.length := by
  unfold fieldFromVariant at stored
  split at stored
  · split at stored
    · rw [Option.some.inj stored]
    · rw [← Option.some.inj stored, length_overlay]
  · rw [← Option.some.inj stored, length_overlay]
  · split at stored
    · obtain ⟨_, -, overlaid⟩ := Option.map_eq_some_iff.mp stored
      rw [← overlaid, length_overlay]
    · exact length_storeElements stored

/-! ## Components -/

/-- `component_bytes_to_variant_dict`. -/
def componentBytesToVariantDict (engine : Engine) (schema : ComponentSchema)
    (src : List UInt8) : List (Variant × Variant) :=
  schema.fields.foldl (fun entries fd =>
    match fieldToVariant engine fd (src.drop fd.offset) with
    | none => entries
    | some value => engine.set entries (.string fd.name) value) []

/-- `component_dict_to_bytes`. -/
def componentDictToBytes (engine : Engine) (schema : ComponentSchema)
    (entries : List (Variant × Variant)) : List UInt8 :=
  schema.fields.foldl (fun dst fd =>
    match engine.lookup entries (.string fd.name) with
    | none => dst
    | some value => (fieldFromVariant engine fd dst value).getD dst)
    (List.replicate schema.size 0)

/-! ## Comparison -/

/-- `variants_equal`: numbers of different types are compared as numbers, with
a float among them as `double`. -/
def variantsEqual (engine : Engine) (a b : Variant) : Bool :=
  match a, b with
  | .int _, .bool _ | .bool _, .int _ => engine.toInt a == engine.toInt b
  | .float _, .int _ | .float _, .bool _ | .int _, .float _
  | .bool _, .float _ =>
      engine.same (.float (engine.toFloat a)) (.float (engine.toFloat b))
  | _, _ => engine.same a b

end VortarisECS
