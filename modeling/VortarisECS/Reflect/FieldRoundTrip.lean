import VortarisECS.Reflect.TypeTraits
import VortarisECS.Serialization.RoundTrip

/-!
# Fields come back from their Variants

A field read into a Variant and stored again has the value it had: every element
of a fixed array, a fixed string up to its NUL.  A Bool has to be zero or one,
and a fixed string has to be the UTF-8 of a text.
-/

namespace VortarisECS

theorem mapM_eq_some_map
    {read : α → Option β} {value : α → β} {items : List α}
    (each : ∀ item ∈ items, read item = some (value item)) :
    items.mapM read = some (items.map value) := by
  induction items with
  | nil => rfl
  | cons item items inductionHypothesis =>
      rw [List.mapM_cons, each item List.mem_cons_self,
        inductionHypothesis fun later member =>
          each later (List.mem_cons_of_mem item member)]
      rfl

/-! ## Numbers -/

/-- Writing a number that was read modulo `2 ^ 64` yields its low bytes. -/
theorem numberBytes_ofInt
    {width : Nat} (narrow : width ≤ 8) (number : Int) :
    numberBytes width (Int64.ofInt number) =
      littleEndian width (number % (256 ^ width : Nat)).toNat := by
  have divides : ((256 ^ width : Nat) : Int) ∣ ((2 ^ 64 : Nat) : Int) := by
    rw [show (2 ^ 64 : Nat) = 256 ^ 8 by decide]
    exact Int.natCast_dvd_natCast.mpr (pow_dvd_pow 256 narrow)
  have positive : (0 : Int) < ((2 ^ 64 : Nat) : Int) := by decide
  have read : (Int64.ofInt number).toBitVec.toNat =
      (number % ((2 ^ 64 : Nat) : Int)).toNat := BitVec.toNat_ofInt number
  have reduced : (number % ((2 ^ 64 : Nat) : Int)).toNat % 256 ^ width =
      (number % ((256 ^ width : Nat) : Int)).toNat := by
    apply Int.natCast_inj.mp
    rw [Int.natCast_emod, Int.toNat_of_nonneg (Int.emod_nonneg _ positive.ne'),
      Int.emod_emod_of_dvd _ divides, Int.toNat_of_nonneg]
    exact Int.emod_nonneg _ (Int.natCast_ne_zero.mpr
      (pow_ne_zero width (by decide)))
  unfold numberBytes
  rw [← littleEndian_mod, read, reduced]

/-- A number keeps the bytes it was read from. -/
theorem littleEndian_copyBytes (width : Nat) (src : List UInt8) :
    littleEndian width (ofLittleEndian (copyBytes width src)) =
      copyBytes width src := by
  have restored := littleEndian_ofLittleEndian (copyBytes width src)
  rwa [length_copyBytes] at restored

theorem ofLittleEndian_copyBytes_lt (width : Nat) (src : List UInt8) :
    ofLittleEndian (copyBytes width src) < 256 ^ width := by
  have bounded := ofLittleEndian_lt (copyBytes width src)
  rwa [length_copyBytes] at bounded

/-- Unsigned numbers are written as they were read. -/
theorem numberBytes_unsignedNumber
    {width : Nat} (narrow : width ≤ 8) (src : List UInt8) :
    numberBytes width (unsignedNumber width src) = copyBytes width src := by
  have bounded := ofLittleEndian_copyBytes_lt width src
  have asInt : unsignedNumber width src =
      Int64.ofInt (ofLittleEndian (copyBytes width src) : Nat) := by
    unfold unsignedNumber
    exact (Int64.ofInt_eq_ofNat).symm
  rw [asInt, numberBytes_ofInt narrow, ← Int.natCast_emod, Int.toNat_natCast,
    Nat.mod_eq_of_lt bounded, littleEndian_copyBytes]

/-- Signed numbers are written as they were read. -/
theorem numberBytes_signedNumber
    {width : Nat} (narrow : width ≤ 8) (src : List UInt8) :
    numberBytes width (signedNumber width src) = copyBytes width src := by
  have bounded := ofLittleEndian_copyBytes_lt width src
  have base : (2 ^ (8 * width) : Nat) = 256 ^ width := by
    rw [pow_mul, show (2 : Nat) ^ 8 = 256 from rfl]
  unfold signedNumber
  rw [numberBytes_ofInt narrow, BitVec.toInt_eq_toNat_bmod, base,
    Int.bmod_emod, BitVec.toNat_ofNat, base, Nat.mod_eq_of_lt bounded,
    ← Int.natCast_emod, Int.toNat_natCast, Nat.mod_eq_of_lt bounded,
    littleEndian_copyBytes]

/-! ## Scalars -/

/-- The type has a value of its own, not a buffer. -/
def FieldType.IsScalar (type : FieldType) : Prop :=
  type ≠ .stringFixed ∧ type ≠ .blob

/-- No scalar is empty. -/
theorem fieldTypeSize_pos
    (godot : GodotTypes) {type : FieldType} (scalar : type.IsScalar) :
    0 < fieldTypeSize godot type := by
  cases type with
  | stringFixed => exact absurd rfl scalar.1
  | blob => exact absurd rfl scalar.2
  | _ => first | exact godot.sizeOf_pos _ | exact Nat.zero_lt_succ _

/-- Whole numbers of a width, whether signed or not. -/
theorem integer_restored
    (engine : Engine) {width : Nat} (narrow : width ≤ 8) (src : List UInt8) :
    numberBytes width (engine.toInt (.int (unsignedNumber width src))) =
        copyBytes width src ∧
      numberBytes width (engine.toInt (.int (signedNumber width src))) =
        copyBytes width src := by
  rw [engine.toInt_int, engine.toInt_int]
  exact ⟨numberBytes_unsignedNumber narrow src,
    numberBytes_signedNumber narrow src⟩

/-- A scalar read into a Variant is stored with the bytes it was read from. -/
theorem scalar_restored
    (engine : Engine) {type : FieldType} (scalar : type.IsScalar)
    (src : List UInt8)
    (formed : type = .bool → copyBytes 1 src = [0] ∨ copyBytes 1 src = [1]) :
    ∃ variant, scalarToVariant engine type src = some variant ∧
      scalarFromVariant engine type variant =
        some (copyBytes (fieldTypeSize engine.types type) src) := by
  have integer := fun width (narrow : width ≤ 8) =>
    integer_restored engine narrow src
  cases type with
  | stringFixed => exact absurd rfl scalar.1
  | blob => exact absurd rfl scalar.2
  | bool =>
      refine ⟨_, rfl, ?_⟩
      unfold scalarFromVariant
      dsimp only
      rw [engine.toBool_bool]
      change _ = some (copyBytes 1 src)
      obtain isFalse | isTrue := formed rfl
      · rw [isFalse]
        rfl
      · rw [isTrue]
        rfl
  | i8 => exact ⟨_, rfl, congrArg some (integer 1 (by decide)).2⟩
  | i16 => exact ⟨_, rfl, congrArg some (integer 2 (by decide)).2⟩
  | i32 => exact ⟨_, rfl, congrArg some (integer 4 (by decide)).2⟩
  | i64 => exact ⟨_, rfl, congrArg some (integer 8 (by decide)).2⟩
  | u8 => exact ⟨_, rfl, congrArg some (integer 1 (by decide)).1⟩
  | u16 => exact ⟨_, rfl, congrArg some (integer 2 (by decide)).1⟩
  | u32 => exact ⟨_, rfl, congrArg some (integer 4 (by decide)).1⟩
  | u64 => exact ⟨_, rfl, congrArg some (integer 8 (by decide)).1⟩
  | f32 =>
      have bounded : ofLittleEndian (copyBytes 4 src) < 2 ^ 32 :=
        ofLittleEndian_copyBytes_lt 4 src
      refine ⟨_, rfl, ?_⟩
      unfold scalarFromVariant
      dsimp only
      rw [engine.toFloat_float, engine.narrow_widen, UInt32.toNat_ofNat',
        Nat.mod_eq_of_lt bounded, littleEndian_copyBytes]
      rfl
  | f64 =>
      have bounded : ofLittleEndian (copyBytes 8 src) < 2 ^ 64 :=
        ofLittleEndian_copyBytes_lt 8 src
      refine ⟨_, rfl, ?_⟩
      unfold scalarFromVariant
      dsimp only
      rw [engine.toFloat_float, UInt64.toNat_ofNat', Nat.mod_eq_of_lt bounded,
        littleEndian_copyBytes]
      rfl
  | _ =>
      exact ⟨_, rfl, congrArg some
        (engine.toValue_value _ _ (length_copyBytes _ _))⟩

/-! ## Arrays -/

/-- Reading inside the source takes its front. -/
theorem copyBytes_eq_take
    {size : Nat} {src : List UInt8} (enough : size ≤ src.length) :
    copyBytes size src = src.take size := by
  unfold copyBytes
  rw [Nat.sub_eq_zero_of_le enough, List.replicate_zero, List.append_nil]

/-- The elements of an array make up its memory. -/
theorem flatMap_elements
    {size count : Nat} {src : List UInt8} (enough : count * size ≤ src.length) :
    ((List.range count).flatMap fun i => copyBytes size (src.drop (i * size))) =
      src.take (count * size) := by
  induction count with
  | zero => simp
  | succ count inductionHypothesis =>
      rw [Nat.succ_mul] at enough ⊢
      rw [List.range_succ, List.flatMap_append,
        inductionHypothesis (by omega), List.flatMap_singleton,
        copyBytes_eq_take (by rw [List.length_drop]; omega), ← List.take_add]

/-- An array is stored element by element. -/
theorem storeElements_eq
    (engine : Engine) (type : FieldType) {stride : Nat} {items : List Variant}
    {bytes : List (List UInt8)}
    (stored : List.Forall₂ (fun item element =>
      scalarFromVariant engine type item = some element ∧
        element.length = stride) items bytes)
    (base : List UInt8) (offset : Nat) :
    storeElements engine type stride base offset items =
      some (overlay base offset bytes.flatten) := by
  induction stored generalizing base offset with
  | nil => rw [List.flatten_nil, overlay_nil]; rfl
  | cons stored _ inductionHypothesis =>
      rw [storeElements, stored.1]
      dsimp only
      rw [inductionHypothesis, ← stored.2, overlay_overlay, List.flatten_cons]

/-- An array read into a Variant is stored with the bytes it was read from. -/
theorem elements_restored
    (engine : Engine) {type : FieldType} (scalar : type.IsScalar)
    {src : List UInt8} {count : Nat}
    (enough : count * fieldTypeSize engine.types type ≤ src.length)
    (formed : type = .bool → ∀ byte ∈ src.take count, byte = 0 ∨ byte = 1) :
    ∃ items, items.length = count ∧
      ((List.range count).mapM fun i => scalarToVariant engine type
        (src.drop (i * fieldTypeSize engine.types type))) = some items ∧
      ∀ base offset, storeElements engine type
          (fieldTypeSize engine.types type) base offset items =
        some (overlay base offset
          (src.take (count * fieldTypeSize engine.types type))) := by
  generalize sizeEq : fieldTypeSize engine.types type = size at enough ⊢
  have each : ∀ i, ∃ variant, i < count →
      scalarToVariant engine type (src.drop (i * size)) = some variant ∧
        scalarFromVariant engine type variant =
          some (copyBytes size (src.drop (i * size))) := by
    intro i
    by_cases inside : i < count
    · have element : type = .bool →
          copyBytes 1 (src.drop (i * size)) = [0] ∨
            copyBytes 1 (src.drop (i * size)) = [1] := by
        rintro rfl
        have one : size = 1 := sizeEq.symm
        rw [one, Nat.mul_one] at enough ⊢
        have inSource : i < src.length := by omega
        rw [copyBytes_eq_take (by rw [List.length_drop]; omega),
          List.drop_eq_getElem_cons inSource, List.take_succ_cons,
          List.take_zero]
        have byte := formed rfl src[i] (List.mem_take_iff_getElem.mpr
          ⟨i, by omega, rfl⟩)
        exact byte.imp (congrArg (· :: [])) (congrArg (· :: []))
      obtain ⟨variant, read, stored⟩ :=
        scalar_restored engine scalar _ element
      rw [sizeEq] at stored
      exact ⟨variant, fun _ => ⟨read, stored⟩⟩
    · exact ⟨.nil, fun within => absurd within inside⟩
  choose variant restored using each
  refine ⟨(List.range count).map variant, by simp, ?_, fun base offset => ?_⟩
  · exact mapM_eq_some_map fun i member =>
      (restored i (List.mem_range.mp member)).1
  · have stored : List.Forall₂ (fun item element =>
        scalarFromVariant engine type item = some element ∧
          element.length = size) ((List.range count).map variant)
        ((List.range count).map fun i =>
          copyBytes size (src.drop (i * size))) := by
      rw [List.forall₂_map_left_iff, List.forall₂_map_right_iff,
        List.forall₂_same]
      exact fun i member => ⟨(restored i (List.mem_range.mp member)).2,
        length_copyBytes size _⟩
    rw [storeElements_eq engine type stored, ← List.flatMap_def,
      flatMap_elements enough]

/-! ## Fields -/

namespace FieldDescriptor

/-- The layout gave the field the storage of all its elements. -/
structure Placed (types : GodotTypes) (fd : FieldDescriptor) : Prop where
  storage : fd.storageSize = fd.exactStorage types
  element : fd.type.IsScalar → 1 < fd.count → fd.elementType = some fd.type

/-- A fixed string up to its first NUL. -/
def content (fd : FieldDescriptor) (inst : List UInt8) : List UInt8 :=
  (window inst fd.offset fd.storageSize).takeWhile (· ≠ 0)

/-- A Bool holds zero or one, and a fixed string the UTF-8 of a text with a NUL
behind it. -/
structure WellFormed (fd : FieldDescriptor) (inst : List UInt8) : Prop where
  bool : fd.type = .bool →
    ∀ byte ∈ window inst fd.offset fd.storageSize, byte = 0 ∨ byte = 1
  terminated : fd.type = .stringFixed → 0 < fd.count →
    (fd.content inst).length < fd.count
  text : fd.type = .stringFixed → ∃ text, utf8 text = fd.content inst

/-- A fixed string does not begin like a text with a byte order mark. -/
def Unmarked (fd : FieldDescriptor) (inst : List UInt8) : Prop :=
  fd.type = .stringFixed → (fd.content inst).take 3 ≠ byteOrderMark

/-- An array of the engine can hold the elements of the field. -/
def FitsArray (fd : FieldDescriptor) : Prop :=
  fd.type ≠ .stringFixed → fd.count < 2 ^ 31

/-- The bytes a Variant of the field brings back. -/
def restored (fd : FieldDescriptor) (inst : List UInt8) : List UInt8 :=
  if fd.type = .stringFixed then
    if fd.count = 0 then [] else fd.content inst ++ [0]
  else window inst fd.offset fd.storageSize

end FieldDescriptor

section Field

variable (engine : Engine) {fd : FieldDescriptor} {inst : List UInt8}

/-- A text that fits is not cut. -/
theorem cutText_of_le {src : List UInt8} {maxLen : Nat}
    (fits : src.length ≤ maxLen) : cutText src maxLen = src := by
  unfold cutText
  rw [Nat.min_eq_left fits]
  dsimp only
  rw [if_neg fun cut => absurd cut.1 (lt_irrefl _), List.take_length]

theorem copyBytes_drop_eq_window
    {size : Nat} (inside : fd.offset + size ≤ inst.length) :
    copyBytes size (inst.drop fd.offset) = window inst fd.offset size :=
  copyBytes_eq_take (by rw [List.length_drop]; omega)

/-- A string field is restored from its Variant. -/
theorem text_restored
    (placed : fd.Placed engine.types) (isText : fd.type = .stringFixed)
    (inside : fd.offset + fd.storageSize ≤ inst.length)
    (formed : fd.WellFormed inst) (unmarked : fd.Unmarked inst) :
    ∃ variant, fieldToVariant engine fd (inst.drop fd.offset) = some variant ∧
      ∀ base, fieldFromVariant engine fd base variant =
        some (overlay base fd.offset (fd.restored inst)) := by
  have storage : fd.storageSize = fd.count := by
    rw [placed.storage, FieldDescriptor.exactStorage, isText]
  obtain ⟨text, textEq⟩ := formed.text isText
  have decoded : engine.decode (fd.content inst) = text := by
    rw [← textEq]
    apply engine.decode_utf8
    rw [textEq]
    exact unmarked isText
  refine ⟨.string text, ?_, fun base => ?_⟩
  · unfold fieldToVariant
    rw [isText]
    dsimp only
    rw [← storage, copyBytes_drop_eq_window inside]
    exact congrArg (fun text => some (Variant.string text)) decoded
  · unfold fieldFromVariant FieldDescriptor.restored
    rw [isText, if_pos rfl]
    dsimp only
    by_cases empty : fd.count = 0
    · rw [if_pos empty, if_pos empty, overlay_nil]
    · have terminated := formed.terminated isText (Nat.pos_of_ne_zero empty)
      rw [if_neg empty, if_neg empty, engine.toText_string, textEq,
        cutText_of_le (by omega)]

/-- A blob field is restored from its Variant. -/
theorem blob_restored
    (placed : fd.Placed engine.types) (isBlob : fd.type = .blob)
    (fits : fd.FitsArray)
    (inside : fd.offset + fd.storageSize ≤ inst.length) :
    ∃ variant, fieldToVariant engine fd (inst.drop fd.offset) = some variant ∧
      ∀ base, fieldFromVariant engine fd base variant =
        some (overlay base fd.offset (fd.restored inst)) := by
  have storage : fd.storageSize = fd.count := by
    rw [placed.storage, FieldDescriptor.exactStorage, isBlob]
  have small : fd.count < 2 ^ 31 := fits (by rw [isBlob]; nofun)
  have whole : (copyBytes fd.count (inst.drop fd.offset)).length = fd.count :=
    length_copyBytes _ _
  refine ⟨.byteArray (copyBytes fd.count (inst.drop fd.offset)), ?_,
    fun base => ?_⟩
  · unfold fieldToVariant
    rw [isBlob]
    dsimp only
    rw [resizedTo_of_lt small, List.take_of_length_le whole.le]
  · unfold fieldFromVariant FieldDescriptor.restored
    rw [isBlob, if_neg (show ¬FieldType.blob = .stringFixed by nofun)]
    dsimp only
    rw [engine.toByteArray_byteArray, copyBytes_of_length whole, storage,
      copyBytes_drop_eq_window (by omega)]

/-- A field of scalars is restored from its Variant. -/
theorem scalars_restored
    (placed : fd.Placed engine.types) (scalar : fd.type.IsScalar)
    (fits : fd.FitsArray)
    (inside : fd.offset + fd.storageSize ≤ inst.length)
    (formed : fd.WellFormed inst) :
    ∃ variant, fieldToVariant engine fd (inst.drop fd.offset) = some variant ∧
      ∀ base, fieldFromVariant engine fd base variant =
        some (overlay base fd.offset (fd.restored inst)) := by
  have small : fd.count < 2 ^ 31 := fits scalar.1
  have storage : fd.storageSize = fieldTypeSize engine.types fd.type *
      (if fd.count > 0 then fd.count else 1) := by
    rw [placed.storage]
    unfold FieldDescriptor.exactStorage
    split
    · rename_i isText
      exact absurd isText scalar.1
    · rename_i isBlob
      exact absurd isBlob scalar.2
    · rfl
  have restoredEq : fd.restored inst =
      window inst fd.offset fd.storageSize := if_neg scalar.1
  have boolSize : fd.type = .bool →
      fieldTypeSize engine.types fd.type = 1 := by
    intro isBool
    rw [isBool]
    rfl
  rw [restoredEq]
  unfold fieldToVariant fieldFromVariant
  split
  · rename_i isText
    exact absurd isText scalar.1
  · rename_i isBlob
    exact absurd isBlob scalar.2
  · by_cases single : fd.count ≤ 1
    · have one : (if fd.count > 0 then fd.count else 1) = 1 := by
        split <;> omega
      rw [one, Nat.mul_one] at storage
      have element : fd.type = .bool →
          copyBytes 1 (inst.drop fd.offset) = [0] ∨
            copyBytes 1 (inst.drop fd.offset) = [1] := by
        intro isBool
        have byteSize := storage.trans (boolSize isBool)
        have bytes := formed.bool isBool
        rw [byteSize] at bytes inside
        rw [copyBytes_drop_eq_window inside]
        have length := length_window inside
        obtain ⟨byte, byteEq⟩ := List.length_eq_one_iff.mp length
        rw [byteEq] at bytes ⊢
        exact (bytes byte List.mem_cons_self).imp
          (congrArg (· :: [])) (congrArg (· :: []))
      obtain ⟨variant, read, stored⟩ :=
        scalar_restored engine scalar _ element
      refine ⟨variant, by rw [if_pos single]; exact read, fun base => ?_⟩
      rw [if_pos single, stored, Option.map_some, ← storage,
        copyBytes_drop_eq_window inside]
    · rw [if_pos (by omega)] at storage
      have arrayType : fd.arrayType = fd.type := by
        unfold FieldDescriptor.arrayType
        rw [placed.element scalar (by omega)]
        rfl
      have elemSize : fd.elemSize = fieldTypeSize engine.types fd.type := by
        unfold FieldDescriptor.elemSize
        rw [storage, Nat.mul_div_cancel _ (by omega)]
      have enough : fd.count * fieldTypeSize engine.types fd.type ≤
          (inst.drop fd.offset).length := by
        rw [List.length_drop, Nat.mul_comm, ← storage]
        omega
      have element : fd.type = .bool →
          ∀ byte ∈ (inst.drop fd.offset).take fd.count,
            byte = 0 ∨ byte = 1 := by
        intro isBool byte member
        apply formed.bool isBool
        unfold window
        rwa [storage, boolSize isBool, Nat.one_mul]
      obtain ⟨items, length, read, stored⟩ :=
        elements_restored engine scalar enough element
      refine ⟨.array items, ?_, fun base => ?_⟩
      · rw [if_neg single, arrayType, elemSize, read, Option.map_some,
          resizedTo_of_lt small, List.take_of_length_le length.le]
      · rw [if_neg single, arrayType, elemSize, engine.toArray_array,
          List.take_of_length_le length.le, stored, Nat.mul_comm, ← storage]
        rfl

/-- A field read into a Variant is stored with the bytes that make up its
value. -/
theorem field_restored
    (placed : fd.Placed engine.types) (fits : fd.FitsArray)
    (inside : fd.offset + fd.storageSize ≤ inst.length)
    (formed : fd.WellFormed inst) (unmarked : fd.Unmarked inst) :
    ∃ variant, fieldToVariant engine fd (inst.drop fd.offset) = some variant ∧
      ∀ base, fieldFromVariant engine fd base variant =
        some (overlay base fd.offset (fd.restored inst)) := by
  by_cases isText : fd.type = .stringFixed
  · exact text_restored engine placed isText inside formed unmarked
  · by_cases isBlob : fd.type = .blob
    · exact blob_restored engine placed isBlob fits inside
    · exact scalars_restored engine placed ⟨isText, isBlob⟩ fits inside formed

end Field

end VortarisECS
