import VortarisECS.Library.Slots
import VortarisECS.Reflect.ComponentRoundTrip

/-!
# Fields as lists of values

A fixed array has a slot for each of its elements, and any other field is one
slot.  A value that is stored into a slot is shown as the type of the field
keeps it, and nothing else of the component is shown differently.
-/

namespace VortarisECS

/-! ## Scalars -/

section Scalar

variable (engine : Engine) {type : FieldType}

theorem copyBytes_copyBytes
    {width size : Nat} (narrow : width ≤ size) (src : List UInt8) :
    copyBytes width (copyBytes size src) = copyBytes width src := by
  apply List.ext_getElem?
  intro i
  unfold copyBytes
  simp only [List.getElem?_append, List.length_take, List.length_append,
    List.length_replicate, List.getElem?_take, List.getElem?_replicate]
  grind

/-- A scalar is read from as many bytes as it has. -/
theorem scalarToVariant_copyBytes
    (scalar : type.IsScalar) (src : List UInt8) :
    scalarToVariant engine type (copyBytes (fieldTypeSize engine.types type) src) =
      scalarToVariant engine type src := by
  unfold scalarToVariant
  cases type with
  | stringFixed => exact absurd rfl scalar.1
  | blob => exact absurd rfl scalar.2
  | _ =>
      dsimp only [fieldTypeSize, signedNumber, unsignedNumber]
      rw [copyBytes_copyBytes (Nat.le_refl _)]

/-- A scalar always has a Variant. -/
theorem scalarToVariant_isSome
    (scalar : type.IsScalar) (src : List UInt8) :
    (scalarToVariant engine type src).isSome := by
  cases type with
  | stringFixed => exact absurd rfl scalar.1
  | blob => exact absurd rfl scalar.2
  | _ => rfl

/-- A scalar is stored in as many bytes as it has. -/
theorem scalarFromVariant_sized
    (scalar : type.IsScalar) (value : Variant) :
    ∃ bytes, scalarFromVariant engine type value = some bytes ∧
      bytes.length = fieldTypeSize engine.types type := by
  cases type with
  | stringFixed => exact absurd rfl scalar.1
  | blob => exact absurd rfl scalar.2
  | bool => exact ⟨_, rfl, rfl⟩
  | f32 => exact ⟨_, rfl, length_littleEndian _ _⟩
  | f64 => exact ⟨_, rfl, length_littleEndian _ _⟩
  | i8 | i16 | i32 | i64 | u8 | u16 | u32 | u64 =>
      exact ⟨_, rfl, length_littleEndian _ _⟩
  | _ => exact ⟨_, rfl, engine.length_toValue _ _⟩

end Scalar

/-! ## Slots of a field -/

namespace FieldDescriptor

/-- Scripts see an array in the field. -/
def IsArray (fd : FieldDescriptor) : Prop := 1 < fd.count ∧ fd.type.IsScalar

instance decidableIsArray (fd : FieldDescriptor) : Decidable fd.IsArray :=
  inferInstanceAs
    (Decidable (1 < fd.count ∧ fd.type ≠ .stringFixed ∧ fd.type ≠ .blob))

/-- The number of values in a field. -/
def slotCount (fd : FieldDescriptor) : Nat :=
  if fd.IsArray then fd.count else 1

/-- The number of bytes of each value. -/
def slotSize (types : GodotTypes) (fd : FieldDescriptor) : Nat :=
  match fd.type with
  | .stringFixed | .blob => fd.count
  | type => fieldTypeSize types type

variable (engine : Engine) (fd : FieldDescriptor)

/-- What the bytes of a slot are shown as. -/
def shown (slot : List UInt8) : Variant :=
  match fd.type with
  | .stringFixed => .string (engine.decode (slot.takeWhile (· ≠ 0)))
  | .blob => .byteArray (slot.take (resizedTo fd.count))
  | type => (scalarToVariant engine type slot).getD .nil

/-- The values that the field of a component holds. -/
def items (inst : List UInt8) : List Variant :=
  slots (fd.shown engine) (fd.slotSize engine.types) inst fd.offset fd.slotCount

/-- What a slot keeps of a value: a number its low bits, a text as much as there
is room for. -/
def kept (value : Variant) : Variant :=
  match fd.type with
  | .stringFixed =>
      .string (engine.decode ((cutText (utf8 (engine.toText value))
        (fd.count - 1)).takeWhile (· ≠ 0)))
  | .blob =>
      .byteArray ((copyBytes fd.count (engine.toByteArray value)).take
        (resizedTo fd.count))
  | type =>
      ((scalarFromVariant engine type value).bind
        (scalarToVariant engine type)).getD .nil

/-- The field as one value. -/
def gathered (items : List Variant) : Variant :=
  if fd.IsArray then .array (items.take (resizedTo fd.count))
  else items.headD .nil

/-- The values of the field after it was set: an array takes the elements it
has room for, and keeps its own behind them. -/
def taking (items : List Variant) (value : Variant) : List Variant :=
  if fd.IsArray then
    let given := ((engine.toArray value).take fd.count).map (fd.kept engine)
    given ++ items.drop given.length
  else [fd.kept engine value]

variable {engine fd} {inst : List UInt8} {i : Nat}

/-- The items of a field are its slots, read one by one. -/
theorem items_eq_map :
    fd.items engine inst = (List.range fd.slotCount).map fun i =>
      fd.shown engine (window inst (fd.offset + i * fd.slotSize engine.types)
        (fd.slotSize engine.types)) := rfl

/-- Each slot of a field is an item. -/
theorem getElem?_items (within : i < fd.slotCount) :
    (fd.items engine inst)[i]? = some (fd.shown engine (window inst
      (fd.offset + i * fd.slotSize engine.types)
      (fd.slotSize engine.types))) :=
  getElem?_slots _ within

/-- A field has as many items as slots. -/
theorem length_items (inst : List UInt8) :
    (fd.items engine inst).length = fd.slotCount :=
  length_slots _ _ _ _ _

theorem slotSize_scalar
    (scalar : fd.type.IsScalar) (types : GodotTypes) :
    fd.slotSize types = fieldTypeSize types fd.type := by
  unfold slotSize
  split
  · rename_i isText
    exact absurd isText scalar.1
  · rename_i isBlob
    exact absurd isBlob scalar.2
  · rfl

/-- A count of nought or less is one slot. -/
theorem slotCount_scalar (scalar : fd.type.IsScalar) :
    fd.slotCount = if fd.count > 0 then fd.count else 1 := by
  unfold slotCount
  by_cases several : 1 < fd.count
  · rw [if_pos ⟨several, scalar⟩, if_pos (by omega)]
  · rw [if_neg fun array : fd.IsArray => several array.1]
    split <;> omega

/-- The slots make up the storage of the field. -/
theorem Placed.slots_storage {types : GodotTypes} (placed : fd.Placed types) :
    fd.storageSize = fd.slotCount * fd.slotSize types := by
  rw [placed.storage]
  by_cases scalar : fd.type.IsScalar
  · rw [slotSize_scalar scalar, slotCount_scalar scalar, Nat.mul_comm]
    unfold exactStorage
    split
    · rename_i isText
      exact absurd isText scalar.1
    · rename_i isBlob
      exact absurd isBlob scalar.2
    · rfl
  · have one : fd.slotCount = 1 := if_neg fun array => scalar array.2
    rw [one, Nat.one_mul]
    unfold exactStorage slotSize
    cases typeIs : fd.type with
    | stringFixed => rfl
    | blob => rfl
    | _ => exact absurd ⟨by rw [typeIs]; nofun, by rw [typeIs]; nofun⟩ scalar

theorem IsArray.elemSize
    (array : fd.IsArray) {types : GodotTypes} (placed : fd.Placed types) :
    fd.elemSize = fd.slotSize types := by
  unfold FieldDescriptor.elemSize
  rw [placed.slots_storage, slotCount, if_pos array]
  exact Nat.mul_div_cancel_left _ (by have := array.1; omega)

theorem IsArray.arrayType
    (array : fd.IsArray) {types : GodotTypes} (placed : fd.Placed types) :
    fd.arrayType = fd.type := by
  unfold FieldDescriptor.arrayType
  rw [placed.element array.2 array.1]
  rfl

/-! ## Reading -/

/-- A scalar read from wherever is the one in its own bytes. -/
theorem scalarToVariant_eq_shown
    (scalar : fd.type.IsScalar) (src : List UInt8) :
    scalarToVariant engine fd.type src =
      some (fd.shown engine (copyBytes (fd.slotSize engine.types) src)) := by
  obtain ⟨value, read⟩ := Option.isSome_iff_exists.mp
    (scalarToVariant_isSome engine scalar src)
  unfold shown
  split
  · rename_i isText
    exact absurd isText scalar.1
  · rename_i isBlob
    exact absurd isBlob scalar.2
  · rw [slotSize_scalar scalar, scalarToVariant_copyBytes engine scalar, read]
    rfl

/-- An element of an array, read from its place. -/
theorem IsArray.element_eq
    (array : fd.IsArray) (placed : fd.Placed engine.types)
    (inside : fd.offset + fd.storageSize ≤ inst.length)
    (within : i < fd.count) :
    scalarToVariant engine fd.arrayType
        (inst.drop (fd.offset + i * fd.elemSize)) =
      (fd.items engine inst)[i]? := by
  have counted : fd.slotCount = fd.count := if_pos array
  have last := slot_le (fd.slotSize engine.types) within
  rw [placed.slots_storage, counted] at inside
  rw [array.arrayType placed, array.elemSize placed,
    scalarToVariant_eq_shown array.2]
  rw [getElem?_items (by rw [counted]; exact within), copyBytes_eq_take]
  · rfl
  · rw [List.length_drop]
    omega

/-- The field as a whole. -/
theorem Placed.fieldToVariant_eq
    (placed : fd.Placed engine.types)
    (inside : fd.offset + fd.storageSize ≤ inst.length) :
    fieldToVariant engine fd (inst.drop fd.offset) =
      some (fd.gathered (fd.items engine inst)) := by
  have storage := placed.slots_storage
  unfold gathered
  by_cases array : fd.IsArray
  · have counted : fd.slotCount = fd.count := if_pos array
    have read : ((List.range fd.count).mapM fun i =>
        scalarToVariant engine fd.arrayType
          ((inst.drop fd.offset).drop (i * fd.elemSize))) =
        some (fd.items engine inst) := by
      rw [items_eq_map, counted]
      refine mapM_eq_some_map fun i member => ?_
      have within := List.mem_range.mp member
      rw [List.drop_drop, array.element_eq placed inside within]
      exact getElem?_items (by rw [counted]; exact within)
    rw [if_pos array]
    unfold fieldToVariant
    split
    · rename_i isText
      exact absurd isText array.2.1
    · rename_i isBlob
      exact absurd isBlob array.2.2
    · rw [if_neg (by have := array.1; omega), read]
      rfl
  · have one : fd.slotCount = 1 := if_neg array
    rw [one, Nat.one_mul] at storage
    rw [storage] at inside
    rw [if_neg array]
    unfold items
    rw [one, slots_one, ← copyBytes_drop_eq_window inside]
    unfold fieldToVariant
    split
    · rename_i isText
      simp [shown, slotSize, isText]
    · rename_i isBlob
      simp [shown, slotSize, isBlob]
    · rename_i noText noBlob
      rw [if_pos (by
          by_contra several
          exact array ⟨by omega, noText, noBlob⟩),
        scalarToVariant_eq_shown ⟨noText, noBlob⟩]
      rfl

/-! ## Writing -/

/-- The component is the same outside of the field. -/
structure SameOutside (fd : FieldDescriptor) (inst bytes : List UInt8) :
    Prop where
  length : bytes.length = inst.length
  windows : ∀ position length,
    position + length ≤ fd.offset ∨ fd.offset + fd.storageSize ≤ position →
      window bytes position length = window inst position length

theorem SameOutside.refl (fd : FieldDescriptor) (inst : List UInt8) :
    fd.SameOutside inst inst :=
  ⟨rfl, fun _ _ _ => rfl⟩

theorem SameOutside.trans
    {bytes later : List UInt8} (first : fd.SameOutside inst bytes)
    (second : fd.SameOutside bytes later) : fd.SameOutside inst later where
  length := second.length.trans first.length
  windows position length outside :=
    (second.windows position length outside).trans
      (first.windows position length outside)

/-- Writing inside a field leaves every other field alone. -/
theorem sameOutside_overlay
    {bytes : List UInt8} {position : Nat} (behind : fd.offset ≤ position)
    (before : position + bytes.length ≤ fd.offset + fd.storageSize) :
    fd.SameOutside inst (overlay inst position bytes) where
  length := length_overlay _ _ _
  windows _ _ outside := window_overlay_of_disjoint _ (by omega)

/-- What a stored scalar reads back as. -/
theorem kept_eq_shown
    (scalar : fd.type.IsScalar) {value : Variant} {bytes : List UInt8}
    (stored : scalarFromVariant engine fd.type value = some bytes) :
    fd.kept engine value = fd.shown engine bytes := by
  unfold kept shown
  split
  · rename_i isText
    exact absurd isText scalar.1
  · rename_i isBlob
    exact absurd isBlob scalar.2
  · rw [stored]
    rfl

/-- A write to one element of an array. -/
theorem IsArray.store_element
    (array : fd.IsArray) (placed : fd.Placed engine.types)
    (inside : fd.offset + fd.storageSize ≤ inst.length)
    (within : i < fd.count) (value : Variant) :
    ∃ bytes, scalarFromVariant engine fd.arrayType value = some bytes ∧
      fd.items engine
          (overlay inst (fd.offset + i * fd.elemSize) bytes) =
        (fd.items engine inst).set i (fd.kept engine value) ∧
      fd.SameOutside inst
        (overlay inst (fd.offset + i * fd.elemSize) bytes) := by
  have counted : fd.slotCount = fd.count := if_pos array
  have storage := placed.slots_storage
  rw [counted] at storage
  have last := slot_le (fd.slotSize engine.types) within
  rw [array.arrayType placed, array.elemSize placed]
  obtain ⟨bytes, stored, sized⟩ :=
    scalarFromVariant_sized engine array.2 value
  rw [← slotSize_scalar array.2] at sized
  refine ⟨bytes, stored, ?_, sameOutside_overlay (by omega) (by omega)⟩
  unfold items
  rw [counted, slots_overlay_slot _ (by omega) within sized,
    kept_eq_shown array.2 stored]

/-- Writes to the elements of an array from `start` on. -/
theorem IsArray.store_elements
    (array : fd.IsArray) (placed : fd.Placed engine.types)
    (inside : fd.offset + fd.storageSize ≤ inst.length)
    {given : List Variant} {start : Nat}
    (within : start + given.length ≤ fd.count) :
    ∃ bytes, storeElements engine fd.arrayType fd.elemSize inst
        (fd.offset + start * fd.elemSize) given = some bytes ∧
      fd.items engine bytes = (fd.items engine inst).take start ++
        (given.map (fd.kept engine) ++
          (fd.items engine inst).drop (start + given.length)) ∧
      fd.SameOutside inst bytes := by
  induction given generalizing inst start with
  | nil =>
      refine ⟨inst, rfl, ?_, .refl fd inst⟩
      rw [List.map_nil, List.nil_append, List.length_nil, Nat.add_zero,
        List.take_append_drop]
  | cons value given inductionHypothesis =>
      rw [List.length_cons] at within
      have first : start < fd.count := by omega
      obtain ⟨element, stored, itemsEq, same⟩ :=
        array.store_element placed inside first value
      have stillInside : fd.offset + fd.storageSize ≤
          (overlay inst (fd.offset + start * fd.elemSize) element).length := by
        rw [length_overlay]
        exact inside
      have later : start + 1 + given.length ≤ fd.count := by omega
      obtain ⟨bytes, storedRest, restEq, sameRest⟩ :=
        inductionHypothesis stillInside later
      have counted : (fd.items engine inst).length = fd.count :=
        (length_items inst).trans (if_pos array)
      refine ⟨bytes, ?_, ?_, same.trans sameRest⟩
      · unfold storeElements
        rw [stored]
        dsimp only
        rw [Nat.add_assoc, ← Nat.succ_mul]
        exact storedRest
      · rw [restEq, itemsEq, List.take_add_one, List.take_set_of_le (Nat.le_refl _),
          List.getElem?_set_self (by omega), List.drop_set_of_lt (by omega),
          List.length_cons, List.map_cons, Nat.add_right_comm, Nat.add_assoc]
        simp

theorem leadByte_le (src : List UInt8) (place : Nat) :
    leadByte src place ≤ place := by
  induction place with
  | zero => exact Nat.le_refl 0
  | succ place inductionHypothesis =>
      unfold leadByte
      split
      · exact inductionHypothesis.trans (Nat.le_succ place)
      · exact Nat.le_refl _

/-- A cut text fits. -/
theorem length_cutText_le (src : List UInt8) (maxLen : Nat) :
    (cutText src maxLen).length ≤ maxLen := by
  have shorter := leadByte_le src (min src.length maxLen)
  unfold cutText
  dsimp only
  split <;> rw [List.length_take] <;> omega

theorem takeWhile_terminated (text rest : List UInt8) :
    (text ++ [0] ++ rest).takeWhile (· ≠ 0) = text.takeWhile (· ≠ 0) := by
  induction text with
  | nil => rfl
  | cons byte text inductionHypothesis =>
      rw [List.cons_append, List.cons_append, List.takeWhile_cons,
        List.takeWhile_cons, inductionHypothesis]

/-- A text is stored with a NUL behind it, if the field has any room. -/
theorem Placed.store_text
    (placed : fd.Placed engine.types) (isText : fd.type = .stringFixed)
    (inside : fd.offset + fd.storageSize ≤ inst.length) (value : Variant) :
    ∃ bytes, fieldFromVariant engine fd inst value = some bytes ∧
      fd.items engine bytes = [fd.kept engine value] ∧
      fd.SameOutside inst bytes := by
  have one : fd.slotCount = 1 := if_neg fun array => array.2.1 isText
  have sized : fd.slotSize engine.types = fd.count := by
    rw [slotSize, isText]
  have storage := placed.slots_storage
  rw [one, sized, Nat.one_mul] at storage
  have itemsOf : ∀ bytes, fd.items engine bytes = [.string (engine.decode
      ((window bytes fd.offset fd.count).takeWhile (· ≠ 0)))] := by
    intro bytes
    unfold items shown
    rw [one, sized, slots_one, isText]
  unfold fieldFromVariant kept
  rw [isText]
  dsimp only
  generalize textEq :
    cutText (utf8 (engine.toText value)) (fd.count - 1) = text
  have short : text.length ≤ fd.count - 1 := by
    rw [← textEq]
    exact length_cutText_le _ _
  by_cases empty : fd.count = 0
  · refine ⟨inst, if_pos empty, ?_, .refl fd inst⟩
    rw [itemsOf]
    rw [empty] at short ⊢
    rw [List.eq_nil_of_length_eq_zero (Nat.le_zero.mp short)]
    rfl
  · rw [if_neg empty]
    refine ⟨_, rfl, ?_, sameOutside_overlay (Nat.le_refl _) ?_⟩
    · have terminated : (text ++ [0]).length ≤ fd.count := by
        rw [List.length_append, List.length_singleton]
        omega
      have room : fd.offset + fd.count ≤ inst.length := by omega
      obtain ⟨rest, windowEq⟩ := window_overlay_longer terminated room
      rw [itemsOf, windowEq, takeWhile_terminated]
    · rw [List.length_append, List.length_singleton]
      omega

theorem Placed.store_blob
    (placed : fd.Placed engine.types) (isBlob : fd.type = .blob)
    (inside : fd.offset + fd.storageSize ≤ inst.length) (value : Variant) :
    ∃ bytes, fieldFromVariant engine fd inst value = some bytes ∧
      fd.items engine bytes = [fd.kept engine value] ∧
      fd.SameOutside inst bytes := by
  have one : fd.slotCount = 1 := if_neg fun array => array.2.2 isBlob
  have sized : fd.slotSize engine.types = fd.count := by
    rw [slotSize, isBlob]
  have storage := placed.slots_storage
  rw [one, sized, Nat.one_mul] at storage
  have stored := length_copyBytes fd.count (engine.toByteArray value)
  unfold fieldFromVariant
  rw [isBlob]
  refine ⟨_, rfl, ?_, sameOutside_overlay (Nat.le_refl _) (by omega)⟩
  have room : fd.offset + (copyBytes fd.count
      (engine.toByteArray value)).length ≤ inst.length := by omega
  have whole := window_overlay_self room
  rw [stored] at whole
  unfold items shown kept
  rw [one, sized, slots_one, isBlob, whole]

/-- A field that is set takes the value as far as its type keeps it. -/
theorem Placed.fieldFromVariant_items
    (placed : fd.Placed engine.types)
    (inside : fd.offset + fd.storageSize ≤ inst.length) (value : Variant) :
    ∃ bytes, fieldFromVariant engine fd inst value = some bytes ∧
      fd.items engine bytes =
        fd.taking engine (fd.items engine inst) value ∧
      fd.SameOutside inst bytes := by
  unfold taking
  by_cases array : fd.IsArray
  · have within : 0 + ((engine.toArray value).take fd.count).length ≤
        fd.count := by
      rw [Nat.zero_add]
      exact List.length_take_le _ _
    obtain ⟨bytes, stored, itemsEq, same⟩ :=
      array.store_elements placed inside within
    rw [Nat.zero_mul, Nat.add_zero] at stored
    refine ⟨bytes, ?_, ?_, same⟩
    · unfold fieldFromVariant
      split
      · rename_i isText
        exact absurd isText array.2.1
      · rename_i isBlob
        exact absurd isBlob array.2.2
      · rw [if_neg (by have := array.1; omega)]
        exact stored
    · rw [if_pos array, itemsEq, List.take_zero, List.nil_append, Nat.zero_add]
      dsimp only
      rw [List.length_map]
  · rw [if_neg array]
    by_cases isText : fd.type = .stringFixed
    · exact placed.store_text isText inside value
    · by_cases isBlob : fd.type = .blob
      · exact placed.store_blob isBlob inside value
      · have scalar : fd.type.IsScalar := ⟨isText, isBlob⟩
        have one : fd.slotCount = 1 := if_neg array
        have storage := placed.slots_storage
        rw [one, Nat.one_mul] at storage
        obtain ⟨bytes, stored, sized⟩ :=
          scalarFromVariant_sized engine scalar value
        rw [← slotSize_scalar scalar] at sized
        refine ⟨overlay inst fd.offset bytes, ?_, ?_,
          sameOutside_overlay (Nat.le_refl _) (by omega)⟩
        · unfold fieldFromVariant
          split
          · rename_i text
            exact absurd text isText
          · rename_i blob
            exact absurd blob isBlob
          · rw [if_pos (by
                by_contra several
                exact array ⟨by omega, scalar⟩), stored]
            rfl
        · have room : fd.offset + bytes.length ≤ inst.length := by omega
          have whole := window_overlay_self room
          rw [sized] at whole
          unfold items
          rw [one, slots_one, whole, kept_eq_shown scalar stored]

/-- A field shows the same as long as its bytes are the same. -/
theorem SameOutside.items_eq
    {bytes : List UInt8} (same : fd.SameOutside inst bytes)
    {other : FieldDescriptor} (placed : other.Placed engine.types)
    (apart : other.offset + other.storageSize ≤ fd.offset ∨
      fd.offset + fd.storageSize ≤ other.offset) :
    other.items engine bytes = other.items engine inst := by
  have storage := placed.slots_storage
  rw [items_eq_map, items_eq_map]
  refine List.map_congr_left fun i member => ?_
  have last := slot_le (other.slotSize engine.types) (List.mem_range.mp member)
  rw [same.windows _ _ (by omega)]

end FieldDescriptor
end VortarisECS
