import VortarisECS.Serialization.Layout

/-!
# Decoding undoes encoding

Masked fields are written from one instance and read into another.  The reader
takes exactly the bytes the writer produced and touches nothing but the masked
fields.  A scalar field carries its first element only, so an array of scalars
arrives whole just when its other elements were there already.
-/

namespace VortarisECS

/-- The value of a field: its storage, a fixed string up to its first NUL. -/
def FieldDescriptor.valueIn (fd : FieldDescriptor) (inst : List UInt8) :
    List UInt8 :=
  let storage := window inst fd.offset fd.storageSize
  if fd.type = .stringFixed then padString storage else storage

/-- Sending the masked fields of `source` into `target` carries every one of
them over and leaves the rest of `target` alone. -/
structure CarriesOver (schema : ComponentSchema) (mask : List Bool)
    (source target : List UInt8) : Prop where
  whole :
    let wire := (serializeComponentFields schema source {} mask).data
    (deserializeComponentFields schema target ⟨wire, 0⟩ mask).2 =
      some ⟨wire, wire.length⟩
  value :
    let wire := (serializeComponentFields schema source {} mask).data
    let result := (deserializeComponentFields schema target ⟨wire, 0⟩ mask).1
    ∀ fd ∈ maskedFields schema.fields mask,
      window result fd.offset fd.storageSize = fd.valueIn source
  frame :
    let wire := (serializeComponentFields schema source {} mask).data
    let result := (deserializeComponentFields schema target ⟨wire, 0⟩ mask).1
    ∀ i, (∀ fd ∈ maskedFields schema.fields mask,
        i < fd.offset ∨ fd.offset + fd.storageSize ≤ i) →
      result[i]? = target[i]?

/-- The storage of a field behind what it sends, if there is any: the elements
of an array of scalars behind the first one. -/
def unsentBytes (inst : List UInt8) (fd : FieldDescriptor) : List UInt8 :=
  window inst (fd.offset + fieldSize fd) (fd.storageSize - fieldSize fd)

/-! ## Overwriting one field after the other -/

/-- Store fields that are one after the other. -/
def overlayFields (fields : List FieldDescriptor)
    (bytes : FieldDescriptor → List UInt8) (base : List UInt8) : List UInt8 :=
  fields.foldl (fun base fd => overlay base fd.offset (bytes fd)) base

section Overlay

variable {fields : List FieldDescriptor} {bytes : FieldDescriptor → List UInt8}

@[simp] theorem length_overlayFields
    (fields : List FieldDescriptor) (bytes : FieldDescriptor → List UInt8)
    (base : List UInt8) :
    (overlayFields fields bytes base).length = base.length := by
  induction fields generalizing base with
  | nil => rfl
  | cons fd fields inductionHypothesis =>
      rw [overlayFields, List.foldl_cons, ← overlayFields, inductionHypothesis,
        length_overlay]

/-- Bytes no field stores stay as they were. -/
theorem getElem?_overlayFields_outside
    (base : List UInt8) {i : Nat}
    (outside : ∀ fd ∈ fields,
      i < fd.offset ∨ fd.offset + (bytes fd).length ≤ i) :
    (overlayFields fields bytes base)[i]? = base[i]? := by
  induction fields generalizing base with
  | nil => rfl
  | cons fd fields inductionHypothesis =>
      rw [overlayFields, List.foldl_cons, ← overlayFields, inductionHypothesis _
          fun later member => outside later (List.mem_cons_of_mem fd member),
        getElem?_overlay_outside base (outside fd List.mem_cons_self)]

variable (bytes) in
/-- Each field's place holds what was stored there last: its own bytes, then
what was behind them. -/
theorem getElem?_overlayFields_at
    {start finish : Nat} (laid : LaidOut fields start finish)
    (shorter : ∀ fd ∈ fields, (bytes fd).length ≤ fd.storageSize)
    {base : List UInt8} (hosted : finish ≤ base.length)
    {fd : FieldDescriptor} (member : fd ∈ fields) {i : Nat}
    (inStorage : i < fd.storageSize) :
    (overlayFields fields bytes base)[fd.offset + i]? =
      if i < (bytes fd).length then (bytes fd)[i]?
      else base[fd.offset + i]? := by
  induction fields generalizing base start with
  | nil => exact absurd member List.not_mem_nil
  | cons head fields inductionHypothesis =>
      have laterLaid := laid.sublist (List.sublist_cons_self head fields)
      have laterShorter : ∀ later ∈ fields,
          (bytes later).length ≤ later.storageSize :=
        fun later inFields => shorter later (List.mem_cons_of_mem head inFields)
      have ordered := List.pairwise_cons.mp laid.inOrder
      have headInside := laid.inside head List.mem_cons_self
      rw [overlayFields, List.foldl_cons, ← overlayFields]
      obtain rfl | later := List.mem_cons.mp member
      · rw [getElem?_overlayFields_outside]
        · rw [getElem?_overlay]
          by_cases stored : i < (bytes fd).length
          · rw [if_pos stored, if_pos (by omega), Nat.add_sub_cancel_left]
          · rw [if_neg stored, if_neg (by omega)]
        · intro later inFields
          have := ordered.1 later inFields
          omega
      · rw [inductionHypothesis laterLaid laterShorter
          (by rw [length_overlay]; exact hosted) later]
        by_cases stored : i < (bytes fd).length
        · rw [if_pos stored, if_pos stored]
        · rw [if_neg stored, if_neg stored]
          have before := ordered.1 fd later
          have headShorter := shorter head List.mem_cons_self
          exact getElem?_overlay_outside base (Or.inr (by omega))

end Overlay

/-! ## The round trip -/

section Laid

variable {schema : ComponentSchema} {mask : List Bool}
variable {source target : List UInt8}

/-- The bytes on the wire. -/
theorem serialize_data (schema : ComponentSchema) (mask : List Bool)
    (source : List UInt8) :
    (serializeComponentFields schema source {} mask).data =
      encodeFields (maskedFields schema.fields mask) source := by
  rw [serializeComponentFields, writeFields_data, BinaryBuffer.writeBytes_data,
    List.nil_append]

variable (mask source target) in
/-- What the receiver ends with, when the layout fits. -/
theorem deserialize_serialize
    (laid : LaidOut schema.fields 0 schema.size)
    (inMemory : schema.size < sizeLimit) :
    deserializeComponentFields schema target
      ⟨(serializeComponentFields schema source {} mask).data, 0⟩ mask =
      (overlayFields (maskedFields schema.fields mask)
          (encodeField · source) target,
        some ⟨(serializeComponentFields schema source {} mask).data,
          (serializeComponentFields schema source {} mask).data.length⟩) := by
  have sub := maskedFields_sublist schema.fields mask
  have small := (laid.sublist sub).wireSize_le (Nat.zero_le _)
  have wireLength :=
    length_encodeFields (maskedFields schema.fields mask) source
  rw [serialize_data, deserializeComponentFields, readFields_of_remaining
    (BinaryBuffer.remaining_start (by rw [wireLength]; omega))
    (by rw [wireLength]), List.take_of_length_le wireLength.le,
    List.drop_of_length_le wireLength.le, storeFields_encodeFields]
  rfl

/-- The bytes a field sends are the first of its value. -/
theorem encodeField_getElem?
    (laid : LaidOut schema.fields 0 schema.size)
    (sized : source.length = schema.size) {fd : FieldDescriptor}
    (member : fd ∈ schema.fields) {i : Nat} (sent : i < fieldSize fd) :
    (encodeField fd source)[i]? = (fd.valueIn source)[i]? := by
  have inside := laid.inside fd member
  have shorter := laid.fieldSize_le member
  unfold encodeField FieldDescriptor.valueIn fieldSize at *
  cases widthEq : fd.type.scalarWidth with
  | some width =>
      rw [widthEq] at sent shorter
      dsimp only at sent shorter ⊢
      have notString : fd.type ≠ .stringFixed := by
        intro isString
        rw [isString] at widthEq
        exact absurd widthEq (by simp [FieldType.scalarWidth])
      rw [if_neg notString, fd.bytesOf_eq_window (by omega), getElem?_window,
        getElem?_window, if_pos sent, if_pos (by omega)]
  | none =>
      dsimp only
      rw [fd.bytesOf_eq_window (by omega)]

/-- A fixed string is sent whole. -/
theorem not_string_of_unsent
    {fd : FieldDescriptor} {i : Nat}
    (unsent : i < fd.storageSize - fieldSize fd) : fd.type ≠ .stringFixed := by
  intro isString
  have whole : fieldSize fd = fd.storageSize := by
    unfold fieldSize
    rw [isString]
    rfl
  omega

/-- For a layout that fits, everything arrives exactly when the elements that
are not sent agree already. -/
theorem carriesOver_iff
    (laid : LaidOut schema.fields 0 schema.size)
    (inMemory : schema.size < sizeLimit)
    (sourceSized : source.length = schema.size)
    (targetSized : target.length = schema.size) :
    CarriesOver schema mask source target ↔
      ∀ fd ∈ maskedFields schema.fields mask,
        unsentBytes source fd = unsentBytes target fd := by
  have result := deserialize_serialize mask source target laid inMemory
  have sub := maskedFields_sublist schema.fields mask
  have maskedLaid := laid.sublist sub
  have sentAt : ∀ fd ∈ maskedFields schema.fields mask, ∀ i,
      i < fd.storageSize →
      (overlayFields (maskedFields schema.fields mask)
        (encodeField · source) target)[fd.offset + i]? =
        if i < fieldSize fd then (fd.valueIn source)[i]?
        else target[fd.offset + i]? := by
    intro fd member i inStorage
    have placed := getElem?_overlayFields_at (encodeField · source)
      maskedLaid
      (fun field inMask => by
        rw [length_encodeField]
        exact maskedLaid.fieldSize_le inMask)
      targetSized.ge member inStorage
    rw [length_encodeField] at placed
    rw [placed]
    split
    · rename_i sent
      exact encodeField_getElem? laid sourceSized (sub.subset member) sent
    · rfl
  constructor
  · intro carries fd member
    have arrived := carries.value fd member
    rw [result] at arrived
    apply List.ext_getElem?
    intro i
    unfold unsentBytes
    rw [getElem?_window, getElem?_window]
    by_cases bounded : i < fd.storageSize - fieldSize fd
    · have notString := not_string_of_unsent bounded
      have atByte := congrArg
        (fun bytes : List UInt8 => bytes[fieldSize fd + i]?) arrived
      dsimp only at atByte
      rw [getElem?_window, if_pos (by omega),
        sentAt fd member (fieldSize fd + i) (by omega),
        if_neg (by omega), FieldDescriptor.valueIn, if_neg notString,
        getElem?_window, if_pos (by omega)] at atByte
      rw [if_pos bounded, if_pos bounded, Nat.add_assoc]
      exact atByte.symm
    · rw [if_neg bounded, if_neg bounded]
  · intro sameTails
    refine ⟨by dsimp only; rw [result], ?_, ?_⟩
    · intro wire received fd member
      have inSource := laid.inside fd (sub.subset member)
      apply List.ext_getElem?
      intro i
      change (window (deserializeComponentFields schema target
        ⟨(serializeComponentFields schema source {} mask).data, 0⟩ mask).1
          fd.offset fd.storageSize)[i]? = _
      rw [result, getElem?_window]
      dsimp only
      by_cases inStorage : i < fd.storageSize
      · rw [if_pos inStorage, sentAt fd member i inStorage]
        by_cases sent : i < fieldSize fd
        · rw [if_pos sent]
        · have notString : fd.type ≠ .stringFixed :=
            not_string_of_unsent (i := i - fieldSize fd) (by omega)
          have tails := congrArg
            (fun bytes : List UInt8 => bytes[i - fieldSize fd]?)
            (sameTails fd member)
          dsimp only [unsentBytes] at tails
          rw [getElem?_window, getElem?_window, if_pos (by omega),
            if_pos (by omega), show fd.offset + fieldSize fd +
              (i - fieldSize fd) = fd.offset + i by omega] at tails
          rw [if_neg sent, FieldDescriptor.valueIn, if_neg notString,
            getElem?_window, if_pos inStorage, tails]
      · rw [if_neg inStorage, List.getElem?_eq_none]
        have valueLength : (fd.valueIn source).length = fd.storageSize := by
          have windowLength :
              (window source fd.offset fd.storageSize).length =
                fd.storageSize :=
            length_window (by rw [sourceSized]; exact inSource)
          unfold FieldDescriptor.valueIn
          dsimp only
          split
          · rw [length_padString, windowLength]
          · exact windowLength
        omega
    · intro wire received i outside
      change (deserializeComponentFields schema target
        ⟨(serializeComponentFields schema source {} mask).data, 0⟩ mask).1[i]? =
          _
      rw [result]
      apply getElem?_overlayFields_outside
      intro fd member
      have shorter := maskedLaid.fieldSize_le member
      rw [length_encodeField]
      have := outside fd member
      omega

end Laid

/-- Sending the masked fields of a component of a script schema carries them
over exactly when every masked array of scalars has equal elements behind the
first one in both instances. -/
theorem layoutSchema_carriesOver_iff
    {godot : GodotTypes} {name : String} {raw : List FieldDescriptor}
    {schema : ComponentSchema}
    (lays : layoutSchema godot name raw = some schema)
    (fits : FitsMemory godot raw) (mask : List Bool)
    {source target : List UInt8}
    (sourceSized : source.length = schema.size)
    (targetSized : target.length = schema.size) :
    CarriesOver schema mask source target ↔
      ∀ fd ∈ maskedFields schema.fields mask,
        unsentBytes source fd = unsentBytes target fd := by
  obtain ⟨laid, inMemory⟩ := layoutSchema_laidOut lays fits
  exact carriesOver_iff laid inMemory sourceSized targetSized

/-- A number, a string and an array of two numbers. -/
def statsFields : List FieldDescriptor :=
  [{ name := "hp", type := .u16 },
    { name := "name", type := .stringFixed, count := 4 },
    { name := "slots", type := .u8, count := 2 }]

/-- A mask that leaves an array out carries everything else over. -/
theorem layoutSchema_carriesOver_iff_scalars :
    ∃ schema, layoutSchema .singlePrecision "Stats" statsFields = some schema ∧
      CarriesOver schema [true, true, false]
        [1, 2, 65, 0, 66, 0, 7, 8] [0, 0, 0, 0, 0, 0, 3, 4] := by
  refine ⟨_, rfl, ?_⟩
  have laidOut : layoutSchema .singlePrecision "Stats" statsFields = some _ :=
    rfl
  refine (layoutSchema_carriesOver_iff laidOut (by decide) _ (by decide)
    (by decide)).mpr ?_
  decide

/-- Of an array of two numbers only the first arrives. -/
theorem not_carriesOver_array :
    ∃ schema, layoutSchema .singlePrecision "Slots"
        [{ name := "slots", type := .u8, count := 2 }] = some schema ∧
      ¬CarriesOver schema [true] [1, 2] [0, 0] := by
  refine ⟨_, rfl, fun carries => ?_⟩
  have arrived := carries.value _ List.mem_cons_self
  revert arrived
  decide

end VortarisECS
