import VortarisECS.Gdscript.RegisterComponent
import VortarisECS.Reflect.ComponentRoundTrip

/-!
# Layouts of script components

The layout of a component is computed in `size_t` from counts that nothing
checks.  It is well formed exactly if the exact layout does not overflow.
-/

namespace VortarisECS

/-! ## Well-formed layouts -/

/-- The bytes of the elements of a field; the count of a buffer is its length in
bytes. -/
def FieldDescriptor.elementBytes (godot : GodotTypes) (fd : FieldDescriptor) :
    Nat :=
  match fd.type with
  | .stringFixed | .blob => fd.count
  | type => fd.count * fieldTypeSize godot type

/-- The byte belongs to the storage of the field. -/
def FieldDescriptor.Occupies (fd : FieldDescriptor) (i : Nat) : Prop :=
  fd.offset ≤ i ∧ i < fd.offset + fd.storageSize

/-- The fields hold their elements, lie apart from each other inside the
component, and are aligned like the component itself. -/
structure ComponentSchema.WellLaidOut (godot : GodotTypes)
    (schema : ComponentSchema) : Prop where
  holds : ∀ fd ∈ schema.fields, fd.elementBytes godot ≤ fd.storageSize
  aligned : ∀ fd ∈ schema.fields, fieldTypeAlign godot fd.type ∣ fd.offset
  apart : schema.fields.Pairwise fun fd later =>
    ∀ i, ¬(fd.Occupies i ∧ later.Occupies i)
  inside : ∀ fd ∈ schema.fields, fd.offset + fd.storageSize ≤ schema.size
  sizeAligned : schema.alignment ∣ schema.size

/-- The sizes of the engine's value types are values of `size_t`. -/
def GodotTypes.InMemory (godot : GodotTypes) : Prop :=
  ∀ type, godot.sizeOf type < sizeLimit

/-- The raw fields a call asks a layout for. -/
def RegisterCall.rawFields (setting : RegisterSetting τ) :
    RegisterCall τ → Option (List FieldDescriptor)
  | .componentType _ _ _ => none
  | .schemaComponent _ rawFields => some rawFields
  | .script _ fields =>
      setting.engine.parseFields setting.defaultPriority [] fields

/-! ## One field -/

variable {godot : GodotTypes} {fd sized : FieldDescriptor}
  {raw placed : List FieldDescriptor}
  {offset maxAlign elemAlign finish align : Nat}

/-- A value of a type fits into memory. -/
theorem fieldTypeSize_lt
    (inMemory : godot.InMemory) (type : FieldType) :
    fieldTypeSize godot type < sizeLimit := by
  unfold fieldTypeSize
  split <;> first | decide | exact inMemory _

/-- What is aligned is a multiple of the alignment. -/
theorem alignUp_dvd (value align : Nat) : align ∣ alignUp value align :=
  Dvd.intro_left _ rfl

/-- A rounding that overflows restarts the layout. -/
theorem alignUp_of_overflow
    {value : Nat} (bounded : value < sizeLimit)
    (overflows : sizeLimit < value + align) : alignUp value align = 0 := by
  have wraps : sizeT (value + align - 1) < align := by
    unfold sizeT
    by_cases small : align ≤ sizeLimit
    · rw [Nat.mod_eq_sub_mod (by omega), Nat.mod_eq_of_lt (by omega)]
      omega
    · exact (Nat.mod_lt _ (by decide)).trans (Nat.not_le.mp small)
  unfold alignUp
  rw [Nat.div_eq_of_lt wraps, Nat.zero_mul]

/-- Aligned sizes wrap around at 2^64. -/
theorem alignUp_lt (value align : Nat) : alignUp value align < sizeLimit :=
  (Nat.div_mul_le_self _ _).trans_lt (Nat.mod_lt _ (by decide))

/-- Zero is aligned. -/
theorem exactAlignUp_zero (positive : 0 < align) : exactAlignUp 0 align = 0 := by
  unfold exactAlignUp
  rw [Nat.div_eq_of_lt (by omega), Nat.zero_mul]

theorem not_isScalar_iff {type : FieldType} :
    ¬type.IsScalar ↔ type = .stringFixed ∨ type = .blob := by
  unfold FieldType.IsScalar
  rw [not_and_or, not_not, not_not]

theorem elementBytes_buffer (isBuffer : ¬fd.type.IsScalar) :
    fd.elementBytes godot = fd.count := by
  unfold FieldDescriptor.elementBytes
  obtain isString | isBlob := not_isScalar_iff.mp isBuffer
  · rw [isString]
  · rw [isBlob]

/-- A buffer takes as many bytes as it counts. -/
theorem exactStorage_buffer (isBuffer : ¬fd.type.IsScalar) :
    fd.exactStorage godot = fd.count := by
  unfold FieldDescriptor.exactStorage
  obtain isString | isBlob := not_isScalar_iff.mp isBuffer
  · rw [isString]
  · rw [isBlob]

theorem elementBytes_scalar (isScalar : fd.type.IsScalar) :
    fd.elementBytes godot = fieldTypeSize godot fd.type * fd.count := by
  unfold FieldDescriptor.elementBytes
  split
  · rename_i isString
    exact absurd isString isScalar.1
  · rename_i isBlob
    exact absurd isBlob isScalar.2
  · exact Nat.mul_comm _ _

/-- A field takes at least one element. -/
theorem exactStorage_scalar (isScalar : fd.type.IsScalar) :
    fd.exactStorage godot = fieldTypeSize godot fd.type *
      (if fd.count > 0 then fd.count else 1) := by
  unfold FieldDescriptor.exactStorage
  split
  · rename_i isString
    exact absurd isString isScalar.1
  · rename_i isBlob
    exact absurd isBlob isScalar.2
  · rfl

/-- A field of values takes at least a byte. -/
theorem exactStorage_pos
    (godot : GodotTypes) (isScalar : fd.type.IsScalar) :
    0 < fd.exactStorage godot := by
  rw [exactStorage_scalar isScalar]
  refine Nat.mul_pos (fieldTypeSize_pos godot isScalar) ?_
  split <;> omega

/-- Buffers are not aligned. -/
theorem fieldTypeAlign_buffer
    {type : FieldType} (isBuffer : ¬type.IsScalar) :
    fieldTypeAlign godot type = 1 := by
  obtain rfl | rfl := not_isScalar_iff.mp isBuffer
  · rfl
  · rfl

/-- Elements never take more than the storage that the field asks for. -/
theorem elementBytes_le_exactStorage (godot : GodotTypes)
    (fd : FieldDescriptor) :
    fd.elementBytes godot ≤ fd.exactStorage godot := by
  by_cases isScalar : fd.type.IsScalar
  · rw [elementBytes_scalar isScalar, exactStorage_scalar isScalar]
    refine Nat.mul_le_mul_left _ ?_
    split <;> omega
  · rw [elementBytes_buffer isScalar, exactStorage_buffer isScalar]

/-- What `sizeField` makes of a raw field. -/
theorem sizeField_cases
    (sizes : sizeField godot fd = some (sized, elemAlign)) :
    elemAlign = fieldTypeAlign godot fd.type ∧ sized.type = fd.type ∧
      sized.count = fd.count ∧
      ((¬fd.type.IsScalar ∧ sized.byteSize = fd.count) ∨
        (fd.type.IsScalar ∧
          sized.byteSize = sizeT (fd.exactStorage godot))) := by
  unfold sizeField at sizes
  split at sizes
  · rename_i isString
    rw [Option.some.injEq, Prod.mk.injEq] at sizes
    rw [← sizes.1, ← sizes.2, isString]
    exact ⟨rfl, rfl, rfl, Or.inl ⟨not_isScalar_iff.mpr (Or.inl rfl), rfl⟩⟩
  · rename_i isBlob
    rw [Option.some.injEq, Prod.mk.injEq] at sizes
    rw [← sizes.1, ← sizes.2, isBlob]
    exact ⟨rfl, rfl, rfl, Or.inl ⟨not_isScalar_iff.mpr (Or.inr rfl), rfl⟩⟩
  · rename_i notString notBlob
    have isScalar : fd.type.IsScalar := ⟨notString, notBlob⟩
    dsimp only at sizes
    split at sizes
    · exact absurd sizes (by simp)
    · rw [Option.some.injEq, Prod.mk.injEq] at sizes
      rw [← sizes.1, ← sizes.2, exactStorage_scalar isScalar]
      exact ⟨rfl, rfl, rfl, Or.inr ⟨isScalar, rfl⟩⟩

/-- A field that holds its elements has all the storage it asks for. -/
theorem sizeField_exact
    (inMemory : godot.InMemory)
    (sizes : sizeField godot fd = some (sized, elemAlign))
    (holds : sized.elementBytes godot ≤ sized.byteSize) :
    sized.byteSize = fd.exactStorage godot := by
  obtain ⟨-, typeEq, countEq, ⟨isBuffer, storage⟩ |
    ⟨isScalar, storage⟩⟩ := sizeField_cases sizes
  · rw [storage, exactStorage_buffer isBuffer]
  · rw [elementBytes_scalar (by rwa [typeEq]), typeEq, countEq, storage] at holds
    rw [storage]
    rw [exactStorage_scalar isScalar] at holds ⊢
    split at holds
    · rename_i several
      rw [if_pos several]
      exact (sizeT_le _).antisymm holds
    · rename_i single
      rw [if_neg single, Nat.mul_one]
      exact sizeT_of_lt (fieldTypeSize_lt inMemory fd.type)

/-! ## All fields -/

/-- Every field is aligned for its type. -/
theorem layoutFields_aligned
    (lays : layoutFields godot raw offset maxAlign =
      some (placed, finish, align)) {field : FieldDescriptor}
    (member : field ∈ placed) :
    fieldTypeAlign godot field.type ∣ field.offset := by
  obtain ⟨fd, -, sized, elemAlign, start, sizes, rfl⟩ :=
    layoutFields_mem lays member
  obtain ⟨isAlign, typeEq, -⟩ := sizeField_cases sizes
  dsimp only
  rw [typeEq, ← isAlign]
  exact alignUp_dvd start elemAlign

/-- A layout ends at its start or behind one of its fields. -/
theorem layoutFields_finish
    (lays : layoutFields godot raw offset maxAlign =
      some (placed, finish, align)) :
    finish = offset ∨
      ∃ field ∈ placed, finish ≤ field.offset + field.storageSize := by
  induction raw generalizing offset maxAlign placed with
  | nil =>
      rw [layoutFields, Option.some.injEq, Prod.mk.injEq, Prod.mk.injEq] at lays
      exact Or.inl lays.2.1.symm
  | cons fd raw inductionHypothesis =>
      obtain ⟨sized, elemAlign, later, sizes, rfl, rest⟩ :=
        layoutFields_cons lays
      obtain isEnd | ⟨field, inLater, before⟩ := inductionHypothesis rest
      · refine Or.inr ⟨_, List.mem_cons_self, ?_⟩
        rw [isEnd]
        exact sizeT_le _
      · exact Or.inr ⟨field, List.mem_cons_of_mem _ inLater, before⟩

/-- Only fields with storage ask for an alignment. -/
theorem widestAlign_of_empty
    (isEmpty : layoutEnd godot raw offset = 0) : widestAlign godot raw = 1 := by
  induction raw generalizing offset with
  | nil => rfl
  | cons fd raw inductionHypothesis =>
      have isFirst : fd ∈ fd :: raw := List.mem_cons_self
      have stored := exactStorage_le_layoutEnd godot isFirst offset
      rw [isEmpty, Nat.le_zero] at stored
      rw [layoutEnd] at isEmpty
      change max (fieldTypeAlign godot fd.type) (widestAlign godot raw) = 1
      rw [inductionHypothesis isEmpty]
      have isBuffer : ¬fd.type.IsScalar := by
        intro isScalar
        exact (exactStorage_pos godot isScalar).ne' stored
      rw [fieldTypeAlign_buffer isBuffer]
      rfl

/-- A layout whose fields hold their elements apart from each other, inside
`size_t`, is the exact one. -/
theorem layoutFields_exact
    (inMemory : godot.InMemory)
    (lays : layoutFields godot raw offset maxAlign =
      some (placed, finish, align))
    (holds : ∀ field ∈ placed, field.elementBytes godot ≤ field.storageSize)
    (inside : ∀ field ∈ placed, field.offset + field.storageSize < sizeLimit)
    (apart : placed.Pairwise fun field later =>
      ∀ i, ¬(field.Occupies i ∧ later.Occupies i))
    (bounded : offset < sizeLimit) (alignPositive : 0 < maxAlign)
    (behind : 0 < offset → ∀ field ∈ placed, ¬field.Occupies 0) :
    finish = layoutEnd godot raw offset ∧ finish < sizeLimit ∧
      align = max maxAlign (widestAlign godot raw) := by
  induction raw generalizing offset maxAlign placed with
  | nil =>
      rw [layoutFields, Option.some.injEq, Prod.mk.injEq, Prod.mk.injEq] at lays
      obtain ⟨-, rfl, rfl⟩ := lays
      exact ⟨rfl, bounded, (Nat.max_eq_left alignPositive).symm⟩
  | cons fd raw inductionHypothesis =>
      obtain ⟨sized, elemAlign, later, sizes, rfl, rest⟩ :=
        layoutFields_cons lays
      have holdsHere : FieldDescriptor.elementBytes godot
          { sized with offset := alignUp offset elemAlign } ≤ sized.byteSize :=
        holds _ List.mem_cons_self
      have insideHere : alignUp offset elemAlign + sized.byteSize < sizeLimit :=
        inside _ List.mem_cons_self
      have behindHere : 0 < offset →
          ¬(alignUp offset elemAlign ≤ 0 ∧
            0 < alignUp offset elemAlign + sized.byteSize) :=
        fun positive => behind positive _ List.mem_cons_self
      obtain ⟨apartHere, apartLater⟩ := List.pairwise_cons.mp apart
      obtain ⟨rfl, -⟩ := sizeField_cases sizes
      have storage := sizeField_exact inMemory sizes holdsHere
      have elemPositive := fieldTypeAlign_pos godot fd.type
      -- A rounding that overflows would put the field onto an earlier one.
      have rounded : alignUp offset (fieldTypeAlign godot fd.type) =
          exactAlignUp offset (fieldTypeAlign godot fd.type) := by
        by_cases fits : offset + fieldTypeAlign godot fd.type ≤ sizeLimit
        · exact alignUp_eq_exact fits elemPositive
        have restarts := alignUp_of_overflow bounded (Nat.not_le.mp fits)
        rw [restarts]
        obtain rfl | positive := Nat.eq_zero_or_pos offset
        · exact (exactAlignUp_zero elemPositive).symm
        · have isScalar : fd.type.IsScalar := by
            by_contra isBuffer
            rw [fieldTypeAlign_buffer isBuffer] at fits
            omega
          have stored := exactStorage_pos godot isScalar
          rw [restarts, storage] at behindHere
          exact absurd ⟨le_rfl, by omega⟩ (behindHere positive)
      rw [rounded] at apartHere behindHere insideHere rest
      rw [storage] at behindHere insideHere rest
      rw [sizeT_of_lt insideHere] at rest
      have later := inductionHypothesis rest
        (fun field member => holds field (List.mem_cons_of_mem _ member))
        (fun field member => inside field (List.mem_cons_of_mem _ member))
        apartLater insideHere (by omega) ?_
      · rw [layoutEnd]
        refine ⟨later.1, later.2.1, ?_⟩
        rw [later.2.2, Nat.max_assoc]
        rfl
      · intro positive field member occupied
        obtain rfl | behindStart := Nat.eq_zero_or_pos offset
        · rw [exactAlignUp_zero elemPositive] at apartHere positive
          refine apartHere field member 0 ⟨⟨le_rfl, ?_⟩, occupied⟩
          change 0 < 0 + sized.byteSize
          omega
        · exact behind behindStart field (List.mem_cons_of_mem _ member) occupied

/-! ## Whole components -/

/-- A schema is laid out field by field, and its size is aligned. -/
theorem layoutSchema_eq
    {name : String} {schema : ComponentSchema}
    (lays : layoutSchema godot name raw = some schema) :
    ∃ finish, layoutFields godot raw 0 1 =
        some (schema.fields, finish, schema.alignment) ∧
      schema.size = alignUp finish schema.alignment := by
  unfold layoutSchema at lays
  split at lays
  · exact absurd lays (by simp)
  · rename_i layout
    obtain rfl := Option.some.inj lays
    exact ⟨_, layout, rfl⟩

/-- Fields that fit into memory are well laid out. -/
theorem wellLaidOut_of_fitsMemory
    {name : String} {schema : ComponentSchema}
    (lays : layoutSchema godot name raw = some schema)
    (fits : FitsMemory godot raw) : schema.WellLaidOut godot := by
  obtain ⟨finish, layout, sizeEq⟩ := layoutSchema_eq lays
  obtain ⟨laid, -⟩ := layoutSchema_laidOut lays fits
  constructor
  · intro fd member
    rw [(layoutSchema_placed lays fits fd member).storage]
    exact elementBytes_le_exactStorage godot fd
  · exact fun fd member => layoutFields_aligned layout member
  · refine laid.inOrder.imp fun ordered i both => ?_
    have before := both.1.2
    have behind := both.2.1
    omega
  · exact laid.inside
  · rw [sizeEq]
    exact alignUp_dvd finish schema.alignment

/-- Fields that are well laid out fit into memory. -/
theorem fitsMemory_of_wellLaidOut
    (inMemory : godot.InMemory) {name : String} {schema : ComponentSchema}
    (lays : layoutSchema godot name raw = some schema)
    (wellLaidOut : schema.WellLaidOut godot) : FitsMemory godot raw := by
  obtain ⟨finish, layout, sizeEq⟩ := layoutSchema_eq lays
  have sizeBounded : schema.size < sizeLimit := by
    rw [sizeEq]
    exact alignUp_lt finish schema.alignment
  obtain ⟨finishEq, bounded, alignEq⟩ := layoutFields_exact inMemory layout
    wellLaidOut.holds
    (fun field member => (wellLaidOut.inside field member).trans_lt sizeBounded)
    wellLaidOut.apart (by decide) Nat.one_pos
    (fun positive => absurd positive (Nat.lt_irrefl 0))
  rw [Nat.max_eq_right (widestAlign_pos godot raw)] at alignEq
  unfold FitsMemory
  by_contra overflows
  -- The size is then zero, so no field has storage.
  rw [← finishEq, ← alignEq] at overflows
  have empty : schema.size = 0 := by
    rw [sizeEq]
    exact alignUp_of_overflow bounded (Nat.not_le.mp overflows)
  have finishZero : finish = 0 := by
    obtain isStart | ⟨field, member, behind⟩ := layoutFields_finish layout
    · exact isStart
    · have inside := wellLaidOut.inside field member
      omega
  rw [alignEq, widestAlign_of_empty (finishEq.symm.trans finishZero),
    finishZero] at overflows
  exact overflows (by decide)

/-- A layout is well formed exactly if it fits memory. -/
theorem layoutSchema_wellLaidOut_iff
    (inMemory : godot.InMemory) {name : String} {schema : ComponentSchema}
    (lays : layoutSchema godot name raw = some schema) :
    schema.WellLaidOut godot ↔ FitsMemory godot raw :=
  ⟨fitsMemory_of_wellLaidOut inMemory lays, wellLaidOut_of_fitsMemory lays⟩

namespace RegisterRun

variable {τ : Type u} [DecidableEq τ] {setting : RegisterSetting τ}

/-- A call that adds a schema computes its layout. -/
theorem call_layout
    {st : Registrations τ} {call : RegisterCall τ}
    (isRaw : call.rawFields setting = some raw) {added : ComponentSchema}
    (adds : (RegisterRun.call setting st call).1.registry.schemas =
      st.registry.schemas ++ [added]) :
    ∃ name schema, layoutSchema setting.engine.types name raw = some schema ∧
      added = { schema with typeId := added.typeId } := by
  have registers : ∃ name schema,
      layoutSchema setting.engine.types name raw = some schema ∧
      (RegisterRun.call setting st call).1.registry =
        (st.registry.registerComponent schema).2 := by
    cases call with
    | componentType T name fields => exact absurd isRaw (by simp [
        RegisterCall.rawFields])
    | schemaComponent name rawFields =>
        obtain rfl := Option.some.inj isRaw
        obtain ⟨schema, lays, -⟩ :=
          layoutSchema_places setting.engine.types name rawFields
        exact ⟨name, schema, lays, by rw [call_raw st lays]⟩
    | script name fields =>
        obtain ⟨schema, lays, -⟩ :=
          layoutSchema_places setting.engine.types name raw
        exact ⟨name, schema, lays, by rw [call_script st isRaw lays]⟩
  obtain ⟨name, schema, lays, after⟩ := registers
  refine ⟨name, schema, lays, ?_⟩
  rw [after] at adds
  obtain ⟨-, same⟩ | ⟨-, taken, -, same⟩ | ⟨-, -, isNew⟩ :=
    st.registry.registerComponent_cases schema
  · rw [same] at adds
    exact absurd (congrArg List.length adds) (by simp)
  · rw [same] at adds
    exact absurd (congrArg List.length adds) (by simp)
  · rw [isNew] at adds
    obtain rfl := List.singleton_injective (List.append_cancel_left adds)
    rfl

/-- A component registered from raw fields or by a script is well laid out
exactly if its fields fit memory. -/
theorem added_wellLaidOut_iff
    (setting : RegisterSetting τ)
    (inMemory : setting.engine.types.InMemory) (st : Registrations τ)
    (call : RegisterCall τ) (raw : List FieldDescriptor)
    (isRaw : call.rawFields setting = some raw) (added : ComponentSchema)
    (adds : (RegisterRun.call setting st call).1.registry.schemas =
      st.registry.schemas ++ [added]) :
    added.WellLaidOut setting.engine.types ↔
      FitsMemory setting.engine.types raw := by
  obtain ⟨name, schema, lays, isSchema⟩ := call_layout isRaw adds
  rw [← layoutSchema_wellLaidOut_iff inMemory lays, isSchema]
  exact ⟨fun ⟨holds, aligned, apart, inside, size⟩ =>
      ⟨holds, aligned, apart, inside, size⟩,
    fun ⟨holds, aligned, apart, inside, size⟩ =>
      ⟨holds, aligned, apart, inside, size⟩⟩

/-- A script that registers a component with an array. -/
def registerArray (name field type : String) (count : Int64) :
    RegisterCall Unit :=
  .script name [.dictionary [(.string "name", .string field),
    (.string "type", .string type), (.string "count", .int count)]]

/-- A component of one array, as the registry keeps it. -/
def arraySchema (name field : String) (size count : Nat) : ComponentSchema where
  typeName := name
  typeId := 1
  size := size
  alignment := 8
  fields := [{
    name := field
    type := .i64
    byteSize := size
    count := count
    elementType := some .i64 }]
  isNetworked := true

/-- An array of four numbers. -/
theorem added_wellLaidOut_iff_small :
    (arraySchema "Grid" "cells" 32 4).WellLaidOut
        singleTypeSetting.engine.types ↔
      FitsMemory singleTypeSetting.engine.types
        [{ name := "cells", type := .i64, count := 4 }] :=
  added_wellLaidOut_iff singleTypeSetting
    (fun type => by cases type <;> decide) {}
    (registerArray "Grid" "cells" "I64" 4)
    [{ name := "cells", type := .i64, count := 4 }] (by decide +kernel)
    (arraySchema "Grid" "cells" 32 4) (by decide +kernel)

/-- The bytes of 2 to the power of 61 numbers wrap around to none at all. -/
theorem added_wellLaidOut_wraps :
    (RegisterRun.call singleTypeSetting {}
      (registerArray "Grid" "cells" "I64" (2 ^ 61))).1.registry.schemas =
        [arraySchema "Grid" "cells" 0 (2 ^ 61)] ∧
    ¬(arraySchema "Grid" "cells" 0 (2 ^ 61)).WellLaidOut
      singleTypeSetting.engine.types := by
  refine ⟨by decide +kernel, fun wellLaidOut => ?_⟩
  have holds := wellLaidOut.holds _ List.mem_cons_self
  exact absurd holds (by decide)

end RegisterRun
end VortarisECS
