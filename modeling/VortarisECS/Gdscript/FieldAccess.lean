import VortarisECS.Gdscript.EntityHandle
import VortarisECS.Library.Transcript
import VortarisECS.Reflect.FieldItems

/-!
# Field access by script

A script reads and writes the fields of a component through a handle, whole or
element by element.  To the script the components are a sheet of lists of
values: every call is answered from the sheet, and a write changes the row of
its own field and no other, and is announced when the sheet shows it.
-/

namespace VortarisECS

/-- The field a handle finds by its name. -/
def ComponentRegistry.fieldOf (registry : ComponentRegistry)
    (t : ComponentTypeId) (name : String) : Option FieldDescriptor :=
  (registry.schemaOf t).bind (·.findField name)

/-! ## The handle -/

namespace World

variable (engine : Engine) (registry : ComponentRegistry)

/-- `VECSComponent::is_valid`. -/
def handleValid (w : World) (e : Entity) (t : ComponentTypeId) : Bool :=
  w.isAlive e && w.has e t

/-- `VECSComponent::get_fields`. -/
def getFields (w : World) (e : Entity) (t : ComponentTypeId) :
    List (Variant × Variant) :=
  if !w.handleValid e t then []
  else
    match registry.schemaOf t, w.getRaw e t with
    | some schema, some raw => componentBytesToVariantDict engine schema raw
    | _, _ => []

/-- `VECSComponent::get_field_count`. -/
def getFieldCount (w : World) (e : Entity) (t : ComponentTypeId)
    (name : String) : Nat :=
  if !w.handleValid e t then 0
  else
    match registry.fieldOf t name with
    | none => 0
    | some fd => fd.count

/-- `VECSComponent::get_array_element`. -/
def getArrayElement (w : World) (e : Entity) (t : ComponentTypeId)
    (name : String) (index : Int64) : Variant :=
  if !w.handleValid e t || index.toInt < 0 then .nil
  else
    match registry.fieldOf t name, w.getRaw e t with
    | some fd, some raw =>
        if fd.count ≤ 1 ∨ fd.type = .stringFixed ∨ fd.type = .blob then .nil
        else if fd.count ≤ index.toInt.toNat then .nil
        else
          (scalarToVariant engine fd.arrayType
            (raw.drop (fd.offset + index.toInt.toNat * fd.elemSize))).getD .nil
    | _, _ => .nil

/-- `VECSComponent::field_contains`. -/
def fieldContains (w : World) (e : Entity) (t : ComponentTypeId)
    (name : String) (value : Variant) : Bool :=
  if !w.handleValid e t then false
  else
    match registry.fieldOf t name, w.getRaw e t with
    | some fd, some raw =>
        if fd.count ≤ 1 ∨ fd.type = .stringFixed ∨ fd.type = .blob then
          match fieldToVariant engine fd (raw.drop fd.offset) with
          | none => false
          | some held => variantsEqual engine held value
        else
          (List.range fd.count).any fun i =>
            match scalarToVariant engine fd.arrayType
                (raw.drop (fd.offset + i * fd.elemSize)) with
            | none => false
            | some held => variantsEqual engine held value
    | _, _ => false

/-- `VECSComponent::set_array_element`, with what it returns. -/
def setArrayElement (w : World) (e : Entity) (t : ComponentTypeId)
    (name : String) (index : Int64) (value : Variant) :
    Traced Effect World × Bool :=
  if !w.handleValid e t || index.toInt < 0 then (.pure w, false)
  else
    match registry.fieldOf t name, w.getRaw e t with
    | some fd, some raw =>
        if fd.count ≤ 1 ∨ fd.type = .stringFixed ∨ fd.type = .blob then
          (.pure w, false)
        else if fd.count ≤ index.toInt.toNat then (.pure w, false)
        else
          match scalarFromVariant engine fd.arrayType value with
          | none => (.pure w, false)
          | some bytes =>
              ((w.writeRaw e t (overlay raw
                (fd.offset + index.toInt.toNat * fd.elemSize) bytes)).markChanged
                  e t name, true)
    | _, _ => (.pure w, false)

end World

/-! ## The sheet -/

/-- The values of the fields of all components, by entity, component and name. -/
def Sheet : Type :=
  Entity → ComponentTypeId → String → Option (List Variant)

/-- What a script asks of a handle. -/
inductive FieldCall
  | getField (e : Entity) (t : ComponentTypeId) (name : String)
      (default : Variant)
  | getFields (e : Entity) (t : ComponentTypeId)
  | getFieldCount (e : Entity) (t : ComponentTypeId) (name : String)
  | getArrayElement (e : Entity) (t : ComponentTypeId) (name : String)
      (index : Int64)
  | fieldContains (e : Entity) (t : ComponentTypeId) (name : String)
      (value : Variant)
  | setField (e : Entity) (t : ComponentTypeId) (name : String)
      (value : Variant)
  | setArrayElement (e : Entity) (t : ComponentTypeId) (name : String)
      (index : Int64) (value : Variant)

/-- The answer to a call, and the events it caused: what each is about, and the
sheet as the observers find it. -/
structure FieldReply where
  value : Variant
  heard : List (ObserverEventType × Entity × ComponentTypeId × String × Sheet)
    := []

namespace Sheet

variable (engine : Engine) (registry : ComponentRegistry) (sheet : Sheet)

/-- Replace the values of one field. -/
def write (e : Entity) (t : ComponentTypeId) (name : String)
    (values : List Variant) : Sheet :=
  fun x u other =>
    if x = e ∧ u = t ∧ other = name then some values else sheet x u other

/-- A row, with the field it belongs to. -/
def row (e : Entity) (t : ComponentTypeId) (name : String) :
    Option (FieldDescriptor × List Variant) :=
  (registry.fieldOf t name).bind fun fd => (sheet e t name).map (Prod.mk fd)

/-- A write that is announced. -/
def announce (e : Entity) (t : ComponentTypeId) (name : String)
    (values : List Variant) (value : Variant) : Sheet × FieldReply :=
  let next := sheet.write e t name values
  (next, { value, heard := [(.changed, e, t, name, next)] })

/-- The dictionary of a component. -/
def dictionary (e : Entity) (t : ComponentTypeId) : List (Variant × Variant) :=
  match registry.schemaOf t with
  | none => []
  | some schema =>
      schema.fields.foldl (fun entries fd =>
        match sheet e t fd.name with
        | none => entries
        | some values =>
            engine.set entries (.string fd.name) (fd.gathered values)) []

/-- How a sheet answers. -/
def answer : FieldCall → Sheet × FieldReply
  | .getField e t name default =>
      (sheet, { value := match sheet.row registry e t name with
        | none => default
        | some (fd, values) => fd.gathered values })
  | .getFields e t =>
      (sheet, { value := .dictionary (sheet.dictionary engine registry e t) })
  | .getFieldCount e t name =>
      (sheet, { value := .int (Int64.ofNat
        (((sheet.row registry e t name).map (·.1.count)).getD 0)) })
  | .getArrayElement e t name index =>
      (sheet, { value := match sheet.row registry e t name with
        | none => .nil
        | some (fd, values) =>
            if fd.IsArray ∧ 0 ≤ index.toInt then
              (values[index.toInt.toNat]?).getD .nil
            else .nil })
  | .fieldContains e t name value =>
      (sheet, { value := .bool (match sheet.row registry e t name with
        | none => false
        | some (fd, values) =>
            if fd.IsArray then
              values.any fun held => variantsEqual engine held value
            else variantsEqual engine (fd.gathered values) value) })
  | .setField e t name value =>
      match sheet.row registry e t name with
      | none => (sheet, { value := .nil })
      | some (fd, values) =>
          sheet.announce e t name (fd.taking engine values value) .nil
  | .setArrayElement e t name index value =>
      match sheet.row registry e t name with
      | none => (sheet, { value := .bool false })
      | some (fd, values) =>
          if fd.IsArray ∧ 0 ≤ index.toInt ∧ index.toInt.toNat < values.length
          then
            sheet.announce e t name
              (values.set index.toInt.toNat (fd.kept engine value)) (.bool true)
          else (sheet, { value := .bool false })

end Sheet

/-- What a script would find in the fields. -/
def Contents.sheet (engine : Engine) (registry : ComponentRegistry)
    (contents : Contents) : Sheet :=
  fun e t name => (registry.fieldOf t name).bind fun fd =>
    ((contents e).bind (· t)).map (fd.items engine)

namespace World

variable (engine : Engine) (registry : ComponentRegistry)

/-- What the fields of a world hold. -/
def sheet (w : World) : Sheet := w.contents.sheet engine registry

/-- What the observers hear of a step. -/
def heard (effects : List Effect) :
    List (ObserverEventType × Entity × ComponentTypeId × String × Sheet) :=
  effects.filterMap fun effect =>
    match effect with
    | .dispatched type e t name seen =>
        some (type, e, t, name, seen.sheet engine registry)
    | _ => none

/-- How a world answers. -/
def answer (w : World) : FieldCall → World × FieldReply
  | .getField e t name default =>
      (w, { value := w.getComponentField engine registry e t name default })
  | .getFields e t =>
      (w, { value := .dictionary (w.getFields engine registry e t) })
  | .getFieldCount e t name =>
      (w, { value := .int (Int64.ofNat (w.getFieldCount registry e t name)) })
  | .getArrayElement e t name index =>
      (w, { value := w.getArrayElement engine registry e t name index })
  | .fieldContains e t name value =>
      (w, { value := .bool (w.fieldContains engine registry e t name value) })
  | .setField e t name value =>
      let step := w.setComponentField engine registry e t name value
      (step.state,
        { value := .nil, heard := heard engine registry step.effects })
  | .setArrayElement e t name index value =>
      let (step, stored) :=
        w.setArrayElement engine registry e t name index value
      (step.state,
        { value := .bool stored, heard := heard engine registry step.effects })

end World
/-! ## Layouts -/

/-- The fields of a component lie behind each other, each with the storage of
all its elements and a name of its own. -/
structure ComponentSchema.Placed (types : GodotTypes)
    (schema : ComponentSchema) : Prop where
  laid : LaidOut schema.fields 0 schema.size
  placed : ∀ fd ∈ schema.fields, fd.Placed types
  names : (schema.fields.map FieldDescriptor.name).Nodup

/-- Every registered schema is placed. -/
def ComponentRegistry.Placed (types : GodotTypes)
    (registry : ComponentRegistry) : Prop :=
  ∀ schema ∈ registry.schemas, schema.Placed types

/-- The layout keeps the names. -/
theorem layoutFields_names
    {godot : GodotTypes} {rawFields fields : List FieldDescriptor}
    {offset maxAlign finish align : Nat}
    (lays : layoutFields godot rawFields offset maxAlign =
      some (fields, finish, align)) :
    fields.map FieldDescriptor.name = rawFields.map FieldDescriptor.name := by
  induction rawFields generalizing offset maxAlign fields with
  | nil =>
      rw [layoutFields, Option.some.injEq, Prod.mk.injEq] at lays
      rw [← lays.1]
  | cons fd rawFields inductionHypothesis =>
      obtain ⟨sized, elemAlign, placed, sizes, rfl, later⟩ :=
        layoutFields_cons lays
      have sameName : sized.name = fd.name := by
        unfold sizeField at sizes
        grind
      rw [List.map_cons, List.map_cons, inductionHypothesis later]
      exact congrArg (· :: _) sameName

/-- Registering fields that fit, under different names, keeps all components
placed. -/
theorem ComponentRegistry.Placed.register
    {types : GodotTypes} {registry : ComponentRegistry}
    (placed : registry.Placed types) {name : String}
    {rawFields : List FieldDescriptor} (fits : FitsMemory types rawFields)
    (names : (rawFields.map FieldDescriptor.name).Nodup) :
    (registry.registerSchemaComponent types name rawFields).2.Placed types := by
  unfold registerSchemaComponent
  cases lays : layoutSchema types name rawFields with
  | none => exact placed
  | some schema =>
      have ofFields : schema.fields.map FieldDescriptor.name =
          rawFields.map FieldDescriptor.name := by
        unfold layoutSchema at lays
        cases layout : layoutFields types rawFields 0 1 with
        | none =>
            rw [layout] at lays
            exact absurd lays (by simp)
        | some found =>
            rw [layout] at lays
            rw [← Option.some.inj lays]
            exact layoutFields_names layout
      have new : schema.Placed types :=
        ⟨(layoutSchema_laidOut lays fits).1, layoutSchema_placed lays fits,
          ofFields ▸ names⟩
      dsimp only
      unfold registerComponent
      split
      · exact placed
      · split
        · exact placed
        · intro other member
          obtain old | isNew := List.mem_append.mp member
          · exact placed other old
          · rw [List.mem_singleton.mp isNew]
            exact ⟨new.laid, new.placed, new.names⟩

/-- Fields that are laid out share no bytes. -/
theorem LaidOut.disjoint
    {fields : List FieldDescriptor} {start finish : Nat}
    (laid : LaidOut fields start finish) {fd other : FieldDescriptor}
    (member : fd ∈ fields) (otherMember : other ∈ fields) (differ : fd ≠ other) :
    other.offset + other.storageSize ≤ fd.offset ∨
      fd.offset + fd.storageSize ≤ other.offset := by
  have symmetric : Std.Symm fun fd other : FieldDescriptor =>
      other.offset + other.storageSize ≤ fd.offset ∨
        fd.offset + fd.storageSize ≤ other.offset :=
    ⟨fun _ _ => Or.symm⟩
  have disjoint : fields.Pairwise fun fd other : FieldDescriptor =>
      other.offset + other.storageSize ≤ fd.offset ∨
        fd.offset + fd.storageSize ≤ other.offset :=
    laid.inOrder.imp Or.inr
  exact disjoint.forall member otherMember differ

variable {engine : Engine} {registry : ComponentRegistry}
variable {e : Entity} {t : ComponentTypeId} {name : String}
variable {fd : FieldDescriptor} {raw : List UInt8}

/-- A field that is found by name is one of its schema. -/
theorem ComponentRegistry.fieldOf_eq_some
    (found : registry.fieldOf t name = some fd) :
    ∃ schema, registry.schemaOf t = some schema ∧ fd ∈ schema.fields ∧
      fd.name = name := by
  obtain ⟨schema, registered, field⟩ := Option.bind_eq_some_iff.mp found
  have named := List.find?_some
    (show schema.fields.find? (·.name = name) = some fd from field)
  exact ⟨schema, registered, List.mem_of_find?_eq_some field,
    of_decide_eq_true named⟩

/-- Fields of one component found by different names. -/
theorem ComponentRegistry.Placed.apart
    (placed : registry.Placed engine.types)
    (found : registry.fieldOf t name = some fd) {otherName : String}
    {other : FieldDescriptor}
    (otherFound : registry.fieldOf t otherName = some other)
    (differ : otherName ≠ name) :
    other.offset + other.storageSize ≤ fd.offset ∨
      fd.offset + fd.storageSize ≤ other.offset := by
  obtain ⟨schema, registered, member, nameEq⟩ := fieldOf_eq_some found
  obtain ⟨schema', registered', otherMember, otherNameEq⟩ :=
    fieldOf_eq_some otherFound
  obtain rfl := Option.some.inj (registered.symm.trans registered')
  refine (placed schema (mem_schemas_of_schemaOf registered)).laid.disjoint member
    otherMember ?_
  rintro rfl
  exact differ (otherNameEq.symm.trans nameEq)

/-- It is placed within the component. -/
theorem ComponentRegistry.Placed.field
    (placed : registry.Placed engine.types)
    (found : registry.fieldOf t name = some fd) :
    fd.Placed engine.types ∧ fd.offset + fd.storageSize ≤ registry.sizeOf t := by
  obtain ⟨schema, registered, member, -⟩ := fieldOf_eq_some found
  have ofSchema := placed schema (mem_schemas_of_schemaOf registered)
  rw [sizeOf_of_schemaOf registered]
  exact ⟨ofSchema.placed fd member, ofSchema.laid.inside fd member⟩

/-- A write inside of a field changes the row of the field. -/
theorem Contents.sheet_put
    (placed : registry.Placed engine.types) {contents : Contents}
    (held : (contents e).bind (· t) = some raw)
    (found : registry.fieldOf t name = some fd) {bytes : List UInt8}
    (same : fd.SameOutside raw bytes) :
    (contents.put e t (some bytes)).sheet engine registry =
      (contents.sheet engine registry).write e t name
        (fd.items engine bytes) := by
  funext x u other
  unfold Contents.sheet Sheet.write Contents.put
  dsimp only
  by_cases isSelf : x = e
  · subst isSelf
    obtain ⟨components, here, there⟩ := Option.bind_eq_some_iff.mp held
    rw [adjust_self, here, Option.map_some, Option.bind_some, Option.bind_some]
    unfold Components.put
    by_cases isType : u = t
    · subst isType
      rw [if_pos rfl, there]
      by_cases isName : other = name
      · rw [if_pos ⟨rfl, rfl, isName⟩, isName, found]
        rfl
      · rw [if_neg fun all => isName all.2.2]
        cases otherFound : registry.fieldOf u other with
        | none => rfl
        | some fd' =>
            exact congrArg some (same.items_eq (placed.field otherFound).1
              (placed.apart found otherFound isName))
    · rw [if_neg isType, if_neg fun all => isType all.2.1]
  · rw [adjust_of_ne _ _ isSelf, if_neg fun all => isSelf all.1]

namespace World

variable {w : World}

/-- A handle is valid if its entity holds the component. -/
theorem handleValid_eq (consistent : w.store.Consistent registry) (e : Entity)
    (t : ComponentTypeId) :
    w.handleValid e t = ((w.contents e).bind (· t)).isSome := by
  have represents := represents_contents consistent
  unfold handleValid
  rw [represents.isAlive, represents.has_eq]
  cases w.contents e with
  | none => rfl
  | some components => exact Bool.true_and _

/-- A row of the sheet is a field and its values. -/
theorem sheet_row_eq (w : World) (e : Entity) (t : ComponentTypeId)
    (name : String) :
    (w.sheet engine registry).row registry e t name =
      (registry.fieldOf t name).bind fun fd =>
        ((w.contents e).bind (· t)).map fun raw => (fd, fd.items engine raw) := by
  unfold Sheet.row sheet Contents.sheet
  cases registry.fieldOf t name with
  | none => rfl
  | some fd =>
      rw [Option.bind_some, Option.bind_some, Option.bind_some, Option.map_map]
      rfl

/-- The handle is valid and finds a field, which lies in the bytes that the
component holds. -/
structure Finds (engine : Engine) (registry : ComponentRegistry) (w : World)
    (e : Entity) (t : ComponentTypeId) (name : String) (fd : FieldDescriptor)
    (raw : List UInt8) : Prop where
  row : (w.sheet engine registry).row registry e t name =
    some (fd, fd.items engine raw)
  valid : w.handleValid e t = true
  found : registry.fieldOf t name = some fd
  held : (w.contents e).bind (· t) = some raw
  reads : w.getRaw e t = some raw
  placed : fd.Placed engine.types
  inside : fd.offset + fd.storageSize ≤ raw.length

/-- A handle has no row, or finds what the row shows. -/
theorem row_cases
    (placed : registry.Placed engine.types)
    (consistent : w.store.Consistent registry) (e : Entity)
    (t : ComponentTypeId) (name : String) :
    (w.sheet engine registry).row registry e t name = none ∧
        (w.handleValid e t = false ∨ registry.fieldOf t name = none) ∨
      ∃ fd raw, w.Finds engine registry e t name fd raw := by
  have represents := represents_contents consistent
  have rowEq : (w.sheet engine registry).row registry e t name = _ :=
    sheet_row_eq w e t name
  have validEq := handleValid_eq consistent e t
  cases held : (w.contents e).bind (· t) with
  | none =>
      rw [held] at rowEq validEq
      refine Or.inl ⟨?_, Or.inl validEq⟩
      rw [rowEq]
      cases registry.fieldOf t name <;> rfl
  | some raw =>
      rw [held] at rowEq validEq
      cases found : registry.fieldOf t name with
      | none =>
          rw [found] at rowEq
          exact Or.inl ⟨rowEq, Or.inr rfl⟩
      | some fd =>
          rw [found] at rowEq
          have reads := (represents.getRaw e t).trans held
          obtain ⟨fdPlaced, inside⟩ := placed.field found
          rw [← getRaw_length consistent reads] at inside
          exact Or.inr ⟨fd, raw, rowEq, validEq, found, held, reads, fdPlaced,
            inside⟩

/-- A mark is a write and one Changed event under the name of the field. -/
theorem markChanged_effects
    (alive : w.isAlive e = true) (present : w.has e t = true) :
    (w.markChanged e t name).effects = [.wrote e t,
      .dispatched .changed e t name (w.markChanged e t name).state] := by
  obtain ⟨loc, location⟩ := location_of_isAlive alive
  unfold World.has at present
  rw [location, Bool.and_eq_true] at present
  unfold markChanged
  rw [alive, Bool.not_true, if_neg Bool.false_ne_true, location]
  dsimp only
  rw [present.2, Bool.not_true, if_neg Bool.false_ne_true]

/-- What a write through a handle does. -/
theorem write_announces
    (placed : registry.Placed engine.types) (stable : w.Stable registry)
    (held : (w.contents e).bind (· t) = some raw)
    (found : registry.fieldOf t name = some fd) {bytes : List UInt8}
    (same : fd.SameOutside raw bytes) :
    let step := (w.writeRaw e t bytes).markChanged e t name
    step.state.Stable registry ∧
      step.state.sheet engine registry = (w.sheet engine registry).write e t
        name (fd.items engine bytes) ∧
      heard engine registry step.effects =
        [(.changed, e, t, name, step.state.sheet engine registry)] := by
  obtain ⟨alive, present, reads⟩ := held_of_contents stable.consistent held
  have sized : bytes.length = registry.sizeOf t :=
    same.length.trans (getRaw_length stable.consistent reads)
  have written : (w.writeRaw e t bytes).Stable registry :=
    stable.keeps (writeRaw_realizes e t sized) (Traced.accepted_pure _ _)
  have contentsEq : (w.writeRaw e t bytes).contents =
      w.contents.put e t (some bytes) :=
    writeRaw_contents stable.consistent reads alive bytes
  have stillHeld : ((w.writeRaw e t bytes).contents e).bind (· t) =
      some bytes := by
    obtain ⟨components, here, -⟩ := Option.bind_eq_some_iff.mp held
    rw [contentsEq, Contents.put, Contents.adjust_self, here]
    exact if_pos rfl
  obtain ⟨stillAlive, stillPresent, -⟩ :=
    held_of_contents written.consistent stillHeld
  refine ⟨written.keeps (markChanged_realizes e t name)
    (markChanged_createsNothing _ e t name), ?_, ?_⟩
  · unfold sheet
    rw [markChanged_contents written.consistent, contentsEq,
      Contents.sheet_put placed held found same]
  · rw [markChanged_effects stillAlive stillPresent]
    rfl

/-! ## Calls -/

variable {index : Int64} {value : Variant}

/-- A field is an array if it has several elements and is no buffer. -/
theorem isArray_iff (fd : FieldDescriptor) :
    ¬(fd.count ≤ 1 ∨ fd.type = .stringFixed ∨ fd.type = .blob) ↔
      fd.IsArray := by
  rw [not_or, not_or, Nat.not_le]
  rfl

/-- A field is read from the sheet. -/
theorem getComponentField_sheet
    (placed : registry.Placed engine.types) (stable : w.Stable registry)
    (default : Variant) :
    w.getComponentField engine registry e t name default =
      match (w.sheet engine registry).row registry e t name with
      | none => default
      | some (fd, values) => fd.gathered values := by
  obtain ⟨noRow, invalid | unknown⟩ | ⟨fd, raw, finds⟩ :=
    row_cases placed stable.consistent e t name
  · rw [noRow]
    exact if_pos (by rw [show (w.isAlive e && w.has e t) = false from invalid]; rfl)
  · rw [noRow]
    unfold getComponentField
    rw [show (registry.schemaOf t).bind (·.findField name) = none from unknown]
    exact ite_self _
  · rw [finds.row, getComponentField_eq stable.consistent finds.held finds.found,
      finds.placed.fieldToVariant_eq finds.inside]
    rfl

/-- The number of elements is that of the field. -/
theorem getFieldCount_sheet
    (placed : registry.Placed engine.types) (stable : w.Stable registry) :
    w.getFieldCount registry e t name =
      (((w.sheet engine registry).row registry e t name).map
        (·.1.count)).getD 0 := by
  obtain ⟨noRow, invalid | unknown⟩ | ⟨fd, raw, finds⟩ :=
    row_cases placed stable.consistent e t name
  · rw [noRow]
    exact if_pos (by rw [invalid]; rfl)
  · rw [noRow]
    unfold getFieldCount
    rw [unknown]
    exact ite_self _
  · unfold getFieldCount
    rw [finds.row, finds.valid, finds.found]
    rfl

/-- An element is read from the sheet. -/
theorem getArrayElement_sheet
    (placed : registry.Placed engine.types) (stable : w.Stable registry) :
    w.getArrayElement engine registry e t name index =
      match (w.sheet engine registry).row registry e t name with
      | none => .nil
      | some (fd, values) =>
          if fd.IsArray ∧ 0 ≤ index.toInt then
            (values[index.toInt.toNat]?).getD .nil
          else .nil := by
  unfold getArrayElement
  obtain ⟨noRow, invalid | unknown⟩ | ⟨fd, raw, finds⟩ :=
    row_cases placed stable.consistent e t name
  · rw [noRow, invalid]
    rfl
  · rw [noRow, unknown]
    exact ite_self _
  · rw [finds.row, finds.valid, finds.found, finds.reads, Bool.not_true,
      Bool.false_or]
    dsimp only
    by_cases negative : index.toInt < 0
    · rw [if_pos (decide_eq_true negative),
        if_neg fun both => absurd both.2 (by omega)]
    · rw [if_neg (by simpa using negative)]
      by_cases array : fd.IsArray
      · have readable : fd.IsArray ∧ 0 ≤ index.toInt := ⟨array, by omega⟩
        rw [if_neg ((isArray_iff fd).mpr array), if_pos readable]
        by_cases beyond : fd.count ≤ index.toInt.toNat
        · have counted : (fd.items engine raw).length = fd.count :=
            (FieldDescriptor.length_items raw).trans (if_pos array)
          rw [if_pos beyond, List.getElem?_eq_none (by omega)]
          rfl
        · rw [if_neg beyond, array.element_eq finds.placed finds.inside (by omega)]
      · rw [if_pos (by_contra fun isArray => array ((isArray_iff fd).mp isArray)),
          if_neg fun both => array both.1]

/-- A value is looked for in the sheet. -/
theorem fieldContains_sheet
    (placed : registry.Placed engine.types) (stable : w.Stable registry) :
    w.fieldContains engine registry e t name value =
      match (w.sheet engine registry).row registry e t name with
      | none => false
      | some (fd, values) =>
          if fd.IsArray then
            values.any fun held => variantsEqual engine held value
          else variantsEqual engine (fd.gathered values) value := by
  unfold fieldContains
  obtain ⟨noRow, invalid | unknown⟩ | ⟨fd, raw, finds⟩ :=
    row_cases placed stable.consistent e t name
  · rw [noRow, invalid]
    rfl
  · rw [noRow, unknown]
    exact ite_self _
  · rw [finds.row, finds.valid, finds.found, finds.reads]
    dsimp only
    rw [Bool.not_true, if_neg Bool.false_ne_true]
    by_cases array : fd.IsArray
    · have counted : fd.slotCount = fd.count := if_pos array
      rw [if_neg ((isArray_iff fd).mpr array), if_pos array]
      rw [FieldDescriptor.items_eq_map, counted, List.any_map,
        Bool.eq_iff_iff, List.any_eq_true, List.any_eq_true]
      refine exists_congr fun i => and_congr_right fun member => ?_
      have within := List.mem_range.mp member
      rw [array.element_eq finds.placed finds.inside within,
        FieldDescriptor.getElem?_items (by rw [counted]; exact within)]
      rfl
    · rw [if_pos (by_contra fun isArray => array ((isArray_iff fd).mp isArray)),
        if_neg array, finds.placed.fieldToVariant_eq finds.inside]

/-- A field of a schema is found by its name. -/
theorem fieldOf_of_mem
    (placed : registry.Placed engine.types) {schema : ComponentSchema}
    (registered : registry.schemaOf t = some schema)
    (member : fd ∈ schema.fields) : registry.fieldOf t fd.name = some fd := by
  have names := (placed schema
    (ComponentRegistry.mem_schemas_of_schemaOf registered)).names
  unfold ComponentRegistry.fieldOf ComponentSchema.findField
  rw [registered, Option.bind_some]
  cases found : schema.fields.find? (·.name = fd.name) with
  | none =>
      exact absurd rfl
        (of_decide_eq_false (Bool.eq_false_iff.mpr
          (List.find?_eq_none.mp found fd member)))
  | some other =>
      have named := List.find?_some
        (show schema.fields.find? (·.name = fd.name) = some other from found)
      rw [List.inj_on_of_nodup_map names (List.mem_of_find?_eq_some found) member
        (of_decide_eq_true named)]

/-- All fields are read from the sheet. -/
theorem getFields_sheet
    (placed : registry.Placed engine.types) (stable : w.Stable registry) :
    w.getFields engine registry e t =
      (w.sheet engine registry).dictionary engine registry e t := by
  have represents := represents_contents stable.consistent
  unfold getFields Sheet.dictionary
  rw [handleValid_eq stable.consistent, represents.getRaw]
  cases registered : registry.schemaOf t with
  | none => exact ite_self _
  | some schema =>
      dsimp only
      cases held : (w.contents e).bind (· t) with
      | none =>
          symm
          apply List.foldl_fixed'
          intro fd
          unfold sheet Contents.sheet
          rw [held]
          cases registry.fieldOf t fd.name <;> rfl
      | some raw =>
          rw [Option.isSome_some, Bool.not_true, if_neg Bool.false_ne_true]
          unfold componentBytesToVariantDict
          apply List.foldl_ext
          intro entries fd member
          have found := fieldOf_of_mem placed registered member
          obtain ⟨fdPlaced, inside⟩ := placed.field found
          rw [← getRaw_length stable.consistent
            ((represents.getRaw e t).trans held)] at inside
          unfold sheet Contents.sheet
          rw [found, held, fdPlaced.fieldToVariant_eq inside]
          rfl

/-- A field is written to the sheet. -/
theorem setComponentField_sheet
    (placed : registry.Placed engine.types) (stable : w.Stable registry) :
    let step := w.setComponentField engine registry e t name value
    let next := (w.sheet engine registry).answer engine registry
      (.setField e t name value)
    step.state.Stable registry ∧ step.state.sheet engine registry = next.1 ∧
      (⟨.nil, heard engine registry step.effects⟩ : FieldReply) = next.2 := by
  intro step next
  obtain ⟨noRow, refused⟩ | ⟨fd, raw, finds⟩ :=
    row_cases placed stable.consistent e t name
  · have unchanged : step = .pure w := by
      obtain invalid | unknown := refused
      · exact if_pos (by
          rw [show (w.isAlive e && w.has e t) = false from invalid]; rfl)
      · dsimp only [step]
        unfold setComponentField
        rw [show (registry.schemaOf t).bind (·.findField name) = none from
          unknown]
        exact ite_self _
    dsimp only [next, Sheet.answer]
    rw [noRow, unchanged]
    exact ⟨stable, rfl, rfl⟩
  · obtain ⟨bytes, stored, itemsEq, same⟩ :=
      finds.placed.fieldFromVariant_items finds.inside value
    have writes : step = (w.writeRaw e t bytes).markChanged e t name := by
      dsimp only [step]
      unfold setComponentField
      rw [show (w.isAlive e && w.has e t) = true from finds.valid,
        show (registry.schemaOf t).bind (·.findField name) = some fd from finds.found,
        finds.reads]
      dsimp only
      rw [stored]
      rfl
    obtain ⟨nextStable, sheetEq, hears⟩ :=
      write_announces placed stable finds.held finds.found same
    rw [itemsEq] at sheetEq
    dsimp only [next, Sheet.answer]
    rw [finds.row, writes, hears, sheetEq]
    exact ⟨nextStable, rfl, rfl⟩

/-- An element is written to the sheet. -/
theorem setArrayElement_sheet
    (placed : registry.Placed engine.types) (stable : w.Stable registry) :
    let step := w.setArrayElement engine registry e t name index value
    let next := (w.sheet engine registry).answer engine registry
      (.setArrayElement e t name index value)
    step.1.state.Stable registry ∧
      step.1.state.sheet engine registry = next.1 ∧
      (⟨.bool step.2, heard engine registry step.1.effects⟩ : FieldReply) =
        next.2 := by
  intro step next
  have refuse (refused : step = (.pure w, false))
      (same : next = (w.sheet engine registry, { value := .bool false })) :
      step.1.state.Stable registry ∧
        step.1.state.sheet engine registry = next.1 ∧
        (⟨.bool step.2, heard engine registry step.1.effects⟩ : FieldReply) =
          next.2 := by
    rw [refused, same]
    exact ⟨stable, rfl, rfl⟩
  obtain ⟨noRow, refused⟩ | ⟨fd, raw, finds⟩ :=
    row_cases placed stable.consistent e t name
  · refine refuse ?_ (by dsimp only [next, Sheet.answer]; rw [noRow])
    dsimp only [step]
    unfold setArrayElement
    obtain invalid | unknown := refused
    · rw [invalid]
      rfl
    · rw [unknown]
      exact ite_self _
  · have counted (array : fd.IsArray) :
        (fd.items engine raw).length = fd.count :=
      (FieldDescriptor.length_items raw).trans (if_pos array)
    by_cases accepted : fd.IsArray ∧ 0 ≤ index.toInt ∧
        index.toInt.toNat < (fd.items engine raw).length
    · obtain ⟨array, natural, within⟩ := accepted
      rw [counted array] at within
      obtain ⟨bytes, stored, itemsEq, same⟩ :=
        array.store_element finds.placed finds.inside within value
      have writes : step = ((w.writeRaw e t (overlay raw
          (fd.offset + index.toInt.toNat * fd.elemSize) bytes)).markChanged
            e t name, true) := by
        dsimp only [step]
        unfold setArrayElement
        rw [finds.valid, finds.found, finds.reads, Bool.not_true, Bool.false_or,
          if_neg (by simpa using natural)]
        dsimp only
        rw [if_neg ((isArray_iff fd).mpr array), if_neg (Nat.not_le.mpr within),
          stored]
      obtain ⟨nextStable, sheetEq, hears⟩ :=
        write_announces placed stable finds.held finds.found same
      rw [itemsEq] at sheetEq
      dsimp only [next, Sheet.answer]
      rw [finds.row, writes, hears, sheetEq]
      dsimp only
      rw [if_pos ⟨array, natural, (counted array).symm ▸ within⟩]
      exact ⟨nextStable, rfl, rfl⟩
    · refine refuse ?_ (by
        dsimp only [next, Sheet.answer]
        rw [finds.row]
        exact if_neg accepted)
      dsimp only [step]
      unfold setArrayElement
      rw [finds.valid, finds.found, finds.reads, Bool.not_true, Bool.false_or]
      by_cases negative : index.toInt < 0
      · rw [if_pos (decide_eq_true negative)]
      · rw [if_neg (by simpa using negative)]
        dsimp only
        by_cases array : fd.IsArray
        · rw [if_neg ((isArray_iff fd).mpr array), if_pos]
          rw [counted array] at accepted
          by_contra within
          exact accepted ⟨array, by omega, by omega⟩
        · rw [if_pos (by_contra fun isArray =>
            array ((isArray_iff fd).mp isArray))]

/-! ## Sessions -/

/-- One call, answered from the sheet. -/
theorem answer_sheet
    (placed : registry.Placed engine.types) (stable : w.Stable registry)
    (call : FieldCall) :
    let step := w.answer engine registry call
    let next := (w.sheet engine registry).answer engine registry call
    step.1.Stable registry ∧ step.1.sheet engine registry = next.1 ∧
      step.2 = next.2 := by
  cases call with
  | getField e t name default =>
      exact ⟨stable, rfl, congrArg
        (fun shown => FieldReply.mk shown [])
        (getComponentField_sheet placed stable default)⟩
  | getFields e t =>
      exact ⟨stable, rfl, congrArg
        (fun entries => FieldReply.mk (.dictionary entries) [])
        (getFields_sheet placed stable)⟩
  | getFieldCount e t name =>
      exact ⟨stable, rfl, congrArg
        (fun count => FieldReply.mk (.int (Int64.ofNat count)) [])
        (getFieldCount_sheet placed stable)⟩
  | getArrayElement e t name index =>
      exact ⟨stable, rfl, congrArg
        (fun shown => FieldReply.mk shown [])
        (getArrayElement_sheet placed stable)⟩
  | fieldContains e t name value =>
      exact ⟨stable, rfl, congrArg
        (fun contains => FieldReply.mk (.bool contains) [])
        (fieldContains_sheet placed stable)⟩
  | setField e t name value => exact setComponentField_sheet placed stable
  | setArrayElement e t name index value =>
      exact setArrayElement_sheet placed stable

/-- **A script cannot tell the components from a sheet of values**: every
session of reads and writes is answered alike, with the same events at the same
calls, and ends in the same sheet. -/
theorem fieldSession_refines
    (placed : registry.Placed engine.types) (stable : w.Stable registry)
    (calls : List FieldCall) :
    let session := transcript (World.answer engine registry) w calls
    let onSheet := transcript (Sheet.answer engine registry)
      (w.sheet engine registry) calls
    session.2 = onSheet.2 ∧ session.1.sheet engine registry = onSheet.1 := by
  obtain ⟨⟨-, sheetEq⟩, answers⟩ := transcript_simulates
    (fun w sheet =>
      World.Stable registry w ∧ World.sheet engine registry w = sheet)
    (World.answer engine registry) (Sheet.answer engine registry)
    (fun w sheet call related => by
      obtain ⟨stable, rfl⟩ := related
      obtain ⟨nextStable, nextEq, replyEq⟩ := answer_sheet placed stable call
      exact ⟨⟨nextStable, nextEq⟩, replyEq⟩)
    ⟨stable, rfl⟩ calls
  exact ⟨answers, sheetEq⟩

/-- A label and the numbers of what is in the bag. -/
def bagFields : List FieldDescriptor :=
  [{ name := "label", type := .stringFixed, count := 8 },
    { name := "numbers", type := .i32, count := 3 }]

/-- A script fills a place of the bag, asks for its contents and fails to write
behind them. -/
theorem fieldSession_refines_bag :
    let registry := (ComponentRegistry.registerSchemaComponent
      Engine.singlePrecision.types {} "Bag" bagFields).2
    let w := (WorldOp.run registry
      [.createEntity, .addRaw ⟨1⟩ 1 none]).state
    let calls : List FieldCall := [
      .setArrayElement ⟨1⟩ 1 "numbers" 1 (.int 7), .getFields ⟨1⟩ 1,
      .setArrayElement ⟨1⟩ 1 "numbers" 3 (.int 7)]
    let session := transcript (World.answer .singlePrecision registry) w calls
    let onSheet := transcript (Sheet.answer .singlePrecision registry)
      (w.sheet .singlePrecision registry) calls
    (session.2 = onSheet.2 ∧
      session.1.sheet .singlePrecision registry = onSheet.1) ∧
      session.2.map (·.heard.length) = [1, 0, 0] := by
  have placed : ComponentRegistry.Placed Engine.singlePrecision.types
      (ComponentRegistry.registerSchemaComponent
        Engine.singlePrecision.types {} "Bag" bagFields).2 :=
    ComponentRegistry.Placed.register
      (fun _ member => absurd member List.not_mem_nil) (by decide +kernel)
      (by decide)
  have stable : Stable (ComponentRegistry.registerSchemaComponent
      Engine.singlePrecision.types {} "Bag" bagFields).2
      (WorldOp.run (ComponentRegistry.registerSchemaComponent
        Engine.singlePrecision.types {} "Bag" bagFields).2
        [.createEntity, .addRaw ⟨1⟩ 1 none]).state :=
    WorldOp.run_stable (by decide +kernel)
  exact ⟨fieldSession_refines placed stable _, by decide +kernel⟩

end World
end VortarisECS
