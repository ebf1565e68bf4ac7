import VortarisECS.Core.ComponentRegistration
import VortarisECS.Reflect.Variant

/-!
# What registrations report

C++ types, raw field descriptors and scripts register components in any order.
A registration under a taken name does not register anything; what it reports
depends on who asks.
-/

namespace VortarisECS

/-! ## Registration by scripts -/

/-- `ComponentRegistry::parse_field_type`. -/
def parseFieldType (name : String) : Option FieldType :=
  if name = "Bool" then some .bool
  else if name = "I8" then some .i8
  else if name = "I16" then some .i16
  else if name = "I32" then some .i32
  else if name = "I64" then some .i64
  else if name = "U8" then some .u8
  else if name = "U16" then some .u16
  else if name = "U32" then some .u32
  else if name = "U64" then some .u64
  else if name = "F32" then some .f32
  else if name = "F64" then some .f64
  else if name = "Vector2" then some .vector2
  else if name = "Vector2i" then some .vector2i
  else if name = "Vector3" then some .vector3
  else if name = "Vector3i" then some .vector3i
  else if name = "Vector4" then some .vector4
  else if name = "Vector4i" then some .vector4i
  else if name = "Color" then some .color
  else if name = "Quaternion" then some .quaternion
  else if name = "Basis" then some .basis
  else if name = "Transform2D" then some .transform2D
  else if name = "Transform3D" then some .transform3D
  else if name = "AABB" then some .aabb
  else if name = "Rect2" then some .rect2
  else if name = "Plane" then some .plane
  else if name = "StringFixed" then some .stringFixed
  else if name = "Blob" then some .blob
  else none

/-- One field of the loop of `VECSWorld::register_component`, after fields with
the names `seen`. -/
def Engine.parseField (engine : Engine) (defaultPriority : UInt8)
    (seen : List String) (field : Variant) : Option FieldDescriptor :=
  match field.dictionary? with
  | none => none
  | some d =>
      let lookup (key : String) := engine.lookup d (.string key)
      let fname := engine.toText ((lookup "name").getD (.string ""))
      let ftype := engine.toText ((lookup "type").getD (.string ""))
      if fname = "" ∨ ftype = "" then none
      else if fname ∈ seen then none
      else
        match parseFieldType ftype with
        | none => none
        | some type =>
            let count := engine.toInt ((lookup "count").getD (.int 1))
            some {
              name := fname
              type := type
              count := if 0 < count then count.toInt.toNat else 1
              syncPriority :=
                match lookup "sync_priority" with
                | some priority => (engine.toInt priority).toUInt64.toUInt8
                | none => defaultPriority
              isNetworked :=
                engine.toBool ((lookup "networked").getD (.bool true)) }

/-- The loop of `VECSWorld::register_component`. -/
def Engine.parseFields (engine : Engine) (defaultPriority : UInt8) :
    List String → List Variant → Option (List FieldDescriptor)
  | _, [] => some []
  | seen, field :: fields =>
      match engine.parseField defaultPriority seen field with
      | none => none
      | some fd =>
          (engine.parseFields defaultPriority (fd.name :: seen) fields).map
            (fd :: ·)

/-- `VECSWorld::register_component`. -/
def Registrations.registerComponent (engine : Engine) (defaultPriority : UInt8)
    (st : Registrations τ) (name : String) (fields : List Variant) :
    Registrations τ × Bool :=
  match engine.parseFields defaultPriority [] fields with
  | none => (st, false)
  | some fds =>
      let (st, id) := st.registerSchemaComponent engine.types name fds
      (st, id != invalidComponentType)

/-! ## Registrations of all kinds -/

/-- The calls that register a component. -/
inductive RegisterCall (τ : Type u)
  | componentType (T : τ) (name : String) (fields : List FieldDescriptor)
  | schemaComponent (name : String) (rawFields : List FieldDescriptor)
  | script (name : String) (fields : List Variant)

/-- What a call returns: an id, or whether it succeeded. -/
inductive RegisterResult
  | typeId (t : ComponentTypeId)
  | flag (success : Bool)
  deriving DecidableEq, Repr

/-- The ids a call returns. -/
def RegisterResult.ids : RegisterResult → List ComponentTypeId
  | .typeId t => [t]
  | .flag _ => []

/-- The call reports success: a valid id that was not returned before, or
true. -/
def RegisterResult.Succeeds (returned : List ComponentTypeId) :
    RegisterResult → Prop
  | .typeId t => t ≠ invalidComponentType ∧ t ∉ returned
  | .flag success => success = true

instance (returned : List ComponentTypeId) (result : RegisterResult) :
    Decidable (result.Succeeds returned) :=
  match result with
  | .typeId t => inferInstanceAs
      (Decidable (t ≠ invalidComponentType ∧ t ∉ returned))
  | .flag success => inferInstanceAs (Decidable (success = true))

/-- The name under which a call registers. -/
def RegisterCall.name : RegisterCall τ → String
  | .componentType _ name _ => name
  | .schemaComponent name _ => name
  | .script name _ => name

/-- A program that registers components: what is registered, and the ids that
its calls have returned. -/
structure RegisterRun (τ : Type u) where
  st : Registrations τ := {}
  returned : List ComponentTypeId := []

/-- Size and alignment of the C++ types, the engine, and the setting for fields
without a priority. -/
structure RegisterSetting (τ : Type u) where
  sizeOf : τ → Nat
  alignOf : τ → Nat
  engine : Engine
  defaultPriority : UInt8 := syncMedium

namespace RegisterRun

variable {τ : Type u} [DecidableEq τ] (setting : RegisterSetting τ)

/-- One call, and what it returns. -/
def call (st : Registrations τ) :
    RegisterCall τ → Registrations τ × RegisterResult
  | .componentType T name fields =>
      let (st, id) := st.registerComponentType T (setting.sizeOf T)
        (setting.alignOf T) name fields
      (st, .typeId id)
  | .schemaComponent name rawFields =>
      let (st, id) :=
        st.registerSchemaComponent setting.engine.types name rawFields
      (st, .typeId id)
  | .script name fields =>
      let (st, success) := st.registerComponent setting.engine
        setting.defaultPriority name fields
      (st, .flag success)

/-- One call of a run; the ids it returns are collected. -/
def apply (run : RegisterRun τ) (call : RegisterCall τ) :
    RegisterRun τ :=
  let (st, result) := RegisterRun.call setting run.st call
  ⟨st, run.returned ++ result.ids⟩

/-- The run of a list of calls. -/
def ofCalls (calls : List (RegisterCall τ)) : RegisterRun τ :=
  calls.foldl (apply setting) {}

end RegisterRun

/-! ## What registrations promise -/

/-- The registered field is the given one, with its place in the component. -/
structure FieldDescriptor.Places (given placed : FieldDescriptor) : Prop where
  name : placed.name = given.name
  type : placed.type = given.type
  count : placed.count = given.count
  syncPriority : placed.syncPriority = given.syncPriority
  isNetworked : placed.isNetworked = given.isNetworked

/-- The schema is the component the call gives, with exactly its fields. -/
def RegisterCall.Describes (setting : RegisterSetting τ)
    (schema : ComponentSchema) : RegisterCall τ → Prop
  | .componentType T name fields =>
      schema.typeName = name ∧ schema.fields = fields ∧
        schema.size = setting.sizeOf T ∧ schema.alignment = setting.alignOf T
  | .schemaComponent name rawFields =>
      schema.typeName = name ∧
        List.Forall₂ FieldDescriptor.Places rawFields schema.fields
  | .script name fields =>
      schema.typeName = name ∧ ∃ fds,
        setting.engine.parseFields setting.defaultPriority [] fields =
          some fds ∧ List.Forall₂ FieldDescriptor.Places fds schema.fields

/-- A call keeps the schemas there are, reports success exactly if it adds the
component it gives, and refuses a taken name without a trace. -/
structure RegisterRun.ReportsTruly [DecidableEq τ]
    (setting : RegisterSetting τ) (run : RegisterRun τ)
    (call : RegisterCall τ) : Prop where
  kept : ∀ id schema, run.st.registry.schemaOf id = some schema →
    (run.apply setting call).st.registry.schemaOf id = some schema
  reported :
    (RegisterRun.call setting run.st call).2.Succeeds run.returned ↔
      ∃ schema, (run.apply setting call).st.registry.schemas =
          run.st.registry.schemas ++ [schema] ∧ call.Describes setting schema
  refused : run.st.registry.idOf call.name ≠ invalidComponentType →
    ¬(RegisterRun.call setting run.st call).2.Succeeds run.returned ∧
      (run.apply setting call).st = run.st

/-- A whole run: ids and names are assigned as they should be at any time, and
every call reports what it does. -/
structure RegisterRun.RegistersTruly [DecidableEq τ]
    (setting : RegisterSetting τ) (calls : List (RegisterCall τ)) : Prop where
  numbered : ∀ before, before <+: calls →
    (ofCalls setting before).st.registry.Numbered
  reports : ∀ before call, before ++ [call] <+: calls →
    (ofCalls setting before).ReportsTruly setting call

/-! ## When they keep it -/

/-- There is an id for one more schema. -/
def ComponentRegistry.HasRoom (registry : ComponentRegistry) : Prop :=
  registry.schemas.length + 1 < 2 ^ 32

/-- The name is free, and a name at all finds an id. -/
def ComponentRegistry.CanRegister (registry : ComponentRegistry)
    (name : String) : Prop :=
  registry.idOf name = invalidComponentType ∧ (name ≠ "" → registry.HasRoom)

/-- The call does not register, or its name is free; the id of a taken name may
only be asked for with raw fields, and after it was returned. -/
def RegisterRun.Unambiguous [DecidableEq τ] (setting : RegisterSetting τ)
    (run : RegisterRun τ) : RegisterCall τ → Prop
  | .componentType T name _ =>
      run.st.typeIdHolder T = invalidComponentType →
        run.st.registry.CanRegister name
  | .schemaComponent name _ =>
      run.st.registry.CanRegister name ∨
        run.st.registry.idOf name ≠ invalidComponentType ∧
          run.st.registry.idOf name ∈ run.returned
  | .script name fields =>
      (setting.engine.parseFields setting.defaultPriority [] fields).isSome →
        run.st.registry.CanRegister name

/-! ## The layout of the given fields -/

/-- Sizing a field places it anywhere. -/
theorem sizeField_places (godot : GodotTypes) (fd : FieldDescriptor) :
    ∃ sized align, sizeField godot fd = some (sized, align) ∧
      ∀ offset, fd.Places { sized with offset := offset } := by
  have places : ∀ elementType byteSize offset, fd.Places { fd with
      elementType := elementType, byteSize := byteSize, offset := offset } :=
    fun _ _ _ => ⟨rfl, rfl, rfl, rfl, rfl⟩
  unfold sizeField
  split
  · exact ⟨_, _, rfl, fun _ => places _ _ _⟩
  · exact ⟨_, _, rfl, fun _ => places _ _ _⟩
  · rename_i notString notBlob
    have positive : fieldTypeSize godot fd.type ≠ 0 := by
      have valueSize := godot.sizeOf_pos fd.type
      unfold fieldTypeSize
      split <;> first | decide | omega | contradiction
    dsimp only
    rw [if_neg positive]
    exact ⟨_, _, rfl, fun _ => places _ _ _⟩

/-- The layout places every field. -/
theorem layoutFields_places
    (godot : GodotTypes) (raw : List FieldDescriptor) (offset maxAlign : Nat) :
    ∃ placed finish align,
      layoutFields godot raw offset maxAlign = some (placed, finish, align) ∧
        List.Forall₂ FieldDescriptor.Places raw placed := by
  induction raw generalizing offset maxAlign with
  | nil => exact ⟨[], offset, maxAlign, rfl, List.Forall₂.nil⟩
  | cons fd raw inductionHypothesis =>
      obtain ⟨sized, elemAlign, sizes, places⟩ := sizeField_places godot fd
      obtain ⟨placed, finish, align, lays, later⟩ := inductionHypothesis
        (sizeT (alignUp offset elemAlign + sized.byteSize))
        (max maxAlign elemAlign)
      refine ⟨_ :: placed, finish, align, ?_, List.Forall₂.cons
        (places (alignUp offset elemAlign)) later⟩
      unfold layoutFields
      rw [sizes]
      dsimp only
      rw [lays]

/-- Every list of fields has a layout. -/
theorem layoutSchema_places
    (godot : GodotTypes) (name : String) (raw : List FieldDescriptor) :
    ∃ schema, layoutSchema godot name raw = some schema ∧
      schema.typeName = name ∧
      List.Forall₂ FieldDescriptor.Places raw schema.fields := by
  obtain ⟨placed, finish, align, lays, places⟩ :=
    layoutFields_places godot raw 0 1
  unfold layoutSchema
  rw [lays]
  exact ⟨_, rfl, rfl, places⟩

/-! ## One registration -/

namespace ComponentRegistry

variable {registry : ComponentRegistry} (added : ComponentSchema)

/-- A taken name changes nothing and finds the id it has. -/
theorem registerComponent_taken
    (indexed : registry.Indexed)
    (taken : registry.idOf added.typeName ≠ invalidComponentType) :
    registry.registerComponent added =
      (registry.idOf added.typeName, registry) := by
  have named := indexed.idOf_ne_invalid_iff.mp taken
  obtain ⟨nameless, -⟩ | ⟨-, other, found, same⟩ | ⟨-, free, -⟩ :=
    registry.registerComponent_cases added
  · obtain ⟨schema, registered, titled⟩ := indexed.lookup_eq_some_iff.mp named
    exact absurd (titled.trans nameless)
      (indexed.titled schema (mem_schemas_of_schemaOf registered))
  · rw [same, ← Option.some.inj (named.symm.trans found)]
  · rw [free] at named
    exact absurd named (by simp)

variable {added} in
/-- A component without a name is refused. -/
theorem registerComponent_nameless
    (nameless : added.typeName = "") :
    registry.registerComponent added = (invalidComponentType, registry) := by
  unfold registerComponent
  rw [if_pos nameless]

variable {added} in
/-- A free name gets the next id. -/
theorem registerComponent_free
    (indexed : registry.Indexed) (hasName : added.typeName ≠ "")
    (free : registry.idOf added.typeName = invalidComponentType) :
    (registry.registerComponent added).1 =
        UInt32.ofNat (registry.schemas.length + 1) ∧
      (registry.registerComponent added).2.schemas =
        registry.schemas ++ [{ added with
          typeId := UInt32.ofNat (registry.schemas.length + 1) }] := by
  unfold registerComponent
  rw [if_neg hasName, indexed.lookup_eq_none_iff.mpr free]
  exact ⟨rfl, rfl⟩

/-- A schema is added exactly under a free name. -/
theorem registerComponent_adds_iff
    (indexed : registry.Indexed) (describes : ComponentSchema → Prop)
    (described : ∀ t, describes { added with typeId := t }) :
    (∃ schema, (registry.registerComponent added).2.schemas =
        registry.schemas ++ [schema] ∧ describes schema) ↔
      added.typeName ≠ "" ∧
        registry.idOf added.typeName = invalidComponentType := by
  have unchanged : (registry.registerComponent added).2 = registry →
      ¬∃ schema, (registry.registerComponent added).2.schemas =
        registry.schemas ++ [schema] ∧ describes schema := by
    rintro same ⟨schema, isAdded, -⟩
    rw [same] at isAdded
    have lengths := congrArg List.length isAdded
    rw [List.length_append, List.length_singleton] at lengths
    omega
  by_cases nameless : added.typeName = ""
  · refine iff_of_false (unchanged ?_) fun both => both.1 nameless
    rw [registerComponent_nameless nameless]
  · by_cases free : registry.idOf added.typeName = invalidComponentType
    · exact iff_of_true ⟨_, (registerComponent_free indexed nameless free).2,
        described _⟩ ⟨nameless, free⟩
    · refine iff_of_false (unchanged ?_) fun both => free both.2
      rw [registerComponent_taken added indexed free]

/-- The id is valid if the name is taken, or if it is free and an id is left. -/
theorem registerComponent_valid_iff (indexed : registry.Indexed) :
    (registry.registerComponent added).1 ≠ invalidComponentType ↔
      registry.idOf added.typeName ≠ invalidComponentType ∨
        added.typeName ≠ "" ∧ registry.HasRoom := by
  by_cases taken : registry.idOf added.typeName = invalidComponentType
  · by_cases nameless : added.typeName = ""
    · rw [registerComponent_nameless nameless]
      exact iff_of_false (fun valid => valid rfl)
        (not_or.mpr ⟨not_not.mpr taken, fun both => both.1 nameless⟩)
    · rw [(registerComponent_free indexed nameless taken).1]
      have few := indexed.few
      unfold HasRoom
      constructor
      · intro valid
        refine Or.inr ⟨nameless, ?_⟩
        by_contra full
        refine valid (UInt32.toNat_inj.mp ?_)
        have last : registry.schemas.length + 1 = 2 ^ 32 := by omega
        rw [last]
        rfl
      · rintro (isTaken | ⟨-, room⟩)
        · exact absurd taken isTaken
        · intro invalid
          have number := congrArg UInt32.toNat invalid
          rw [UInt32.toNat_ofNat_of_lt' (show _ < 2 ^ 32 from room)] at number
          exact absurd number (Nat.succ_ne_zero _)
  · rw [registerComponent_taken added indexed taken]
    exact iff_of_true taken (Or.inl taken)

variable {added} in
/-- The id is one that no schema had, unless the name is taken. -/
theorem registerComponent_fresh
    (indexed : registry.Indexed) (hasName : added.typeName ≠ "")
    (room : registry.HasRoom)
    (free : registry.idOf added.typeName = invalidComponentType) :
    registry.schemaOf (registry.registerComponent added).1 = none := by
  rw [(registerComponent_free indexed hasName free).1]
  by_contra registered
  obtain ⟨schema, isSome⟩ := Option.ne_none_iff_exists'.mp registered
  obtain ⟨i, found, number⟩ := schemaOf_eq_some_iff.mp isSome
  rw [UInt32.toNat_ofNat_of_lt' (show _ < 2 ^ 32 from room)] at number
  have bounded := (List.getElem?_eq_some_iff.mp found).1
  omega

end ComponentRegistry

namespace RegisterRun

variable {τ : Type u} [DecidableEq τ] {setting : RegisterSetting τ}
variable {run : RegisterRun τ}

/-- The registry is in order, the returned ids are assigned, and C++ types
remember what was returned to them. -/
structure Sound (run : RegisterRun τ) : Prop where
  indexed : run.st.registry.Indexed
  assigned : ∀ t ∈ run.returned, t ≠ invalidComponentType →
    (run.st.registry.schemaOf t).isSome
  remembered : ∀ T, run.st.typeIdHolder T ≠ invalidComponentType →
    run.st.typeIdHolder T ∈ run.returned

omit [DecidableEq τ] in
/-- The id of a registration is new to its caller if it is new, or if its name
is taken by what did not return it. -/
theorem Sound.succeeds_iff (sound : run.Sound) (added : ComponentSchema) :
    (RegisterResult.typeId
        (run.st.registry.registerComponent added).1).Succeeds run.returned ↔
      run.st.registry.idOf added.typeName ≠ invalidComponentType ∧
          run.st.registry.idOf added.typeName ∉ run.returned ∨
        run.st.registry.idOf added.typeName = invalidComponentType ∧
          added.typeName ≠ "" ∧ run.st.registry.HasRoom := by
  unfold RegisterResult.Succeeds
  dsimp only
  rw [ComponentRegistry.registerComponent_valid_iff added sound.indexed]
  by_cases taken :
      run.st.registry.idOf added.typeName = invalidComponentType
  · simp only [taken, ne_eq, not_true_eq_false, false_or, false_and, true_and]
    refine and_iff_left_of_imp fun both isReturned => ?_
    have valid := (ComponentRegistry.registerComponent_valid_iff
      added sound.indexed).mpr (Or.inr both)
    have assigned := sound.assigned _ isReturned valid
    rw [ComponentRegistry.registerComponent_fresh sound.indexed both.1 both.2
      taken] at assigned
    exact absurd assigned (by simp)
  · rw [ComponentRegistry.registerComponent_taken added sound.indexed taken]
    simp only [taken, ne_eq, not_false_eq_true, true_or, true_and, false_and,
      or_false]

/-! ## Every kind of call -/

/-- A call that changes nothing is honest if it reports no success. -/
theorem reportsTruly_iff_of_same
    {call : RegisterCall τ} (same : (run.apply setting call).st = run.st) :
    run.ReportsTruly setting call ↔
      ¬(RegisterRun.call setting run.st call).2.Succeeds run.returned := by
  have nothing : ¬∃ schema, (run.apply setting call).st.registry.schemas =
      run.st.registry.schemas ++ [schema] ∧ call.Describes setting schema := by
    rintro ⟨schema, isAdded, -⟩
    rw [same] at isAdded
    have lengths := congrArg List.length isAdded
    rw [List.length_append, List.length_singleton] at lengths
    omega
  constructor
  · exact fun truly succeeds => nothing (truly.reported.mp succeeds)
  · intro quiet
    refine ⟨fun id schema registered => ?_, iff_of_false quiet nothing,
      fun _ => ⟨quiet, same⟩⟩
    rw [same]
    exact registered

/-- Under a free name, a call that asks the registry for its component is honest
if an id is left. -/
theorem Sound.reportsTruly_of_free
    (sound : run.Sound) {call : RegisterCall τ} {added : ComponentSchema}
    (after : (run.apply setting call).st.registry =
      (run.st.registry.registerComponent added).2)
    (described : ∀ t, call.Describes setting { added with typeId := t })
    (titled : added.typeName = call.name)
    (free : run.st.registry.idOf call.name = invalidComponentType)
    (succeeds : (RegisterRun.call setting run.st call).2.Succeeds run.returned ↔
      added.typeName ≠ "" ∧ run.st.registry.HasRoom) :
    run.ReportsTruly setting call ↔
      (call.name ≠ "" → run.st.registry.HasRoom) := by
  have adds := ComponentRegistry.registerComponent_adds_iff added
    sound.indexed (fun schema => call.Describes setting schema) described
  rw [titled] at adds succeeds
  constructor
  · intro truly hasName
    have reported := truly.reported
    rw [after] at reported
    exact (succeeds.mp (reported.mpr (adds.mpr ⟨hasName, free⟩))).2
  · intro room
    refine ⟨fun id schema registered => ?_, ?_, fun taken => absurd free taken⟩
    · rw [after]
      exact ComponentRegistry.schemaOf_registerComponent registered
    · rw [after, succeeds]
      refine Iff.trans ?_ adds.symm
      exact ⟨fun both => ⟨both.1, free⟩, fun both => ⟨both.1, room both.1⟩⟩

variable (setting) in
/-- A type that is known keeps its id. -/
theorem call_known
    {st : Registrations τ} {T : τ}
    (known : st.typeIdHolder T ≠ invalidComponentType) (name : String)
    (fields : List FieldDescriptor) :
    RegisterRun.call setting st (.componentType T name fields) =
      (st, .typeId (st.typeIdHolder T)) := by
  unfold RegisterRun.call Registrations.registerComponentType
  dsimp only
  rw [if_pos known]

variable (setting) in
/-- A new type is registered. -/
theorem call_new
    {st : Registrations τ} {T : τ}
    (new : st.typeIdHolder T = invalidComponentType) (name : String)
    (fields : List FieldDescriptor) :
    let registered := st.registry.registerComponent {
      typeName := name
      size := setting.sizeOf T
      alignment := setting.alignOf T
      fields := fields
      isNetworked := fields.any (·.isNetworked) }
    RegisterRun.call setting st (.componentType T name fields) =
      (⟨registered.2, Function.update st.typeIdHolder T registered.1⟩,
        .typeId registered.1) := by
  unfold RegisterRun.call Registrations.registerComponentType
  dsimp only
  rw [if_neg (not_not.mpr new)]

/-- The registration of a type reports the truth exactly if it is unambiguous. -/
theorem Sound.componentType_iff
    (sound : run.Sound) (T : τ) (name : String)
    (fields : List FieldDescriptor) :
    run.ReportsTruly setting (.componentType T name fields) ↔
      run.Unambiguous setting (.componentType T name fields) := by
  by_cases known : run.st.typeIdHolder T = invalidComponentType
  swap
  · have again := call_known setting known name fields
    have same : (run.apply setting (.componentType T name fields)).st =
        run.st := by
      unfold apply
      rw [again]
    rw [reportsTruly_iff_of_same same, again]
    exact iff_of_true (fun succeeds => succeeds.2 (sound.remembered T known))
      fun unknown => absurd unknown known
  let added : ComponentSchema := {
    typeName := name
    size := setting.sizeOf T
    alignment := setting.alignOf T
    fields := fields
    isNetworked := fields.any (·.isNetworked) }
  have called : RegisterRun.call setting run.st (.componentType T name fields) =
      (⟨(run.st.registry.registerComponent added).2,
        Function.update run.st.typeIdHolder T
          (run.st.registry.registerComponent added).1⟩,
        .typeId (run.st.registry.registerComponent added).1) :=
    call_new setting known name fields
  have after : (run.apply setting (.componentType T name fields)).st =
      ⟨(run.st.registry.registerComponent added).2,
        Function.update run.st.typeIdHolder T
          (run.st.registry.registerComponent added).1⟩ := by
    unfold apply
    rw [called]
  have meets : run.Unambiguous setting (.componentType T name fields) ↔
      run.st.registry.CanRegister name :=
    ⟨fun able => able known, fun able _ => able⟩
  rw [meets]
  unfold ComponentRegistry.CanRegister
  by_cases free : run.st.registry.idOf name = invalidComponentType
  · rw [sound.reportsTruly_of_free (congrArg Registrations.registry after)
      (fun _ => ⟨rfl, rfl, rfl, rfl⟩) rfl free]
    · exact (and_iff_right free).symm
    · rw [called, sound.succeeds_iff]
      simp only [added, free, ne_eq, not_true_eq_false, false_and, true_and,
        false_or]
  · refine iff_of_false (fun truly => ?_) fun able => free able.1
    have same := (truly.refused free).2
    rw [after, ComponentRegistry.registerComponent_taken added
      sound.indexed free] at same
    have held := congrArg (fun st => st.typeIdHolder T) same
    dsimp only at held
    rw [Function.update_self, known] at held
    exact free held

/-- A raw schema is laid out and registered. -/
theorem call_raw
    (st : Registrations τ) {name : String} {rawFields : List FieldDescriptor}
    {schema : ComponentSchema}
    (lays : layoutSchema setting.engine.types name rawFields = some schema) :
    RegisterRun.call setting st (.schemaComponent name rawFields) =
      ({ st with registry := (st.registry.registerComponent schema).2 },
        .typeId (st.registry.registerComponent schema).1) := by
  unfold RegisterRun.call Registrations.registerSchemaComponent
    ComponentRegistry.registerSchemaComponent
  dsimp only
  rw [lays]

/-- Malformed fields are refused. -/
theorem call_malformed
    (st : Registrations τ) (name : String) {fields : List Variant}
    (malformed : setting.engine.parseFields setting.defaultPriority [] fields =
      none) :
    RegisterRun.call setting st (.script name fields) = (st, .flag false) := by
  unfold RegisterRun.call Registrations.registerComponent
  dsimp only
  rw [malformed]

/-- A script's schema is laid out and registered. -/
theorem call_script
    (st : Registrations τ) {name : String} {fields : List Variant}
    {fds : List FieldDescriptor}
    (parsed : setting.engine.parseFields setting.defaultPriority [] fields =
      some fds)
    {schema : ComponentSchema}
    (lays : layoutSchema setting.engine.types name fds = some schema) :
    RegisterRun.call setting st (.script name fields) =
      ({ st with registry := (st.registry.registerComponent schema).2 },
        .flag ((st.registry.registerComponent schema).1 !=
          invalidComponentType)) := by
  unfold RegisterRun.call Registrations.registerComponent
    Registrations.registerSchemaComponent
    ComponentRegistry.registerSchemaComponent
  dsimp only
  rw [parsed]
  dsimp only
  rw [lays]

/-- The registration of a raw schema reports the truth exactly if it is
unambiguous. -/
theorem Sound.schemaComponent_iff
    (sound : run.Sound) (name : String) (rawFields : List FieldDescriptor) :
    run.ReportsTruly setting (.schemaComponent name rawFields) ↔
      run.Unambiguous setting (.schemaComponent name rawFields) := by
  obtain ⟨schema, lays, titled, places⟩ :=
    layoutSchema_places setting.engine.types name rawFields
  have called := call_raw run.st lays
  have after : (run.apply setting (.schemaComponent name rawFields)).st =
      { run.st with
        registry := (run.st.registry.registerComponent schema).2 } := by
    unfold apply
    rw [called]
  have succeeds := sound.succeeds_iff schema
  rw [titled] at succeeds
  unfold Unambiguous ComponentRegistry.CanRegister
  dsimp only
  by_cases taken : run.st.registry.idOf name = invalidComponentType
  · rw [sound.reportsTruly_of_free (congrArg Registrations.registry after)
      (fun _ => ⟨titled, places⟩) titled taken]
    · simp only [taken, true_and, ne_eq, not_true_eq_false, false_and, or_false]
      rfl
    · rw [called, succeeds, titled]
      simp only [taken, ne_eq, not_true_eq_false, false_and, true_and, false_or]
  · have same : (run.apply setting (.schemaComponent name rawFields)).st =
        run.st := by
      rw [after, ComponentRegistry.registerComponent_taken schema sound.indexed
        (by rw [titled]; exact taken)]
    rw [reportsTruly_iff_of_same same, called, succeeds]
    simp only [taken, ne_eq, not_false_eq_true, true_and, false_and, or_false,
      false_or, not_not]

/-- So does that of a script's schema. -/
theorem Sound.script_iff
    (sound : run.Sound) (name : String) (fields : List Variant) :
    run.ReportsTruly setting (.script name fields) ↔
      run.Unambiguous setting (.script name fields) := by
  unfold Unambiguous
  dsimp only
  cases parsed : setting.engine.parseFields setting.defaultPriority []
      fields with
  | none =>
      have called := call_malformed run.st name parsed
      have same : (run.apply setting (.script name fields)).st = run.st := by
        unfold apply
        rw [called]
      rw [reportsTruly_iff_of_same same, called]
      exact iff_of_true Bool.false_ne_true
        fun isSome => absurd isSome Bool.false_ne_true
  | some fds =>
      obtain ⟨schema, lays, titled, places⟩ :=
        layoutSchema_places setting.engine.types name fds
      have called := call_script run.st parsed lays
      have after : (run.apply setting (.script name fields)).st =
          { run.st with
            registry := (run.st.registry.registerComponent schema).2 } := by
        unfold apply
        rw [called]
      have valid := ComponentRegistry.registerComponent_valid_iff schema
        sound.indexed
      rw [titled] at valid
      have succeeds : (RegisterRun.call setting run.st
          (.script name fields)).2.Succeeds run.returned ↔
            run.st.registry.idOf name ≠ invalidComponentType ∨
              name ≠ "" ∧ run.st.registry.HasRoom := by
        rw [called, ← valid]
        exact bne_iff_ne
      unfold ComponentRegistry.CanRegister
      by_cases taken : run.st.registry.idOf name = invalidComponentType
      · rw [sound.reportsTruly_of_free (congrArg Registrations.registry after)
          (fun _ => ⟨titled, fds, parsed, places⟩) titled taken]
        · simp only [taken, true_and, Option.isSome_some, forall_const]
          rfl
        · rw [succeeds, titled]
          simp only [taken, ne_eq, not_true_eq_false, false_or]
      · have same : (run.apply setting (.script name fields)).st = run.st := by
          rw [after, ComponentRegistry.registerComponent_taken schema
            sound.indexed (by rw [titled]; exact taken)]
        rw [reportsTruly_iff_of_same same, succeeds]
        exact iff_of_false (fun quiet => quiet (Or.inl taken))
          fun able => taken (able rfl).1

/-- A call is honest exactly if it does not ask for a taken name in a way that
it cannot tell from a free one. -/
theorem Sound.reportsTruly_iff (sound : run.Sound) (call : RegisterCall τ) :
    run.ReportsTruly setting call ↔ run.Unambiguous setting call := by
  cases call with
  | componentType T name fields => exact sound.componentType_iff T name fields
  | schemaComponent name rawFields =>
      exact sound.schemaComponent_iff name rawFields
  | script name fields => exact sound.script_iff name fields

/-! ## Runs -/

/-- A new id is that of the new schema. -/
theorem registerComponent_assigned
    {registry : ComponentRegistry} {added : ComponentSchema}
    (indexed : registry.Indexed)
    (room : added.typeName ≠ "" →
      registry.idOf added.typeName = invalidComponentType → registry.HasRoom)
    (valid : (registry.registerComponent added).1 ≠ invalidComponentType) :
    ((registry.registerComponent added).2.schemaOf
      (registry.registerComponent added).1).isSome := by
  by_cases free : registry.idOf added.typeName = invalidComponentType
  · by_cases nameless : added.typeName = ""
    · rw [ComponentRegistry.registerComponent_nameless nameless] at valid
      exact absurd rfl valid
    · obtain ⟨isLast, isAdded⟩ :=
        ComponentRegistry.registerComponent_free indexed nameless free
      have found : (registry.registerComponent added).2.schemas[
          registry.schemas.length]? = some { added with
            typeId := UInt32.ofNat (registry.schemas.length + 1) } := by
        rw [isAdded]
        exact List.getElem?_concat_length
      rw [isLast, Option.isSome_iff_exists]
      exact ⟨_, ComponentRegistry.schemaOf_eq_some_iff.mpr ⟨_, found,
        UInt32.toNat_ofNat_of_lt' (show _ < 2 ^ 32 from room nameless free)⟩⟩
  · rw [ComponentRegistry.registerComponent_taken added indexed free]
    exact (indexed.numbered.nameOf_idOf added.typeName free).1

/-- What a call leaves alone or asks the registry to register keeps a run
sound. -/
theorem Sound.of_registered
    (sound : run.Sound) (call : RegisterCall τ) (added : ComponentSchema)
    (after : (run.apply setting call).st.registry =
      (run.st.registry.registerComponent added).2)
    (room : added.typeName ≠ "" →
      run.st.registry.idOf added.typeName = invalidComponentType →
      run.st.registry.HasRoom)
    (returned : ∀ t ∈ (RegisterRun.call setting run.st call).2.ids,
      t = (run.st.registry.registerComponent added).1)
    (remembered : ∀ T, (run.apply setting call).st.typeIdHolder T ≠
        invalidComponentType →
      (run.apply setting call).st.typeIdHolder T ∈
        (run.apply setting call).returned) :
    (run.apply setting call).Sound where
  indexed := by
    rw [after]
    exact sound.indexed.registerComponent added room
  assigned t member valid := by
    rw [after]
    obtain old | new := List.mem_append.mp member
    · obtain ⟨schema, registered⟩ :=
        Option.isSome_iff_exists.mp (sound.assigned t old valid)
      rw [ComponentRegistry.schemaOf_registerComponent registered]
      rfl
    · rw [returned t new] at valid ⊢
      exact registerComponent_assigned sound.indexed room valid
  remembered := remembered

/-- An unambiguous call keeps a run sound. -/
theorem Sound.apply
    (sound : run.Sound) {call : RegisterCall τ}
    (unambiguous : run.Unambiguous setting call) :
    (run.apply setting call).Sound := by
  cases call with
  | componentType T name fields =>
      by_cases known : run.st.typeIdHolder T = invalidComponentType
      · have called := call_new setting known name fields
        refine sound.of_registered (.componentType T name fields) {
            typeName := name
            size := setting.sizeOf T
            alignment := setting.alignOf T
            fields := fields
            isNetworked := fields.any (·.isNetworked) } ?_
          (fun hasName _ => (unambiguous known).2 hasName) (fun t member => ?_)
          fun U valid => ?_
        · unfold RegisterRun.apply
          rw [called]
        · rw [called] at member
          exact List.mem_singleton.mp member
        · unfold RegisterRun.apply at valid ⊢
          rw [called] at valid ⊢
          dsimp only at valid ⊢
          rw [Function.update_apply] at valid ⊢
          split at valid
          · rename_i isNew
            rw [if_pos isNew]
            exact List.mem_append_right _ List.mem_cons_self
          · rename_i isOld
            rw [if_neg isOld]
            exact List.mem_append_left _ (sound.remembered U valid)
      · have called := call_known setting known name fields
        unfold RegisterRun.apply
        rw [called]
        refine ⟨sound.indexed, fun t member valid => ?_, fun U valid =>
          List.mem_append_left _ (sound.remembered U valid)⟩
        obtain old | new := List.mem_append.mp member
        · exact sound.assigned t old valid
        · rw [List.mem_singleton.mp new]
          exact sound.assigned _ (sound.remembered T known) known
  | schemaComponent name rawFields =>
      obtain ⟨schema, lays, titled, -⟩ :=
        layoutSchema_places setting.engine.types name rawFields
      have called := call_raw run.st lays
      refine sound.of_registered (.schemaComponent name rawFields) schema ?_ ?_
        (fun t member => ?_) fun U valid => ?_
      · unfold RegisterRun.apply
        rw [called]
      · rw [titled]
        intro hasName free
        obtain able | ⟨taken, -⟩ := unambiguous
        · exact able.2 hasName
        · exact absurd free taken
      · rw [called] at member
        exact List.mem_singleton.mp member
      · unfold RegisterRun.apply at valid ⊢
        rw [called] at valid ⊢
        exact List.mem_append_left _ (sound.remembered U valid)
  | script name fields =>
      cases parsed : setting.engine.parseFields setting.defaultPriority []
          fields with
      | none =>
          unfold RegisterRun.apply
          rw [call_malformed run.st name parsed]
          refine ⟨sound.indexed, fun t member => ?_, fun U valid =>
            List.mem_append_left _ (sound.remembered U valid)⟩
          exact sound.assigned t ((List.append_nil _).subst member)
      | some fds =>
          obtain ⟨schema, lays, titled, -⟩ :=
            layoutSchema_places setting.engine.types name fds
          have called := call_script run.st parsed lays
          refine sound.of_registered (.script name fields) schema ?_ ?_
            (fun t member => ?_) fun U valid => ?_
          · unfold RegisterRun.apply
            rw [called]
          · rw [titled]
            intro hasName _
            exact (unambiguous (by rw [parsed]; rfl)).2 hasName
          · rw [called] at member
            exact absurd member List.not_mem_nil
          · unfold RegisterRun.apply at valid ⊢
            rw [called] at valid ⊢
            exact List.mem_append_left _ (sound.remembered U valid)

/-- Calls, one after the other. -/
theorem ofCalls_concat (before : List (RegisterCall τ))
    (call : RegisterCall τ) :
    ofCalls setting (before ++ [call]) =
      (ofCalls setting before).apply setting call := by
  unfold ofCalls
  rw [List.foldl_append, List.foldl_cons, List.foldl_nil]

omit [DecidableEq τ] in
/-- A run without calls is sound. -/
theorem empty_sound : ({} : RegisterRun τ).Sound where
  indexed := ComponentRegistry.empty_indexed
  assigned _ member := absurd member List.not_mem_nil
  remembered _ valid := absurd rfl valid

/-- A run stays sound as long as its calls are unambiguous, which they are shown
to be in sound runs. -/
theorem ofCalls_sound
    {calls : List (RegisterCall τ)}
    (unambiguous : ∀ before call, before ++ [call] <+: calls →
      (ofCalls setting before).Sound →
      (ofCalls setting before).Unambiguous setting call)
    {before : List (RegisterCall τ)} (isPrefix : before <+: calls) :
    (ofCalls setting before).Sound := by
  induction before using List.reverseRecOn with
  | nil => exact empty_sound
  | append_singleton before call inductionHypothesis =>
      have sound := inductionHypothesis
        ((List.prefix_append before [call]).trans isPrefix)
      rw [ofCalls_concat]
      exact sound.apply (unambiguous before call isPrefix sound)

/-- Registrations report what they do exactly if no call asks for a taken name
in a way that it cannot tell from a free one, and an id is left for every
component. -/
theorem registersTruly_iff (setting : RegisterSetting τ)
    (calls : List (RegisterCall τ)) :
    RegistersTruly setting calls ↔
      ∀ before call, before ++ [call] <+: calls →
        (ofCalls setting before).Unambiguous setting call := by
  constructor
  · intro truly
    have honest : ∀ before call, before ++ [call] <+: calls →
        (ofCalls setting before).Sound →
        (ofCalls setting before).Unambiguous setting call :=
      fun before call isPrefix sound => (sound.reportsTruly_iff call).mp
        (truly.reports before call isPrefix)
    exact fun before call isPrefix => honest before call isPrefix
      (ofCalls_sound honest
        ((List.prefix_append before [call]).trans isPrefix))
  · intro unambiguous
    have sound : ∀ before, before <+: calls →
        (ofCalls setting before).Sound := fun before isPrefix =>
      ofCalls_sound (fun before call isPrefix _ =>
        unambiguous before call isPrefix) isPrefix
    refine ⟨fun before isPrefix => (sound before isPrefix).indexed.numbered,
      fun before call isPrefix => ?_⟩
    exact ((sound before ((List.prefix_append before [call]).trans
      isPrefix)).reportsTruly_iff call).mpr (unambiguous before call isPrefix)

/-- A program with one C++ type of four bytes. -/
def singleTypeSetting : RegisterSetting Unit where
  sizeOf _ := 4
  alignOf _ := 4
  engine := .singlePrecision

/-- A script that registers a component with one field. -/
def registerField (name field type : String) : RegisterCall Unit :=
  .script name [.dictionary [(.string "name", .string field),
    (.string "type", .string type)]]

/-- The second registration of a name adds nothing and reports success. -/
theorem registersTruly_duplicate :
    ¬RegistersTruly singleTypeSetting [registerField "Health" "hp" "I32",
      registerField "Health" "shield" "Vector3"] := by
  intro truly
  have refused := (truly.reports [registerField "Health" "hp" "I32"]
    (registerField "Health" "shield" "Vector3") (List.prefix_refl _)).refused
    (by decide +kernel)
  exact absurd (show RegisterResult.Succeeds _ _ by decide +kernel) refused.1

end RegisterRun
end VortarisECS
