import VortarisECS.Core.DeferredExecution
import VortarisECS.Core.FiniteMap
import VortarisECS.Reflect.TypeTraits

/-!
# Component fields by name

A script reads and writes the fields of an entity through handles, which name
the component and the field.
-/

namespace VortarisECS
namespace World

variable (engine : Engine) (registry : ComponentRegistry)

/-- `VECSComponent::get_field`. -/
def getComponentField (w : World) (e : Entity) (t : ComponentTypeId)
    (name : String) (default : Variant) : Variant :=
  if !(w.isAlive e && w.has e t) then default
  else
    match (registry.schemaOf t).bind (·.findField name), w.getRaw e t with
    | some fd, some raw =>
        (fieldToVariant engine fd (raw.drop fd.offset)).getD default
    | _, _ => default

/-- `VECSComponent::set_field`. -/
def setComponentField (w : World) (e : Entity) (t : ComponentTypeId)
    (name : String) (value : Variant) : Traced Effect World :=
  if !(w.isAlive e && w.has e t) then .pure w
  else
    match (registry.schemaOf t).bind (·.findField name), w.getRaw e t with
    | some fd, some raw =>
        match fieldFromVariant engine fd raw value with
        | none => .pure w
        | some bytes => (w.writeRaw e t bytes).markChanged e t name
    | _, _ => .pure w

/-- `VECSEntity::get_component`: the type of the handle, unless it is null. -/
def componentOf (w : World) (e : Entity) (comp : String) :
    Option ComponentTypeId :=
  let t := registry.idOf comp
  if w.isAlive e ∧ t ≠ invalidComponentType ∧ w.has e t then some t else none

/-- `VECSEntity::getf`. -/
def getf (w : World) (e : Entity) (comp field : String)
    (default : Variant) : Variant :=
  match w.componentOf registry e comp with
  | none => default
  | some t => w.getComponentField engine registry e t field default

/-- `VECSEntity::setf`. -/
def setf (w : World) (e : Entity) (comp field : String) (value : Variant) :
    Traced Effect World :=
  match w.componentOf registry e comp with
  | none => .pure w
  | some t => w.setComponentField engine registry e t field value

/-! ## What the handles read and write -/

variable {engine registry} {w : World} {e : Entity} {t : ComponentTypeId}
variable {raw : List UInt8} {name : String} {fd : FieldDescriptor}

/-- What is in the contents can be read through a handle. -/
theorem held_of_contents
    (consistent : w.store.Consistent registry)
    (found : (w.contents e).bind (· t) = some raw) :
    w.isAlive e = true ∧ w.has e t = true ∧ w.getRaw e t = some raw := by
  have represents := represents_contents consistent
  refine ⟨?_, ?_, (represents.getRaw e t).trans found⟩
  · rw [represents.isAlive]
    exact Option.isSome_of_isSome_bind (by rw [found]; rfl)
  · rw [represents.has_eq, found]
    rfl

/-- A field is read through a handle. -/
theorem getComponentField_eq
    (consistent : w.store.Consistent registry)
    (found : (w.contents e).bind (· t) = some raw)
    (field : (registry.schemaOf t).bind (·.findField name) = some fd)
    (default : Variant) :
    w.getComponentField engine registry e t name default =
      (fieldToVariant engine fd (raw.drop fd.offset)).getD default := by
  obtain ⟨alive, present, readRaw⟩ := held_of_contents consistent found
  unfold getComponentField
  rw [alive, present, readRaw, field]
  rfl

/-- A handle to a component that the entity has. -/
theorem componentOf_eq
    (consistent : w.store.Consistent registry)
    (found : (w.contents e).bind (· t) = some raw) {comp : String}
    (named : registry.idOf comp = t) :
    w.componentOf registry e comp = some t := by
  obtain ⟨alive, present, -⟩ := held_of_contents consistent found
  have valid : t ≠ invalidComponentType := by
    rintro rfl
    obtain ⟨_, _, registered, -⟩ :=
      getRaw_of_mem_types consistent ((has_iff_mem_types consistent).mp present)
    exact absurd registered (by simp [ComponentRegistry.schemaOf])
  unfold componentOf
  rw [named]
  exact if_pos ⟨alive, valid, present⟩

/-- A write puts what the conversion stores into the component. -/
theorem setComponentField_spec
    (stable : w.Stable registry)
    (found : (w.contents e).bind (· t) = some raw)
    (field : (registry.schemaOf t).bind (·.findField name) = some fd)
    (value : Variant) :
    let next := (w.setComponentField engine registry e t name value).state
    next.Stable registry ∧ next.control = w.control ∧
      next.contents = w.contents.put e t
        (some ((fieldFromVariant engine fd raw value).getD raw)) := by
  obtain ⟨alive, present, readRaw⟩ := held_of_contents stable.consistent found
  have writes : w.setComponentField engine registry e t name value =
      match fieldFromVariant engine fd raw value with
      | none => .pure w
      | some bytes => (w.writeRaw e t bytes).markChanged e t name := by
    unfold setComponentField
    rw [alive, present, readRaw, field]
    rfl
  rw [writes]
  cases stores : fieldFromVariant engine fd raw value with
  | none => exact ⟨stable, rfl, (Contents.put_held found).symm⟩
  | some bytes =>
      have sized : bytes.length = registry.sizeOf t :=
        (length_fieldFromVariant stores).trans
          (getRaw_length stable.consistent readRaw)
      have written : (w.writeRaw e t bytes).Stable registry :=
        stable.keeps (writeRaw_realizes e t sized) (Traced.accepted_pure _ _)
      refine ⟨?_, ?_, ?_⟩
      · exact written.keeps (markChanged_realizes e t name)
          (markChanged_createsNothing _ e t name)
      · exact (markChanged_control _ e t name).trans
          (writeRaw_control w e t bytes)
      · rw [Option.getD_some, ← writeRaw_contents stable.consistent readRaw
          alive bytes]
        exact markChanged_contents written.consistent e t name

end World
end VortarisECS
