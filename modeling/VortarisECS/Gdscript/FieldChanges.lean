import VortarisECS.Core.WorldModes
import VortarisECS.Reflect.TypeTraits

/-!
# Subscriptions to the changes of a field

A subscription compares the field with the value it last delivered for the same
id.  It hears of changes alone, so that it does not know the value an instance
began with, and it takes over what it knows of an id from one instance to the
next.  The callback leaves the world alone.
-/

namespace VortarisECS

/-- Equality of the values of one field does not tell equal values apart. -/
def Engine.ComparesValues (engine : Engine) : Prop :=
  ∀ fd first second third a b c,
    fieldToVariant engine fd first = some a →
    fieldToVariant engine fd second = some b →
    fieldToVariant engine fd third = some c →
    engine.same a b = true → engine.same a c = engine.same b c

/-- What the world keeps of a subscription. -/
structure FieldSubscription where
  comp : ComponentTypeId
  field : String
  cached : AList fun _ : UInt64 => Variant := ∅

namespace FieldSubscription

variable (engine : Engine) (registry : ComponentRegistry)

/-- `VECSWorld::on_field_changed`: an unregistered component has no
subscriptions. -/
def onFieldChanged (comp field : String) : Option FieldSubscription :=
  let t := registry.idOf comp
  if t = invalidComponentType then none else some { comp := t, field := field }

/-- The value of the field, as the handler reads it. -/
def valueIn (sub : FieldSubscription) (seen : World) (e : Entity) :
    Option Variant :=
  match seen.getRaw e sub.comp, registry.schemaOf sub.comp with
  | some raw, some schema =>
      match schema.findField sub.field with
      | none => none
      | some fd => fieldToVariant engine fd (raw.drop fd.offset)
  | _, _ => none

/-- The handler of a subscription, with the calls of its callback. -/
def handle (sub : FieldSubscription) (seen : World) (e : Entity) :
    Traced (Entity × Variant) FieldSubscription :=
  match sub.valueIn engine registry seen e with
  | none => .pure sub
  | some value =>
      if (sub.cached.lookup e.id).any (engine.same · value) then .pure sub
      else ⟨{ sub with cached := sub.cached.insert e.id value }, [(e, value)]⟩

/-- The filter of `dispatch`, for the registered handler. -/
def onEffect (sub : FieldSubscription) :
    Effect → Traced (Entity × Variant) FieldSubscription
  | .dispatched type e comp _ seen =>
      if type = .changed ∧ comp = sub.comp then
        sub.handle engine registry seen e
      else .pure sub
  | _ => .pure sub

/-! ## What happens after the subscription -/

/-- Something that happens in a run: an effect of an operation, or the end of
an operation in a world. -/
inductive Happening
  | effect (effect : Effect)
  | done (w : World)

/-- What happens in the course of a run, and the world after each operation. -/
def happenings (w : World) : List ModeOp → List Happening
  | [] => []
  | op :: ops =>
      let step := op.apply registry w
      step.effects.map .effect ++
        .done step.state :: happenings step.state ops

/-- The subscription after something has happened. -/
def next (sub : FieldSubscription) : Happening → FieldSubscription
  | .effect effect => (sub.onEffect engine registry effect).state
  | .done _ => sub

/-! ## What the callback should be called for -/

/-- What an instance of the component was at its last event, and whether this
was a change. -/
structure Instance where
  value : Option Variant := none
  changed : Bool := false

/-- The instances at the time of the subscription. -/
def instances (sub : FieldSubscription) (w : World) (e : Entity) : Instance :=
  if w.has e sub.comp then { value := sub.valueIn engine registry w e } else {}

/-- The instances after something has happened.  A removal ends an instance, and
so does an operation that leaves its entity without the component. -/
def follow (sub : FieldSubscription) (instances : Entity → Instance) :
    Happening → Entity → Instance
  | .effect (.dispatched type e comp _ seen) =>
      if comp = sub.comp then
        let now := sub.valueIn engine registry seen e
        match type with
        | .added => Function.update instances e { value := now }
        | .changed =>
            if now.isSome then
              Function.update instances e { value := now, changed := true }
            else instances
        | .removed => Function.update instances e {}
        | .custom => instances
      else instances
  | .effect _ => instances
  | .done w => fun e => if w.has e sub.comp then instances e else {}

/-- The value is another one than before, or the first one. -/
def differs (before now : Option Variant) : Bool :=
  match now with
  | none => false
  | some value => !before.any (engine.same · value)

/-- A change calls the callback exactly if the value differs from the one at the
last event of the instance. -/
def FiresRight (sub : FieldSubscription) (instances : Entity → Instance) :
    Happening → Prop
  | .effect (.dispatched type e comp name seen) =>
      type = .changed → comp = sub.comp →
        (!(sub.onEffect engine registry
          (.dispatched type e comp name seen)).effects.isEmpty) =
        differs engine (instances e).value
          (sub.valueIn engine registry seen e)
  | _ => True

/-- Every change calls the callback exactly if it should. -/
def FiresOnChanges (sub : FieldSubscription) (instances : Entity → Instance) :
    List Happening → Prop
  | [] => True
  | happening :: later =>
      sub.FiresRight engine registry instances happening ∧
        (sub.next engine registry happening).FiresOnChanges
          (sub.follow engine registry instances happening) later

instance (sub : FieldSubscription) (instances : Entity → Instance) :
    DecidablePred (sub.FiresRight engine registry instances)
  | .effect (.dispatched type e comp name seen) =>
      inferInstanceAs (Decidable (type = .changed → comp = sub.comp →
        (!(sub.onEffect engine registry
          (.dispatched type e comp name seen)).effects.isEmpty) =
        differs engine (instances e).value
          (sub.valueIn engine registry seen e)))
  | .effect (.issued ..) | .effect (.adopted ..) | .effect (.wrote ..)
  | .effect (.moved ..) | .effect (.ranCustomCommand ..) | .done _ =>
      inferInstanceAs (Decidable True)

/-- Whether every change calls the callback as it should can be computed. -/
def decidesFiresOnChanges (sub : FieldSubscription)
    (instances : Entity → Instance) :
    (later : List Happening) →
      Decidable (sub.FiresOnChanges engine registry instances later)
  | [] => inferInstanceAs (Decidable True)
  | happening :: later =>
      have := decidesFiresOnChanges (sub.next engine registry happening)
        (sub.follow engine registry instances happening) later
      inferInstanceAs (Decidable (sub.FiresRight engine registry instances
        happening ∧ (sub.next engine registry happening).FiresOnChanges engine
          registry (sub.follow engine registry instances happening) later))

instance (sub : FieldSubscription) (instances : Entity → Instance) :
    DecidablePred (sub.FiresOnChanges engine registry instances) :=
  decidesFiresOnChanges engine registry sub instances

/-! ## When it is -/

/-- The values at the last change of each id, of whatever instance. -/
def lastChange (sub : FieldSubscription) (last : Entity → Option Variant) :
    Happening → Entity → Option Variant
  | .effect (.dispatched type e comp _ seen) =>
      if type = .changed ∧ comp = sub.comp then
        Function.update last e
          ((sub.valueIn engine registry seen e).or (last e))
      else last
  | _ => last

/-- The instance has changed before, or its value differs from the one it began
with exactly if it differs from the one at the last change of the id. -/
def Foreseen (sub : FieldSubscription) (instances : Entity → Instance)
    (last : Entity → Option Variant) : Happening → Prop
  | .effect (.dispatched type e comp _ seen) =>
      type = .changed → comp = sub.comp →
        (instances e).changed = true ∨
        differs engine (instances e).value
            (sub.valueIn engine registry seen e) =
          differs engine (last e) (sub.valueIn engine registry seen e)
  | _ => True

/-- All changes are foreseen. -/
def AlwaysForeseen (sub : FieldSubscription) (instances : Entity → Instance)
    (last : Entity → Option Variant) : List Happening → Prop
  | [] => True
  | happening :: later =>
      sub.Foreseen engine registry instances last happening ∧
        sub.AlwaysForeseen (sub.follow engine registry instances happening)
          (sub.lastChange engine registry last happening) later

/-! ## What the cache knows -/

variable {engine registry} {sub : FieldSubscription}
variable {cached : AList fun _ : UInt64 => Variant}
variable {instances : Entity → Instance} {last : Entity → Option Variant}

/-- The value can be read of the field. -/
def Readable (engine : Engine) (registry : ComponentRegistry)
    (sub : FieldSubscription) (value : Variant) : Prop :=
  ∃ seen e, sub.valueIn engine registry seen e = some value

/-- A value is read from a field of a registered component. -/
theorem valueIn_eq_some
    {seen : World} {e : Entity} {value : Variant}
    (read : sub.valueIn engine registry seen e = some value) :
    ∃ schema fd src, registry.schemaOf sub.comp = some schema ∧
      schema.findField sub.field = some fd ∧
      fieldToVariant engine fd src = some value := by
  unfold valueIn at read
  split at read
  · rename_i raw schema _ registered
    split at read
    · exact absurd read (by simp)
    · rename_i fd found
      exact ⟨schema, fd, _, registered, found, read⟩
  · exact absurd read (by simp)

/-- Sameness of values that can be read carries over. -/
theorem same_congr
    (compares : engine.ComparesValues) {a b c : Variant}
    (first : sub.Readable engine registry a)
    (second : sub.Readable engine registry b)
    (third : sub.Readable engine registry c) (same : engine.same a b = true) :
    engine.same a c = engine.same b c := by
  obtain ⟨_, _, readFirst⟩ := first
  obtain ⟨_, _, readSecond⟩ := second
  obtain ⟨_, _, readThird⟩ := third
  obtain ⟨schema, fd, _, registered, found, convertsFirst⟩ :=
    valueIn_eq_some readFirst
  obtain ⟨schema', fd', _, registered', found', convertsSecond⟩ :=
    valueIn_eq_some readSecond
  obtain ⟨schema'', fd'', _, registered'', found'', convertsThird⟩ :=
    valueIn_eq_some readThird
  obtain rfl : schema' = schema := Option.some.inj
    (registered'.symm.trans registered)
  obtain rfl : schema'' = schema' := Option.some.inj
    (registered''.symm.trans registered)
  obtain rfl : fd' = fd := Option.some.inj (found'.symm.trans found)
  obtain rfl : fd'' = fd' := Option.some.inj (found''.symm.trans found)
  exact compares _ _ _ _ a b c convertsFirst convertsSecond convertsThird same

/-- The cache tells values from those at the last changes. -/
structure Tracks (engine : Engine) (registry : ComponentRegistry)
    (sub : FieldSubscription) (cached : AList fun _ : UInt64 => Variant)
    (instances : Entity → Instance) (last : Entity → Option Variant) :
    Prop where
  readable : ∀ id old, cached.lookup id = some old →
    sub.Readable engine registry old
  tells : ∀ e value, sub.Readable engine registry value →
    differs engine (cached.lookup e.id) (some value) =
      differs engine (last e) (some value)
  changed : ∀ e, (instances e).changed = true → last e = (instances e).value

/-- Nothing was told before the subscription. -/
theorem Tracks.start (w : World) :
    Tracks engine registry sub ∅ (sub.instances engine registry w)
      fun _ => none where
  readable id old found := absurd found (by simp)
  tells e value _ := rfl
  changed e isChanged := by
    unfold FieldSubscription.instances at isChanged
    split at isChanged <;> exact absurd isChanged Bool.false_ne_true

/-- An event other than a change leaves the cache alone, and no instance has
changed by it. -/
theorem Tracks.quiet
    (tracks : Tracks engine registry sub cached instances last)
    {instances' : Entity → Instance}
    (kept : ∀ e, (instances' e).changed = true →
      instances' e = instances e) :
    Tracks engine registry sub cached instances' last where
  readable := tracks.readable
  tells := tracks.tells
  changed e isChanged := by
    have same := kept e isChanged
    rw [same] at isChanged ⊢
    exact tracks.changed e isChanged

/-- The value of a change goes into the cache unless it equals the one there. -/
theorem Tracks.change
    (compares : engine.ComparesValues)
    (tracks : Tracks engine registry sub cached instances last) {e : Entity}
    {value : Variant} (read : sub.Readable engine registry value) :
    Tracks engine registry sub
      (if (cached.lookup e.id).any (engine.same · value) then cached
        else cached.insert e.id value)
      (Function.update instances e { value := value, changed := true })
      (Function.update last e (some value)) := by
  refine ⟨?_, ?_, ?_⟩
  · intro id old found
    split at found
    · exact tracks.readable id old found
    · rw [AList.lookup_insert_if] at found
      split at found
      · exact Option.some.inj found ▸ read
      · exact tracks.readable id old found
  · intro x other readOther
    by_cases isSelf : x = e
    · subst isSelf
      rw [Function.update_self]
      split
      · rename_i equal
        obtain ⟨old, found, same⟩ := Option.any_eq_true _ _ |>.mp equal
        unfold differs
        rw [found]
        exact congrArg not (same_congr compares (tracks.readable _ _ found)
          read readOther same)
      · rw [AList.lookup_insert_if, if_pos rfl]
    · have otherId : x.id ≠ e.id := fun sameId =>
      isSelf (congrArg Entity.mk sameId)
      rw [Function.update_of_ne isSelf, ← tracks.tells x other readOther]
      split
      · rfl
      · rw [AList.lookup_insert_if, if_neg otherId]
  · intro x isChanged
    by_cases isSelf : x = e
    · rw [isSelf, Function.update_self, Function.update_self]
    · rw [Function.update_of_ne isSelf] at isChanged ⊢
      rw [Function.update_of_ne isSelf]
      exact tracks.changed x isChanged

/-- What the handler does, in terms of the cache. -/
theorem onEffect_changed
    (e : Entity) (name : String) (seen : World) :
    ({ sub with cached := cached }).onEffect engine registry
        (.dispatched .changed e sub.comp name seen) =
      match sub.valueIn engine registry seen e with
      | none => .pure { sub with cached := cached }
      | some value =>
          if (cached.lookup e.id).any (engine.same · value) then
            .pure { sub with cached := cached }
          else ⟨{ sub with cached := cached.insert e.id value },
            [(e, value)]⟩ :=
  if_pos ⟨rfl, rfl⟩

/-- The callback is called exactly for a value that is not the cached one. -/
theorem fires_eq_differs
    (e : Entity) (name : String) (seen : World) :
    (!(({ sub with cached := cached }).onEffect engine registry
        (.dispatched .changed e sub.comp name seen)).effects.isEmpty) =
      differs engine (cached.lookup e.id)
        (sub.valueIn engine registry seen e) := by
  rw [onEffect_changed]
  unfold differs
  cases sub.valueIn engine registry seen e with
  | none => rfl
  | some value =>
      dsimp only
      cases (cached.lookup e.id).any (engine.same · value) <;> rfl

/-- An event of the component changes what is known of its entity. -/
theorem Tracks.heard
    (compares : engine.ComparesValues)
    (tracks : Tracks engine registry sub cached instances last)
    (type : ObserverEventType) (e : Entity) (name : String) (seen : World) :
    let happening := Happening.effect (.dispatched type e sub.comp name seen)
    ∃ cached', ({ sub with cached := cached }).next engine registry happening =
        { sub with cached := cached' } ∧
      Tracks engine registry sub cached'
        (sub.follow engine registry instances happening)
        (sub.lastChange engine registry last happening) := by
  have unchanged : ∀ old : Option Variant, Tracks engine registry sub cached
      (Function.update instances e { value := old }) last := by
    intro old
    refine tracks.quiet fun x isChanged => ?_
    by_cases isSelf : x = e
    · rw [isSelf, Function.update_self] at isChanged
      exact absurd isChanged Bool.false_ne_true
    · exact Function.update_of_ne isSelf _ _
  unfold FieldSubscription.next follow lastChange
  dsimp only
  rw [if_pos rfl]
  cases type with
  | added => exact ⟨cached, rfl, unchanged _⟩
  | removed => exact ⟨cached, rfl, unchanged none⟩
  | custom => exact ⟨cached, rfl, tracks⟩
  | changed =>
      rw [onEffect_changed, if_pos (show ObserverEventType.changed = .changed ∧
        sub.comp = sub.comp from ⟨rfl, rfl⟩)]
      dsimp only
      cases read : sub.valueIn engine registry seen e with
      | none =>
          refine ⟨cached, rfl, ?_⟩
          rw [Option.none_or, Function.update_eq_self]
          exact tracks
      | some value =>
          refine ⟨_, ?_, tracks.change compares ⟨seen, e, read⟩⟩
          dsimp only
          split <;> rfl

/-- Whatever happens, the cache goes on telling values from those at the last
changes. -/
theorem Tracks.next
    (compares : engine.ComparesValues)
    (tracks : Tracks engine registry sub cached instances last)
    (happening : Happening) :
    ∃ cached', ({ sub with cached := cached }).next engine registry happening =
        { sub with cached := cached' } ∧
      Tracks engine registry sub cached'
        (sub.follow engine registry instances happening)
        (sub.lastChange engine registry last happening) := by
  cases happening with
  | done w =>
      refine ⟨cached, rfl, tracks.quiet fun e isChanged => ?_⟩
      dsimp only [follow] at isChanged ⊢
      split at isChanged
      · rename_i present
        exact if_pos present
      · exact absurd isChanged Bool.false_ne_true
  | effect effect =>
  cases effect with
  | dispatched type e comp name seen =>
      by_cases isComp : comp = sub.comp
      · subst isComp
        exact tracks.heard compares type e name seen
      · unfold FieldSubscription.next onEffect follow lastChange
        dsimp only
        rw [if_neg fun both => isComp both.2, if_neg isComp,
          if_neg fun both => isComp both.2]
        exact ⟨cached, rfl, tracks⟩
  | issued e before => exact ⟨cached, rfl, tracks⟩
  | adopted e before => exact ⟨cached, rfl, tracks⟩
  | wrote e comp => exact ⟨cached, rfl, tracks⟩
  | moved e => exact ⟨cached, rfl, tracks⟩
  | ranCustomCommand id data => exact ⟨cached, rfl, tracks⟩

/-- One change fires as it should exactly if it is foreseen. -/
theorem Tracks.firesRight_iff
    (tracks : Tracks engine registry sub cached instances last)
    (happening : Happening) :
    ({ sub with cached := cached }).FiresRight engine registry instances
        happening ↔
      sub.Foreseen engine registry instances last happening := by
  unfold FiresRight Foreseen
  split
  · rename_i type e comp name seen
    dsimp only
    refine forall_congr' fun isChange => forall_congr' fun isComp => ?_
    subst isChange isComp
    rw [fires_eq_differs]
    change differs engine _ (sub.valueIn engine registry seen e) =
      differs engine _ (sub.valueIn engine registry seen e) ↔ _
    have tells : differs engine (cached.lookup e.id)
          (sub.valueIn engine registry seen e) =
        differs engine (last e) (sub.valueIn engine registry seen e) := by
      cases read : sub.valueIn engine registry seen e with
      | none => rfl
      | some value => exact tracks.tells e value ⟨seen, e, read⟩
    rw [tells]
    constructor
    · exact fun fires => Or.inr fires.symm
    · rintro (isChanged | same)
      · rw [tracks.changed e isChanged]
      · exact same.symm
  · rfl

/-- From what is cached on, changes fire exactly if they are foreseen. -/
theorem Tracks.firesOnChanges_iff
    (compares : engine.ComparesValues)
    (tracks : Tracks engine registry sub cached instances last)
    (later : List Happening) :
    ({ sub with cached := cached }).FiresOnChanges engine registry instances
        later ↔
      sub.AlwaysForeseen engine registry instances last later := by
  induction later generalizing cached instances last with
  | nil => rfl
  | cons happening later inductionHypothesis =>
      obtain ⟨cached', nextEq, nextTracks⟩ := tracks.next compares happening
      unfold FiresOnChanges AlwaysForeseen
      rw [nextEq]
      exact and_congr (tracks.firesRight_iff happening)
        (inductionHypothesis nextTracks)

/-- In a run after a subscription every change calls the callback exactly if the
value differs from that at the last event of the instance, provided every
instance has changed before, or differs from what it began with exactly if it
differs from the value at the last change of its id. -/
theorem onFieldChanged_firesOnChanges_iff
    (engine : Engine) (compares : engine.ComparesValues)
    (registry : ComponentRegistry) (before after : List ModeOp)
    (comp field : String) (sub : FieldSubscription)
    (subscribed : onFieldChanged registry comp field = some sub) :
    let w := (ModeOp.run registry before).state
    sub.FiresOnChanges engine registry (sub.instances engine registry w)
        (happenings registry w after) ↔
      sub.AlwaysForeseen engine registry (sub.instances engine registry w)
        (fun _ => none) (happenings registry w after) := by
  intro w
  have fresh : sub = { sub with cached := ∅ } := by
    unfold onFieldChanged at subscribed
    dsimp only at subscribed
    split at subscribed
    · exact absurd subscribed (by simp)
    · rw [← Option.some.inj subscribed]
  have tracks : Tracks engine registry sub ∅
      (sub.instances engine registry w) fun _ => none := Tracks.start w
  have iff := tracks.firesOnChanges_iff compares (happenings registry w after)
  rw [← fresh] at iff
  exact iff

/-- The engine that keeps types apart compares the values of a field. -/
theorem singlePrecision_comparesValues :
    Engine.singlePrecision.ComparesValues := by
  intro fd _ _ _ a b c _ _ _ same
  have equal : a = b := by
    cases a <;> cases b <;> first
      | exact absurd same Bool.false_ne_true
      | skip
    · exact congrArg Variant.bool (beq_iff_eq.mp same)
    · exact congrArg Variant.int (beq_iff_eq.mp same)
    · exact congrArg Variant.float (beq_iff_eq.mp same)
    · exact congrArg Variant.string (of_decide_eq_true same)
  rw [equal]

/-- Two writes of other values fire as they should. -/
theorem onFieldChanged_firesOnChanges_twice :
    let registry := ComponentRegistry.healthRegistry
    let w := (ModeOp.run registry []).state
    let sub : FieldSubscription := { comp := 1, field := "hp" }
    let after : List ModeOp := [.operate .createEntity,
      .operate (.addRaw ⟨1⟩ 1 (some [7])), .operate (.addRaw ⟨1⟩ 1 (some [8]))]
    sub.FiresOnChanges .singlePrecision registry
        (sub.instances .singlePrecision registry w)
        (happenings registry w after) ↔
      sub.AlwaysForeseen .singlePrecision registry
        (sub.instances .singlePrecision registry w) (fun _ => none)
        (happenings registry w after) :=
  onFieldChanged_firesOnChanges_iff .singlePrecision
    singlePrecision_comparesValues ComponentRegistry.healthRegistry []
    [.operate .createEntity, .operate (.addRaw ⟨1⟩ 1 (some [7])),
      .operate (.addRaw ⟨1⟩ 1 (some [8]))] "Health" "hp"
    { comp := 1, field := "hp" } rfl

/-- The first write of an instance fires even if it writes the value the
instance already has. -/
theorem onFieldChanged_fires_unchanged :
    let registry := ComponentRegistry.healthRegistry
    let w := (ModeOp.run registry []).state
    let sub : FieldSubscription := { comp := 1, field := "hp" }
    onFieldChanged registry "Health" "hp" = some sub ∧
    ¬sub.FiresOnChanges .singlePrecision registry
        (sub.instances .singlePrecision registry w)
        (happenings registry w [.operate .createEntity,
          .operate (.addRaw ⟨1⟩ 1 (some [7])),
          .operate (.addRaw ⟨1⟩ 1 (some [7]))]) := by
  exact ⟨rfl, by decide +kernel⟩

end FieldSubscription
end VortarisECS
