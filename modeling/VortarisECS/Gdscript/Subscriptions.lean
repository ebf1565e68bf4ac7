import VortarisECS.Core.ObserverDispatch
import VortarisECS.Gdscript.FieldChanges

/-!
# The subscriptions of a world

Observers, field subscriptions and event subscriptions register a callback each
and keep its id for the removal.  A dispatch calls the callbacks that were
registered when it began, so that an observer or an event subscription which is
removed meanwhile is still called in it; the callback of a field subscription
looks whether it is there.  Callbacks remove subscriptions, and do nothing else
to them.
-/

namespace VortarisECS

/-- An observer, by its address. -/
abbrev ObserverPtr := Nat

/-- The id a script holds of a subscription. -/
abbrev SubscriptionId := Int

/-- What a callback is registered for, as far as its function captures it. -/
inductive Subscription
  | observer (o : ObserverPtr)
  | field (id : SubscriptionId)
  | event (id : SubscriptionId)
  deriving DecidableEq, Repr

/-- The subscription is one to a field. -/
def Subscription.isField : Subscription → Bool
  | field _ => true
  | observer _ | event _ => false

/-- The subscription is an observer. -/
def Subscription.isObserver : Subscription → Bool
  | observer _ => true
  | field _ | event _ => false

/-- An entry of `field_subs_`. -/
structure RegisteredField extends FieldSubscription where
  observerId : ObserverId
  positive : 0 < observerId

/-- What a world knows of its subscriptions, with the id each observer holds. -/
structure EventBus where
  observerDispatch : ObserverDispatch Subscription := {}
  observerIds : ObserverPtr → ObserverId := fun _ => 0
  fieldSubs : AList fun _ : SubscriptionId => RegisteredField := ∅
  nextFieldSubId : SubscriptionId := 1
  eventSubs : AList fun _ : SubscriptionId => ObserverId := ∅
  nextEventSubId : SubscriptionId := 1

/-! ## Filters -/

/-- The events `add_observer` registers an observer for. -/
def Observer.filter (o : Observer) : EventFilter where
  eventMask := o.eventMask
  componentFilter := o.componentFilter
  watchAll := o.componentFilter.isEmpty
  customName := o.customName

/-- A field subscription is called for changes of its component. -/
def FieldSubscription.filter (sub : FieldSubscription) : EventFilter where
  eventMask := Observer.Event.changed.eventBit
  componentFilter := [sub.comp]
  watchAll := false

/-- The events `subscribe_event` registers for. -/
def EventFilter.named (name : String) : EventFilter where
  eventMask := Observer.Event.custom.eventBit
  customName := name

/-- An observer hears of what its callback is registered for. -/
theorem Observer.filter_passes
    (o : Observer) (type : ObserverEventType) (e : Entity)
    (comp : ComponentTypeId) (name : String) :
    o.filter.passes ⟨type.event, e, comp, name⟩ = o.hears type comp name := by
  cases type <;> simp [EventFilter.passes, filter, hears,
    ObserverEventType.event]

/-- How often one callback is called for an event. -/
def EventFilter.calls (filter : EventFilter) (event : DispatchedEvent) : Nat :=
  if filter.passes event then 1 else 0

/-- Kinds of events have bits of their own. -/
theorem Observer.Event.eventBit_and (first second : Observer.Event) :
    (first.eventBit &&& second.eventBit != 0) = decide (second = first) := by
  cases first <;> cases second <;> rfl

/-- A field subscription passes changes of its component. -/
theorem FieldSubscription.filter_passes
    {sub : FieldSubscription} (registered : sub.comp ≠ 0)
    (event : DispatchedEvent) :
    sub.filter.passes event = true ↔
      event.type = .changed ∧ event.comp = sub.comp := by
  unfold EventFilter.passes filter
  rw [Observer.Event.eventBit_and]
  by_cases changes : event.type = .changed
  · by_cases same : event.comp = sub.comp
    · simp [changes, same, registered]
    · simp [changes, same]
  · simp [changes]

/-- An event subscription passes custom events of its name, or of any name. -/
theorem EventFilter.named_passes (name : String) (event : DispatchedEvent) :
    (named name).passes event = true ↔
      event.type = .custom ∧ (name = "" ∨ name = event.name) := by
  unfold passes named
  rw [Observer.Event.eventBit_and]
  by_cases isCustom : event.type = .custom
  · simp [isCustom]
  · simp [isCustom]

namespace EventBus

/-! ## Adding and removing -/

/-- Register an observer and remember the id it got. -/
def addObserver (bus : EventBus) (o : ObserverPtr) (configured : Observer) :
    EventBus :=
  let (id, observerDispatch) := bus.observerDispatch.add
    { toEventFilter := configured.filter, fn := .observer o }
  { bus with
    observerDispatch := observerDispatch
    observerIds := Function.update bus.observerIds o id }

/-- Remove an observer, if it has an id. -/
def removeObserver (bus : EventBus) (o : ObserverPtr) : EventBus :=
  if 0 < bus.observerIds o then
    { bus with
      observerDispatch := bus.observerDispatch.remove (bus.observerIds o)
      observerIds := Function.update bus.observerIds o 0 }
  else bus

/-- What `on_field_changed` subscribes to, if the component is registered and the
callable is valid. -/
def watched (registry : ComponentRegistry) (comp field : String)
    (callable : Bool) : Option FieldSubscription :=
  if callable then FieldSubscription.onFieldChanged registry comp field else none

/-- Watch a field under the next id. -/
def watch (bus : EventBus) (sub : FieldSubscription) :
    SubscriptionId × EventBus :=
  let subId := bus.nextFieldSubId
  let added := bus.observerDispatch.add
    { toEventFilter := sub.filter, fn := .field subId }
  (subId,
    { bus with
      observerDispatch := added.2
      fieldSubs := bus.fieldSubs.insert subId
        { sub with
          observerId := added.1
          positive := bus.observerDispatch.positive }
      nextFieldSubId := subId + 1 })

/-- The id of the subscription, or 0 without one. -/
def onFieldChanged (bus : EventBus) (registry : ComponentRegistry)
    (comp field : String) (callable : Bool) : SubscriptionId × EventBus :=
  match watched registry comp field callable with
  | none => (0, bus)
  | some sub => bus.watch sub

/-- Cancel a field subscription; an unknown id is ignored. -/
def off (bus : EventBus) (id : SubscriptionId) : EventBus :=
  match bus.fieldSubs.lookup id with
  | none => bus
  | some sub =>
      { bus with
        observerDispatch :=
          if 0 < sub.observerId then bus.observerDispatch.remove sub.observerId
          else bus.observerDispatch
        fieldSubs := bus.fieldSubs.erase id }

/-- Subscribe to a named event under the next id. -/
def subscribeEvent (bus : EventBus) (name : String) (callable : Bool) :
    SubscriptionId × EventBus :=
  if callable then
    let subId := bus.nextEventSubId
    let (id, observerDispatch) := bus.observerDispatch.add
      { toEventFilter := .named name, fn := .event subId }
    (subId,
      { bus with
        observerDispatch := observerDispatch
        eventSubs := bus.eventSubs.insert subId id
        nextEventSubId := subId + 1 })
  else (0, bus)

/-- Cancel an event subscription; an unknown id is ignored. -/
def unsubscribeEvent (bus : EventBus) (id : SubscriptionId) : EventBus :=
  match bus.eventSubs.lookup id with
  | none => bus
  | some observerId =>
      { bus with
        observerDispatch := bus.observerDispatch.remove observerId
        eventSubs := bus.eventSubs.erase id }

/-- Cancel all field subscriptions. -/
def clearFieldSubs (bus : EventBus) : EventBus :=
  { bus with
    observerDispatch := bus.fieldSubs.entries.foldl (fun d kv =>
      if 0 < kv.2.observerId then d.remove kv.2.observerId else d)
      bus.observerDispatch
    fieldSubs := ∅ }

/-- Cancel all event subscriptions. -/
def clearEventSubs (bus : EventBus) : EventBus :=
  { bus with
    observerDispatch := bus.eventSubs.entries.foldl (fun d kv =>
      d.remove kv.2) bus.observerDispatch
    eventSubs := ∅ }

/-- The part of `World::reset` that concerns the dispatch comes last. -/
def shutdown (bus : EventBus) : EventBus :=
  let bus := bus.clearFieldSubs.clearEventSubs
  { bus with observerDispatch := bus.observerDispatch.clear }

/-! ## Dispatching -/

/-- The calls that remove a subscription. -/
inductive Removal
  | removeObserver (o : ObserverPtr)
  | off (id : SubscriptionId)
  | unsubscribeEvent (id : SubscriptionId)
  deriving DecidableEq, Repr

/-- Whose subscription a removal takes away. -/
def Removal.subscription : Removal → Subscription
  | removeObserver o => .observer o
  | off id => .field id
  | unsubscribeEvent id => .event id

/-- Perform a removal. -/
def Removal.apply (bus : EventBus) : Removal → EventBus
  | removeObserver o => bus.removeObserver o
  | off id => bus.off id
  | unsubscribeEvent id => bus.unsubscribeEvent id

/-- What happens during a dispatch. -/
inductive Moment
  | called (s : Subscription)
  | removed (s : Subscription)
  deriving DecidableEq, Repr

/-- A field subscription that was removed is not found any more. -/
def finds (bus : EventBus) : Subscription → Bool
  | .observer _ | .event _ => true
  | .field id => (bus.fieldSubs.lookup id).isSome

/-- A removal in the course of a dispatch. -/
def removeDuring (bus : EventBus) (removal : Removal) : Traced Moment EventBus :=
  ⟨removal.apply bus, [.removed removal.subscription]⟩

/-- The function of a callback, which removes some subscriptions. -/
def call (removals : ObserverId → List Removal) (bus : EventBus)
    (cb : ObserverCallback Subscription) : Traced Moment EventBus :=
  if bus.finds cb.fn then
    (⟨bus, [.called cb.fn]⟩ : Traced Moment EventBus).andThen fun bus =>
      Traced.forEach removeDuring bus (removals cb.id)
  else .pure bus

/-- Dispatch an event; each callback makes the removals listed for its id. -/
def dispatch (bus : EventBus) (event : DispatchedEvent)
    (removals : ObserverId → List Removal) : Nat × Traced Moment EventBus :=
  bus.observerDispatch.dispatch event (call removals) bus

/-! ## Runs -/

/-- What users do.  In a dispatch, the callback with an id makes some removals. -/
inductive Op
  | addObserver (o : ObserverPtr) (configured : Observer)
  | onFieldChanged (comp field : String) (callable : Bool)
  | subscribeEvent (name : String) (callable : Bool)
  | remove (removal : Removal)
  | shutdown
  | dispatch (event : DispatchedEvent) (removals : ObserverId → List Removal)

/-- What happens in a run. -/
inductive Happening
  | added (s : Subscription) (filter : EventFilter)
  | removed (s : Subscription)
  | shutDown
  | dispatched (event : DispatchedEvent) (during : List Moment)
  deriving DecidableEq, Repr

variable (registry : ComponentRegistry)

/-- Perform one operation, and note what happened. -/
def Op.apply (bus : EventBus) : Op → Traced Happening EventBus
  | addObserver o configured =>
      ⟨bus.addObserver o configured, [.added (.observer o) configured.filter]⟩
  | onFieldChanged comp field callable =>
      let (id, added) := bus.onFieldChanged registry comp field callable
      ⟨added, (watched registry comp field callable).toList.map fun sub =>
        .added (.field id) sub.filter⟩
  | subscribeEvent name callable =>
      let (id, added) := bus.subscribeEvent name callable
      ⟨added, if callable then [.added (.event id) (.named name)] else []⟩
  | remove removal => ⟨removal.apply bus, [.removed removal.subscription]⟩
  | shutdown => ⟨bus.shutdown, [.shutDown]⟩
  | dispatch event removals =>
      let during := (bus.dispatch event removals).2
      ⟨during.state, [.dispatched event during.effects]⟩

/-- Operations one after the other. -/
def run (bus : EventBus) (ops : List Op) : Traced Happening EventBus :=
  Traced.forEach (Op.apply registry) bus ops

/-! ## What a run should be like -/

/-- What a subscription is registered for, after something has happened. -/
def after (s : Subscription) (asked : Option EventFilter) :
    Happening → Option EventFilter
  | .added other filter => if other = s then some filter else asked
  | .removed other => if other = s then none else asked
  | .shutDown => none
  | .dispatched _ during => if .removed s ∈ during then none else asked

/-- A dispatch is as it should be for a subscription that is registered for
something when it begins. -/
def Happening.Satisfies
    (right : Option EventFilter → DispatchedEvent → List Moment → Prop)
    (asked : Option EventFilter) : Happening → Prop
  | .dispatched event during => right asked event during
  | .added .. | .removed _ | .shutDown => True

/-- So is every dispatch of a history. -/
def Throughout
    (right : Option EventFilter → DispatchedEvent → List Moment → Prop)
    (s : Subscription) : Option EventFilter → List Happening → Prop
  | _, [] => True
  | asked, happening :: later =>
      happening.Satisfies right asked ∧
        Throughout right s (after s asked happening) later

/-- No call of the subscription comes after a removal of it. -/
def SilentAfterRemoval (s : Subscription) (during : List Moment) : Prop :=
  during.Pairwise fun first later => first = .removed s → later ≠ .called s

/-- A subscription is called once for an event it is registered for when the
dispatch begins, removed or not; but that of a field not after its removal. -/
def Delivers (s : Subscription) (asked : Option EventFilter)
    (event : DispatchedEvent) (during : List Moment) : Prop :=
  match asked with
  | none => .called s ∉ during
  | some filter =>
      (s.isField = true → SilentAfterRemoval s during) ∧
        during.count (.called s) ≤ filter.calls event ∧
        (s.isField = false ∨ .removed s ∉ during →
          during.count (.called s) = filter.calls event)

/-- No other callback is registered under the id the observer holds.  After a
shutdown one may be. -/
def SparesOthers (bus : EventBus) (o : ObserverPtr) : Prop :=
  0 < bus.observerIds o → ∀ cb ∈ bus.observerDispatch.callbacks,
    cb.id = bus.observerIds o → cb.fn = .observer o

/-- The removal takes no other registration away. -/
def Removal.Spares (bus : EventBus) : Removal → Prop
  | removeObserver o => bus.SparesOthers o
  | off _ | unsubscribeEvent _ => True

/-- The counters of ids, an `int` and two of 64 bits, can be incremented. -/
def CountersFit (bus : EventBus) : Prop :=
  bus.observerDispatch.nextId < 2 ^ 31 - 1 ∧
    bus.nextFieldSubId < 2 ^ 63 - 1 ∧ bus.nextEventSubId < 2 ^ 63 - 1

/-- No id overflows, the observer is not added a second time, and no removal of
an observer hits another registration. -/
def Op.Orderly (s : Subscription) (bus : EventBus) : Op → Prop
  | addObserver o _ => bus.CountersFit ∧
      (s = .observer o → ∀ cb ∈ bus.observerDispatch.callbacks, cb.fn ≠ s)
  | remove removal => removal.Spares bus
  | dispatch _ removals =>
      ∀ cb ∈ bus.observerDispatch.callbacks, ∀ removal ∈ removals cb.id,
        removal.Spares bus
  | onFieldChanged .. | subscribeEvent .. => bus.CountersFit
  | shutdown => True

instance (bus : EventBus) (o : ObserverPtr) : Decidable (bus.SparesOthers o) :=
  inferInstanceAs (Decidable (0 < bus.observerIds o →
    ∀ cb ∈ bus.observerDispatch.callbacks,
      cb.id = bus.observerIds o → cb.fn = .observer o))

instance Removal.decidableSpares (bus : EventBus) :
    DecidablePred (Removal.Spares bus)
  | removeObserver o => inferInstanceAs (Decidable (bus.SparesOthers o))
  | off _ | unsubscribeEvent _ => inferInstanceAs (Decidable True)

instance (bus : EventBus) : Decidable bus.CountersFit :=
  inferInstanceAs (Decidable (_ ∧ _ ∧ _))

instance Op.decidableOrderly (s : Subscription) (bus : EventBus) :
    DecidablePred (Op.Orderly s bus)
  | addObserver o _ =>
      inferInstanceAs (Decidable (bus.CountersFit ∧ (s = .observer o →
        ∀ cb ∈ bus.observerDispatch.callbacks, cb.fn ≠ s)))
  | remove removal => inferInstanceAs (Decidable (removal.Spares bus))
  | dispatch _ removals =>
      inferInstanceAs (Decidable (∀ cb ∈ bus.observerDispatch.callbacks,
        ∀ removal ∈ removals cb.id, removal.Spares bus))
  | onFieldChanged .. | subscribeEvent .. =>
      inferInstanceAs (Decidable bus.CountersFit)
  | shutdown => inferInstanceAs (Decidable True)

/-- All operations of a run are orderly. -/
def RunsOrderly (s : Subscription) : EventBus → List Op → Prop
  | _, [] => True
  | bus, op :: ops =>
      op.Orderly s bus ∧ RunsOrderly s (op.apply registry bus).state ops

instance decidableRunsOrderly (s : Subscription) :
    (bus : EventBus) → DecidablePred (RunsOrderly registry s bus)
  | _, [] => inferInstanceAs (Decidable True)
  | bus, op :: ops =>
      have := decidableRunsOrderly s (op.apply registry bus).state ops
      inferInstanceAs (Decidable (op.Orderly s bus ∧
        RunsOrderly registry s (op.apply registry bus).state ops))

variable {registry : ComponentRegistry} {bus : EventBus} {s other : Subscription}
variable {asked : Option EventFilter}

/-! ## Subscriptions as registrations -/

/-- The id under which a subscription would be removed. -/
def held (bus : EventBus) : Subscription → Option ObserverId
  | .observer o => if 0 < bus.observerIds o then some (bus.observerIds o) else none
  | .field id => (bus.fieldSubs.lookup id).map RegisteredField.observerId
  | .event id => bus.eventSubs.lookup id

/-- The callbacks as registrations of their subscriptions. -/
def registrations (bus : EventBus) : Roster Subscription EventFilter :=
  bus.observerDispatch.registrations bus.held

/-- An observer enters under the next id. -/
theorem addObserver_registrations (o : ObserverPtr) (configured : Observer) :
    (bus.addObserver o configured).registrations =
      bus.registrations.enter (.observer o) configured.filter := by
  have positive := bus.observerDispatch.positive
  have holds : (bus.addObserver o configured).held =
      Function.update bus.held (.observer o)
        (some bus.observerDispatch.nextId) := by
    funext s
    cases s with
    | observer other =>
        by_cases same : other = o
        · subst same
          simp [held, addObserver, ObserverDispatch.add, positive]
        · simp [held, addObserver, same]
    | field id => rfl
    | event id => rfl
  unfold registrations
  rw [holds]
  exact ObserverDispatch.add_registrations _

/-- So does a field subscription. -/
theorem watch_registrations (sub : FieldSubscription) :
    (bus.watch sub).2.registrations =
      bus.registrations.enter (.field bus.nextFieldSubId) sub.filter := by
  have holds : (bus.watch sub).2.held =
      Function.update bus.held (.field bus.nextFieldSubId)
        (some bus.observerDispatch.nextId) := by
    funext s
    cases s with
    | observer other => rfl
    | field id =>
        by_cases same : id = bus.nextFieldSubId
        · subst same
          simp [held, watch, ObserverDispatch.add]
        · simp [held, watch, same]
    | event id => rfl
  unfold registrations
  rw [holds]
  exact ObserverDispatch.add_registrations _

/-- So does an event subscription. -/
theorem subscribeEvent_registrations (name : String) :
    (bus.subscribeEvent name true).2.registrations =
      bus.registrations.enter (.event bus.nextEventSubId) (.named name) := by
  have holds : (bus.subscribeEvent name true).2.held =
      Function.update bus.held (.event bus.nextEventSubId)
        (some bus.observerDispatch.nextId) := by
    funext s
    cases s with
    | observer other => rfl
    | field id => rfl
    | event id =>
        by_cases same : id = bus.nextEventSubId
        · subst same
          simp [held, subscribeEvent, ObserverDispatch.add]
        · simp [held, subscribeEvent, same]
  unfold registrations
  rw [holds]
  exact ObserverDispatch.add_registrations _

/-- What holds no id leaves nothing. -/
theorem leave_of_none (none : bus.held s = none) :
    bus.registrations.leave s = bus.registrations := by
  unfold Roster.leave
  rw [show bus.registrations.held s = _ from none]

/-- A callback that is removed and forgotten leaves. -/
theorem registrations_of_remove {bus' : EventBus} {id : ObserverId}
    (holds : bus.held s = some id)
    (removes : bus'.observerDispatch = bus.observerDispatch.remove id)
    (forgets : bus'.held = Function.update bus.held s none) :
    bus'.registrations = bus.registrations.leave s := by
  unfold Roster.leave
  rw [show bus.registrations.held s = _ from holds]
  unfold registrations
  rw [removes, forgets]
  exact ObserverDispatch.remove_registrations id

/-- An observer leaves. -/
theorem removeObserver_registrations (o : ObserverPtr) :
    (bus.removeObserver o).registrations =
      bus.registrations.leave (.observer o) := by
  unfold removeObserver
  split
  · rename_i positive
    refine registrations_of_remove (if_pos positive) rfl (funext fun s => ?_)
    cases s with
    | observer other =>
        by_cases same : other = o
        · subst same
          simp [held]
        · simp [held, same]
    | field id => rfl
    | event id => rfl
  · rename_i notPositive
    have none : bus.held (.observer o) = none := if_neg notPositive
    exact (leave_of_none none).symm

/-- A field subscription leaves. -/
theorem off_registrations (id : SubscriptionId) :
    (bus.off id).registrations = bus.registrations.leave (.field id) := by
  unfold off
  split
  · rename_i missing
    have none : bus.held (.field id) = none := by
      rw [held, missing, Option.map_none]
    exact (leave_of_none none).symm
  · rename_i sub found
    have holds : bus.held (.field id) = some sub.observerId := by
      rw [held, found, Option.map_some]
    refine registrations_of_remove holds (if_pos sub.positive)
      (funext fun s => ?_)
    cases s with
    | observer other => rfl
    | field other =>
        by_cases same : other = id
        · subst same
          simp [held]
        · simp [held, same]
    | event other => rfl

/-- An event subscription leaves. -/
theorem unsubscribeEvent_registrations (id : SubscriptionId) :
    (bus.unsubscribeEvent id).registrations =
      bus.registrations.leave (.event id) := by
  unfold unsubscribeEvent
  split
  · rename_i missing
    have none : bus.held (.event id) = none := missing
    exact (leave_of_none none).symm
  · rename_i observerId found
    have holds : bus.held (.event id) = some observerId := found
    refine registrations_of_remove holds rfl (funext fun s => ?_)
    cases s with
    | observer other => rfl
    | field other => rfl
    | event other =>
        by_cases same : other = id
        · subst same
          simp [held]
        · simp [held, same]

/-- Every removal makes its subscription leave. -/
theorem removal_registrations (removal : Removal) :
    (removal.apply bus).registrations =
      bus.registrations.leave removal.subscription := by
  cases removal with
  | removeObserver o => exact removeObserver_registrations o
  | off id => exact off_registrations id
  | unsubscribeEvent id => exact unsubscribeEvent_registrations id

/-- After a shutdown only observers still hold ids. -/
theorem shutdown_registrations :
    bus.shutdown.registrations = bus.registrations.restart Subscription.isObserver := by
  have holds : bus.shutdown.held =
      fun s => if s.isObserver then bus.held s else none := by
    funext s
    cases s <;> rfl
  unfold registrations
  rw [holds]
  rfl

/-! ## What a removal leaves -/

/-- The ids of the subscriptions that have been handed out. -/
def Issued (bus : EventBus) : Subscription → Prop
  | .observer _ => True
  | .field id => id < bus.nextFieldSubId
  | .event id => id < bus.nextEventSubId

/-- What the world knows of a subscription that is registered for something, or
for nothing. -/
structure Serves (bus : EventBus) (s : Subscription)
    (asked : Option EventFilter) : Prop where
  lists : bus.registrations.Lists s asked
  forgotten : asked = none → s.isObserver = false → bus.held s = none
  issued : asked ≠ none → bus.Issued s

/-- Subscriptions other than observers hold no id but their own. -/
structure KeepsIds (bus : EventBus) (s : Subscription)
    (asked : Option EventFilter) : Prop extends bus.Serves s asked where
  holds : ∀ other, other.isObserver = false → bus.registrations.Holds other

/-- Besides, some subscriptions spare the others when they are removed. -/
structure Keeps (sparing : Subscription → Prop) (bus : EventBus)
    (s : Subscription) (asked : Option EventFilter) : Prop extends
    bus.KeepsIds s asked where
  spares : ∀ other, sparing other → bus.registrations.Spares other

variable {sparing : Subscription → Prop}

/-- A removal takes back no id. -/
theorem removal_issued (removal : Removal) (issued : bus.Issued s) :
    (removal.apply bus).Issued s := by
  have same : (removal.apply bus).nextFieldSubId = bus.nextFieldSubId ∧
      (removal.apply bus).nextEventSubId = bus.nextEventSubId := by
    cases removal <;>
      simp only [Removal.apply, removeObserver, off, unsubscribeEvent] <;>
      split <;> exact ⟨rfl, rfl⟩
  cases s with
  | observer o => trivial
  | field id => exact lt_of_lt_of_eq issued same.1.symm
  | event id => exact lt_of_lt_of_eq issued same.2.symm

/-- What a moment of a dispatch changes. -/
def Moment.after (s : Subscription) (asked : Option EventFilter) :
    Moment → Option EventFilter
  | .called _ => asked
  | .removed other => if other = s then none else asked

/-- A removal that spares the others keeps what a subscription asked for. -/
theorem Keeps.removeDuring {removal : Removal}
    (isSparing : sparing removal.subscription)
    (keeps : Keeps sparing bus s asked) :
    Keeps sparing (bus.removeDuring removal).state s
      (Moment.after s asked (.removed removal.subscription)) := by
  have left : (removal.apply bus).registrations = _ :=
    removal_registrations removal
  have spares := keeps.spares _ isSparing
  have heldLeft : (removal.apply bus).held = _ :=
    congrArg Roster.held left
  have holdsLeft : ∀ other, other.isObserver = false →
      (removal.apply bus).registrations.Holds other := by
    intro other isOther
    rw [left]
    exact (keeps.holds other isOther).leave spares
  have sparesLeft : ∀ other, sparing other →
      (removal.apply bus).registrations.Spares other := by
    intro other isSparing
    rw [left]
    exact (keeps.spares other isSparing).leave _
  show Keeps sparing (removal.apply bus) s
    (if removal.subscription = s then none else asked)
  by_cases same : removal.subscription = s
  · rw [if_pos same]
    refine ⟨⟨⟨?_, fun _ _ => ?_, fun nothing => absurd rfl nothing⟩,
      holdsLeft⟩, sparesLeft⟩
    · rw [left, same]
      exact keeps.lists.leave_self
    · rw [heldLeft, same]
      exact Roster.leave_held_self _ _
  · rw [if_neg same]
    refine ⟨⟨⟨?_, fun nothing isOther => ?_, fun something => ?_⟩,
      holdsLeft⟩, sparesLeft⟩
    · rw [left]
      exact keeps.lists.leave_of_ne same spares
    · rw [heldLeft, Roster.leave_held_of_ne same]
      exact keeps.forgotten nothing isOther
    · exact removal_issued removal (keeps.issued something)

/-- So does a call whose removals spare the others. -/
theorem Keeps.call {removals : ObserverId → List Removal}
    {cb : ObserverCallback Subscription}
    (areSparing : ∀ removal ∈ removals cb.id, sparing removal.subscription)
    (keeps : Keeps sparing bus s asked) :
    Keeps sparing (call removals bus cb).state s
      ((call removals bus cb).effects.foldl (Moment.after s) asked) := by
  unfold EventBus.call
  split
  · exact Traced.forEach_follows (fun asked bus => Keeps sparing bus s asked)
      (fun removal member _ _ keeps =>
        keeps.removeDuring (areSparing removal member))
      keeps
  · exact keeps

/-- What was asked for is void after the removal. -/
theorem foldl_after (moments : List Moment) :
    moments.foldl (Moment.after s) asked =
      if .removed s ∈ moments then none else asked := by
  induction moments generalizing asked with
  | nil => rfl
  | cons moment moments inductionHypothesis =>
      rw [List.foldl_cons, inductionHypothesis]
      cases moment with
      | called other => simp [Moment.after]
      | removed other =>
          by_cases same : other = s
          · simp [Moment.after, same]
          · simp [Moment.after, same, Ne.symm same]

/-! ## Calls of a dispatch -/

/-- Removals are noted down. -/
theorem removals_eq (removals : List Removal) :
    (Traced.forEach removeDuring bus removals).effects =
      removals.map fun removal => .removed removal.subscription := by
  induction removals generalizing bus with
  | nil => rfl
  | cons removal removals inductionHypothesis =>
      rw [Traced.forEach_cons, Traced.andThen_effects, inductionHypothesis]
      rfl

/-- Nobody is called by a removal. -/
theorem called_notMem_removals (removals : List Removal) :
    .called s ∉ (Traced.forEach removeDuring bus removals).effects := by
  rw [removals_eq]
  simp

/-- A field subscription is found as long as it is held. -/
theorem finds_iff :
    bus.finds s = true ↔ (s.isField = true → (bus.held s).isSome = true) := by
  cases s <;> simp [finds, held, Subscription.isField]

/-- A removal takes one id away. -/
theorem removal_held (removal : Removal) :
    (removal.apply bus).held s =
      if removal.subscription = s then none else bus.held s := by
  have left : (removal.apply bus).registrations.held s =
      (bus.registrations.leave removal.subscription).held s :=
    congrArg (fun r => Roster.held r s) (removal_registrations removal)
  refine left.trans ?_
  split
  · rename_i same
    rw [same]
    exact Roster.leave_held_self _ _
  · rename_i differs
    exact Roster.leave_held_of_ne differs

/-- The callback of a field is found as long as it is not removed. -/
def Lasts (s : Subscription) (moments : List Moment) : Prop :=
  s.isField = true → .removed s ∉ moments

/-- A subscription lasts through both parts. -/
theorem lasts_append (first second : List Moment) :
    Lasts s (first ++ second) ↔ Lasts s first ∧ Lasts s second := by
  simp [Lasts, forall_and]

/-- It is found after removals if it lasts. -/
theorem removals_finds (removals : List Removal) :
    (Traced.forEach removeDuring bus removals).state.finds s = true ↔
      bus.finds s = true ∧
        Lasts s (Traced.forEach removeDuring bus removals).effects := by
  induction removals generalizing bus with
  | nil => simp [Lasts]
  | cons removal removals inductionHypothesis =>
      rw [Traced.forEach_cons, Traced.andThen_state, Traced.andThen_effects,
        inductionHypothesis, lasts_append, ← and_assoc]
      refine and_congr_left fun _ => ?_
      show (removal.apply bus).finds s = true ↔
        bus.finds s = true ∧ Lasts s [.removed removal.subscription]
      rw [finds_iff, finds_iff, removal_held, Lasts, ← imp_and]
      refine imp_congr_right fun _ => ?_
      by_cases same : removal.subscription = s
      · simp [same]
      · simp [same, Ne.symm same]

/-- It is found after a call if it lasts. -/
theorem call_finds
    (removals : ObserverId → List Removal)
    (cb : ObserverCallback Subscription) :
    (call removals bus cb).state.finds s = true ↔
      bus.finds s = true ∧ Lasts s (call removals bus cb).effects := by
  unfold call
  split
  · rw [Traced.andThen_state, Traced.andThen_effects, lasts_append,
      removals_finds]
    simp [Lasts]
  · simp [Lasts]

/-- The part of a callback in the calls. -/
theorem call_count
    (removals : ObserverId → List Removal)
    (cb : ObserverCallback Subscription) :
    (call removals bus cb).effects.count (.called s) =
      if cb.fn = s ∧ bus.finds s = true then 1 else 0 := by
  unfold call
  by_cases found : bus.finds cb.fn = true
  · rw [if_pos found, Traced.andThen_effects, List.count_append,
      List.count_eq_zero.mpr (called_notMem_removals _)]
    by_cases same : cb.fn = s
    · subst same
      simp [found]
    · simp [same]
  · rw [if_neg found, if_neg]
    · rfl
    · rintro ⟨rfl, isFound⟩
      exact found isFound

/-- The number of the callbacks of a subscription. -/
def own (s : Subscription) (snapshot : List (ObserverCallback Subscription)) :
    Nat :=
  snapshot.countP fun cb => cb.fn = s

variable {removals : ObserverId → List Removal}
variable {snapshot : List (ObserverCallback Subscription)}

/-- A subscription is called at most once for each of its callbacks. -/
theorem calls_count_le :
    (Traced.forEach (call removals) bus snapshot).effects.count (.called s) ≤
      own s snapshot := by
  induction snapshot generalizing bus with
  | nil => exact Nat.le_refl _
  | cons cb snapshot inductionHypothesis =>
      rw [Traced.forEach_cons, Traced.andThen_effects, List.count_append,
        call_count]
      have later : (Traced.forEach (call removals) (call removals bus cb).state
          snapshot).effects.count (.called s) ≤ own s snapshot :=
        inductionHypothesis
      unfold own at later ⊢
      rw [List.countP_cons]
      split_ifs <;> simp_all <;> omega

/-- A subscription that is lost is not called. -/
theorem calls_none (lost : bus.finds s = false) :
    .called s ∉ (Traced.forEach (call removals) bus snapshot).effects := by
  induction snapshot generalizing bus with
  | nil => exact List.not_mem_nil
  | cons cb snapshot inductionHypothesis =>
      rw [Traced.forEach_cons, Traced.andThen_effects, List.mem_append, not_or]
      constructor
      · rw [← List.count_eq_zero, call_count, if_neg]
        rintro ⟨-, found⟩
        rw [lost] at found
        exact Bool.false_ne_true found
      · refine inductionHypothesis (Bool.eq_false_iff.mpr fun found => ?_)
        rw [call_finds, lost] at found
        exact Bool.false_ne_true found.1

/-- One that lasts is called for each of its callbacks. -/
theorem calls_count (found : bus.finds s = true)
    (lasts : Lasts s (Traced.forEach (call removals) bus snapshot).effects) :
    (Traced.forEach (call removals) bus snapshot).effects.count (.called s) =
      own s snapshot := by
  induction snapshot generalizing bus with
  | nil => rfl
  | cons cb snapshot inductionHypothesis =>
      rw [Traced.forEach_cons, Traced.andThen_effects, lasts_append] at lasts
      rw [Traced.forEach_cons, Traced.andThen_effects, List.count_append,
        call_count, inductionHypothesis ((call_finds _ _).mpr ⟨found, lasts.1⟩)
          lasts.2]
      unfold own
      rw [List.countP_cons, Nat.add_comm]
      simp [found]

/-- A field subscription that removes itself is called before. -/
theorem call_silent (cb : ObserverCallback Subscription) :
    SilentAfterRemoval s (call removals bus cb).effects := by
  unfold call
  split
  · rw [Traced.andThen_effects, removals_eq]
    refine List.pairwise_cons.mpr
      ⟨fun _ _ isRemoval => absurd isRemoval (by simp), ?_⟩
    exact List.pairwise_map.mpr
      (List.pairwise_of_forall fun _ _ _ isCall => absurd isCall (by simp))
  · exact List.Pairwise.nil

/-- No field subscription is called after its removal. -/
theorem calls_silent (isField : s.isField = true) :
    SilentAfterRemoval s
      (Traced.forEach (call removals) bus snapshot).effects := by
  induction snapshot generalizing bus with
  | nil => exact List.Pairwise.nil
  | cons cb snapshot inductionHypothesis =>
      rw [Traced.forEach_cons, Traced.andThen_effects]
      refine List.pairwise_append.mpr ⟨call_silent cb, inductionHypothesis, ?_⟩
      · rintro first member later laterMember rfl rfl
        refine calls_none ?_ laterMember
        refine Bool.eq_false_iff.mpr fun found => ?_
        exact ((call_finds _ _).mp found).2 isField member

/-! ## Steps -/

/-- The callbacks of a subscription that an event runs. -/
theorem own_snapshot (event : DispatchedEvent) :
    own s (bus.observerDispatch.callbacks.filter fun cb => cb.passes event) =
      (bus.registrations.entriesOf s).countP fun entry =>
        entry.request.passes event := by
  unfold own Roster.entriesOf registrations
    ObserverDispatch.registrations
  rw [List.countP_filter, List.countP_filter, List.countP_map]
  refine List.countP_congr fun cb _ => ?_
  simp [and_comm]

/-- A dispatch delivers to a subscription that is served. -/
theorem dispatch_delivers
    (serves : bus.Serves s asked) (event : DispatchedEvent)
    (removals : ObserverId → List Removal) :
    Delivers s asked event (bus.dispatch event removals).2.effects := by
  unfold dispatch ObserverDispatch.dispatch
  dsimp only
  have atMost : (Traced.forEach (call removals) bus
        (bus.observerDispatch.callbacks.filter fun cb =>
          cb.passes event)).effects.count (.called s) ≤
      own s (bus.observerDispatch.callbacks.filter fun cb => cb.passes event) :=
    calls_count_le
  rw [own_snapshot] at atMost
  cases asked with
  | none =>
      rw [show bus.registrations.entriesOf s = [] from serves.lists] at atMost
      exact List.count_eq_zero.mp (Nat.le_zero.mp atMost)
  | some filter =>
      obtain ⟨id, held, alone⟩ := serves.lists
      have one : (bus.registrations.entriesOf s).countP (fun entry =>
          entry.request.passes event) = filter.calls event := by
        rw [alone, List.countP_singleton]
        rfl
      have found : bus.finds s = true :=
        finds_iff.mpr fun _ => Option.isSome_iff_exists.mpr ⟨id, held⟩
      refine ⟨calls_silent, atMost.trans_eq one, fun undisturbed => ?_⟩
      rw [← one, ← own_snapshot]
      refine calls_count found fun isField removed => ?_
      obtain notField | kept := undisturbed
      · exact absurd (isField.symm.trans notField) Bool.noConfusion
      · exact kept removed

/-- An entry of another subscription keeps the ids. -/
theorem KeepsIds.enter {bus' : EventBus} {filter : EventFilter}
    (keeps : bus.KeepsIds s asked)
    (enters : bus'.registrations = bus.registrations.enter other filter)
    (issues : bus'.Issued other) (stays : bus.Issued s → bus'.Issued s)
    (free : other = s → asked = none) :
    bus'.KeepsIds s (after s asked (.added other filter)) := by
  have heldEnter : bus'.held = _ := congrArg Roster.held enters
  have holds : ∀ x, x.isObserver = false → bus'.registrations.Holds x := by
    intro x isOther
    rw [enters]
    exact (keeps.holds x isOther).enter other filter
  show bus'.KeepsIds s (if other = s then some filter else asked)
  by_cases same : other = s
  · subst same
    have lists := keeps.lists
    rw [free rfl] at lists
    rw [if_pos rfl]
    refine ⟨⟨?_, fun nothing => absurd nothing (by simp), fun _ => issues⟩,
      holds⟩
    rw [enters]
    exact lists.enter_self filter
  · rw [if_neg same]
    refine ⟨⟨?_, fun nothing isOther => ?_, fun something =>
      stays (keeps.issued something)⟩, holds⟩
    · rw [enters]
      exact keeps.lists.enter_of_ne same filter
    · rw [heldEnter]
      exact (Function.update_of_ne (Ne.symm same) _ _).trans
        (keeps.forgotten nothing isOther)

/-- Adding an observer keeps the ids. -/
theorem KeepsIds.addObserver {o : ObserverPtr} {configured : Observer}
    (keeps : bus.KeepsIds s asked)
    (orderly : (Op.addObserver o configured).Orderly s bus) :
    (bus.addObserver o configured).KeepsIds s
      (after s asked (.added (.observer o) configured.filter)) := by
  refine keeps.enter (addObserver_registrations o configured) trivial ?_ ?_
  · cases s <;> exact id
  · rintro rfl
    cases asked with
    | none => rfl
    | some filter =>
        obtain ⟨id, -, alone⟩ := keeps.lists
        have listed : (⟨id, .observer o, filter⟩ : Registration _ _) ∈
            bus.registrations.entriesOf (.observer o) := by
          rw [alone]
          exact List.mem_singleton_self _
        obtain ⟨cb, registered, same⟩ :=
          List.mem_map.mp (List.mem_filter.mp listed).1
        exact absurd (congrArg Registration.owner same)
          (orderly.2 rfl cb registered)

/-- Watching a field keeps the ids. -/
theorem KeepsIds.watch (keeps : bus.KeepsIds s asked)
    (sub : FieldSubscription) :
    (bus.watch sub).2.KeepsIds s
      (after s asked (.added (.field bus.nextFieldSubId) sub.filter)) := by
  refine keeps.enter (watch_registrations sub) (Int.lt_succ _) ?_ ?_
  · cases s with
    | observer o => exact id
    | field id => exact fun issued => issued.trans (Int.lt_succ _)
    | event id => exact fun issued => issued
  · rintro rfl
    by_contra something
    exact absurd (keeps.issued something) (lt_irrefl _)

/-- Subscribing to an event keeps the ids. -/
theorem KeepsIds.subscribeEvent (keeps : bus.KeepsIds s asked)
    (name : String) :
    (bus.subscribeEvent name true).2.KeepsIds s
      (after s asked (.added (.event bus.nextEventSubId) (.named name))) := by
  refine keeps.enter (subscribeEvent_registrations name) (Int.lt_succ _) ?_ ?_
  · cases s with
    | observer o => exact id
    | field id => exact fun issued => issued
    | event id => exact fun issued => issued.trans (Int.lt_succ _)
  · rintro rfl
    by_contra something
    exact absurd (keeps.issued something) (lt_irrefl _)

/-- A shutdown ends all subscriptions. -/
theorem KeepsIds.shutdown (bus : EventBus) :
    bus.shutdown.KeepsIds s none := by
  have restarts : bus.shutdown.registrations =
      bus.registrations.restart Subscription.isObserver :=
    shutdown_registrations
  refine ⟨⟨?_, fun _ isOther => ?_, fun something => absurd rfl something⟩,
    fun other isOther => ?_⟩
  · rw [restarts]
    exact Roster.restart_lists _ _ _
  · cases s with
    | observer o => exact absurd isOther (by simp [Subscription.isObserver])
    | field id => rfl
    | event id => rfl
  · rw [restarts]
    exact Roster.restart_holds _ isOther

/-- A removal that takes no other registration away spares the others. -/
theorem KeepsIds.removal_spares {removal : Removal}
    (keeps : bus.KeepsIds s asked) (spares : removal.Spares bus) :
    bus.registrations.Spares removal.subscription := by
  cases removal with
  | removeObserver o =>
      intro id held entry member sameId
      have isHeld : (if 0 < bus.observerIds o then some (bus.observerIds o)
        else none) = some id := held
      split at isHeld
      · rename_i positive
        obtain ⟨cb, registered, rfl⟩ := List.mem_map.mp member
        exact spares positive cb registered
          (sameId.trans (Option.some.inj isHeld).symm)
      · exact absurd isHeld (by simp)
  | off id => exact (keeps.holds _ rfl).spares
  | unsubscribeEvent id => exact (keeps.holds _ rfl).spares

theorem KeepsIds.keepsSparing (keeps : bus.KeepsIds s asked) :
    Keeps bus.registrations.Spares bus s asked :=
  ⟨keeps, fun _ spares => spares⟩

/-- A removal keeps the ids. -/
theorem KeepsIds.remove {removal : Removal} (keeps : bus.KeepsIds s asked)
    (spares : removal.Spares bus) :
    (removal.apply bus).KeepsIds s
      (after s asked (.removed removal.subscription)) :=
  (keeps.keepsSparing.removeDuring (keeps.removal_spares spares)).toKeepsIds

/-- A dispatch keeps the ids. -/
theorem KeepsIds.dispatch {event : DispatchedEvent}
    (keeps : bus.KeepsIds s asked)
    (orderly : (Op.dispatch event removals).Orderly s bus) :
    (bus.dispatch event removals).2.state.KeepsIds s
      (after s asked
        (.dispatched event (bus.dispatch event removals).2.effects)) := by
  have areSparing : ∀ cb ∈ bus.observerDispatch.callbacks.filter
      (fun cb => cb.passes event), ∀ removal ∈ removals cb.id,
      bus.registrations.Spares removal.subscription := by
    intro cb member removal removes
    exact keeps.removal_spares
      (orderly cb (List.mem_filter.mp member).1 removal removes)
  have kept := Traced.forEach_follows
    (fun asked now => Keeps bus.registrations.Spares now s asked)
    (fun cb member _ _ keepsNow => keepsNow.call (areSparing cb member))
    keeps.keepsSparing
  rw [foldl_after] at kept
  exact kept.toKeepsIds

/-! ## Runs of subscriptions -/

/-- What happens when a field is watched. -/
theorem Op.apply_onFieldChanged {comp field : String} {callable : Bool} :
    (Op.onFieldChanged comp field callable).apply registry bus =
      match watched registry comp field callable with
      | none => .pure bus
      | some sub =>
          ⟨(bus.watch sub).2, [.added (.field bus.nextFieldSubId) sub.filter]⟩ := by
  cases watches : watched registry comp field callable <;>
    simp [Op.apply, EventBus.onFieldChanged, watches, watch, Traced.pure]

/-- A step keeps what the world knows of a subscription, and delivers to it. -/
theorem Op.apply_delivers {op : Op} (keeps : bus.KeepsIds s asked)
    (orderly : op.Orderly s bus) {later : List Happening}
    (rest : ∀ asked, (op.apply registry bus).state.KeepsIds s asked →
      Throughout (Delivers s) s asked later) :
    Throughout (Delivers s) s asked
      ((op.apply registry bus).effects ++ later) := by
  cases op with
  | addObserver o configured =>
      exact And.intro trivial (rest _ (keeps.addObserver orderly))
  | onFieldChanged comp field callable =>
      rw [Op.apply_onFieldChanged] at rest ⊢
      split at rest
      · exact rest asked keeps
      · exact And.intro trivial (rest _ (keeps.watch _))
  | subscribeEvent name callable =>
      cases callable with
      | false => exact rest asked keeps
      | true => exact And.intro trivial (rest _ (keeps.subscribeEvent name))
  | remove removal =>
      exact And.intro trivial (rest _ (keeps.remove orderly))
  | shutdown =>
      exact And.intro trivial (rest _ (KeepsIds.shutdown bus))
  | dispatch event removals =>
      exact And.intro (dispatch_delivers keeps.toServes event removals)
        (rest _ (keeps.dispatch orderly))

/-- Every run delivers, from a state that keeps the ids on. -/
theorem KeepsIds.run_throughout {ops : List Op} (keeps : bus.KeepsIds s asked)
    (orderly : RunsOrderly registry s bus ops) :
    Throughout (Delivers s) s asked (run registry bus ops).effects := by
  induction ops generalizing bus asked with
  | nil => trivial
  | cons op ops inductionHypothesis =>
      exact op.apply_delivers keeps orderly.1 fun _ kept =>
        inductionHypothesis kept orderly.2

/-- Nobody is registered at the start. -/
theorem KeepsIds.start (s : Subscription) : KeepsIds {} s none := by
  refine ⟨⟨rfl, fun _ _ => ?_, fun something => absurd rfl something⟩,
    fun other _ id held => ?_⟩
  · cases s <;> rfl
  · cases other <;> exact absurd held (by simp [registrations,
      ObserverDispatch.registrations, EventBus.held])

/-- Subscriptions do not interfere: whatever is added, removed and dispatched,
and whatever the callbacks remove, each is called once for every event it is
registered for when the dispatch begins, and for no other. -/
theorem run_delivers (s : Subscription) (ops : List Op)
    (orderly : RunsOrderly registry s {} ops) :
    Throughout (Delivers s) s none (run registry {} ops).effects :=
  (KeepsIds.start s).run_throughout orderly

/-- An observer of all named events. -/
def anyNamed : Observer := { eventMask := Observer.Event.custom.eventBit }

/-- The observer removes itself and the subscription to "tick" when it is
called.  It is removed again after a shutdown, when nobody has its id. -/
def leavesTick : List Op :=
  [.addObserver 7 anyNamed, .subscribeEvent "tick" true,
    .dispatch { type := .custom, name := "tick" } fun id =>
      if id = 1 then [.removeObserver 7, .unsubscribeEvent 1] else [],
    .addObserver 7 anyNamed, .shutdown, .remove (.removeObserver 7),
    .subscribeEvent "tock" true, .addObserver 7 anyNamed,
    .dispatch { type := .custom, name := "tock" } fun _ => []]

/-- An observer that leaves and comes back. -/
theorem run_delivers_tick :
    Throughout (Delivers (.observer 7)) (.observer 7) none
      (run {} {} leavesTick).effects :=
  run_delivers (.observer 7) leavesTick (by decide +kernel)

/-- An observer that was added twice is still called after its removal. -/
example :
    (run {} {} [.addObserver 7 anyNamed, .addObserver 7 anyNamed,
      .remove (.removeObserver 7),
      .dispatch { type := .custom } fun _ => []]).effects.getLast? =
    some (.dispatched { type := .custom } [.called (.observer 7)]) := by
  decide +kernel

end EventBus

end VortarisECS
