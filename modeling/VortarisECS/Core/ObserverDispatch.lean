import VortarisECS.Core.Observer
import VortarisECS.Library.Roster
import VortarisECS.Library.Traced

/-!
# The dispatch of events to callbacks

Callbacks are registered under increasing ids.  A dispatch goes through the
callbacks that were registered when it began, whatever is registered or removed
while it lasts.
-/

namespace VortarisECS

/-- The id of a registered callback; zero stands for none. -/
abbrev ObserverId := Nat

/-- What is dispatched. -/
structure DispatchedEvent where
  type : Observer.Event
  entity : Entity := ⟨0⟩
  comp : ComponentTypeId := 0
  name : String := ""
  deriving DecidableEq, Repr

/-- The events a callback is registered for. -/
structure EventFilter where
  eventMask : UInt32 := 0
  componentFilter : List ComponentTypeId := []
  watchAll : Bool := true
  customName : String := ""
  deriving DecidableEq, Repr

/-- The conditions of the loop of `dispatch`. -/
def EventFilter.passes (filter : EventFilter) (event : DispatchedEvent) : Bool :=
  filter.eventMask &&& event.type.eventBit != 0 &&
    if event.type = .custom then
      filter.customName.isEmpty || filter.customName == event.name
    else
      filter.watchAll || filter.componentFilter.isEmpty ||
        event.comp != 0 && filter.componentFilter.contains event.comp

/-- A registered callback.  Its function is given by what the function
captures. -/
structure ObserverCallback (σ : Type) extends EventFilter where
  id : ObserverId := 0
  fn : σ
  deriving DecidableEq, Repr

/-- The callbacks, with the next id.  A missing list is an empty one. -/
structure ObserverDispatch (σ : Type) where
  callbacks : List (ObserverCallback σ) := []
  nextId : ObserverId := 1
  positive : 0 < nextId := by decide
  distinct : (callbacks.map ObserverCallback.id).Nodup := by
    exact List.nodup_nil
  below : ∀ cb ∈ callbacks, cb.id < nextId := by
    exact fun _ member => absurd member List.not_mem_nil

namespace ObserverDispatch

variable {σ : Type}

/-- The list of the callbacks, with the ids their owners hold. -/
def registrations (d : ObserverDispatch σ) (held : σ → Option ObserverId) :
    Roster σ EventFilter where
  entries := d.callbacks.map fun cb => ⟨cb.id, cb.fn, cb.toEventFilter⟩
  nextId := d.nextId
  held := held
  distinct := by
    rw [List.map_map]
    exact d.distinct
  below := by
    intro entry member
    obtain ⟨cb, registered, rfl⟩ := List.mem_map.mp member
    exact d.below cb registered

/-- Register a callback under the next id. -/
def add (d : ObserverDispatch σ) (cb : ObserverCallback σ) :
    ObserverId × ObserverDispatch σ :=
  (d.nextId,
    { callbacks := d.callbacks ++ [{ cb with id := d.nextId }]
      nextId := d.nextId + 1
      positive := Nat.succ_pos _
      distinct := by
        rw [List.map_append, List.map_singleton, ← List.concat_eq_append]
        refine d.distinct.concat fun taken => ?_
        obtain ⟨old, member, same⟩ := List.mem_map.mp taken
        exact absurd (d.below old member) (same ▸ Nat.lt_irrefl _)
      below := by
        intro registered member
        obtain old | new := List.mem_append.mp member
        · exact Nat.lt_succ_of_lt (d.below registered old)
        · rw [List.mem_singleton.mp new]
          exact Nat.lt_succ_self _ })

/-- Remove the callback registered under an id, if there is one. -/
def remove (d : ObserverDispatch σ) (id : ObserverId) : ObserverDispatch σ where
  callbacks := d.callbacks.filter fun cb => cb.id != id
  nextId := d.nextId
  positive := d.positive
  distinct := d.distinct.sublist (List.filter_sublist.map _)
  below cb member := d.below cb (List.mem_filter.mp member).1

/-- Remove all callbacks and start counting anew. -/
def clear (_ : ObserverDispatch σ) : ObserverDispatch σ := {}

/-- Run the callbacks that are registered now and let the event through, and
count them. -/
def dispatch (d : ObserverDispatch σ) (event : DispatchedEvent)
    (run : β → ObserverCallback σ → Traced ε β) (state : β) :
    Nat × Traced ε β :=
  let snapshot := d.callbacks.filter fun cb => cb.passes event
  (snapshot.length, Traced.forEach run state snapshot)

variable {d : ObserverDispatch σ} {held : σ → Option ObserverId}

/-- Adding a callback is an entry under the next id. -/
theorem add_registrations [DecidableEq σ] (cb : ObserverCallback σ) :
    (d.add cb).2.registrations
        (Function.update held cb.fn (some (d.add cb).1)) =
      (d.registrations held).enter cb.fn cb.toEventFilter := by
  simp [registrations, add, Roster.enter]

/-- Removing one drops what is under its id. -/
theorem remove_registrations (id : ObserverId) :
    (d.remove id).registrations held = (d.registrations held).drop id := by
  simp [registrations, remove, Roster.drop, List.filter_map,
    Function.comp_def]

/-- Clearing starts the numbers anew. -/
theorem clear_registrations (keeps : σ → Bool) :
    d.clear.registrations (fun owner => if keeps owner then held owner else none) =
      (d.registrations held).restart keeps := rfl

end ObserverDispatch

end VortarisECS
