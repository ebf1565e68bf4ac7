import VortarisECS.Core.IterationSafety
import Mathlib.Data.Finset.Basic
import Mathlib.Data.Finset.Lattice.Lemmas

/-!
# Observers and their membership

An observer hears of the events its mask and its filters let through.  At an
added or removed component it looks whether the entity entered or left the set
of entities with its match components, and what it delivers goes to a callback.
The callback leaves the world and the command buffer alone, so that the flush
after a delivery finds nothing to do.
-/

namespace VortarisECS

namespace Observer

/-- The kinds of events a callback is told of. -/
inductive Event
  | added
  | removed
  | changed
  | matched
  | unmatched
  | custom
  deriving DecidableEq, Repr

/-- The bit of an event in the mask of an observer. -/
def Event.eventBit : Event → UInt32
  | added => 1
  | removed => 2
  | changed => 4
  | matched => 8
  | unmatched => 16
  | custom => 32

/-- One call of the callback. -/
structure Delivery where
  event : Event
  entity : Entity
  deriving DecidableEq, Repr

end Observer

open Observer (Event Delivery)

/-- The configuration of an observer and what it remembers. -/
structure Observer where
  eventMask : UInt32 := 0
  componentFilter : List ComponentTypeId := []
  fieldFilter : List String := []
  throttleTick : Int64 := 0
  lastEmitTick : Int64 := -1
  matchQuery : List ComponentTypeId := []
  customName : String := ""
  membership : Finset Entity := ∅
  deriving DecidableEq

/-- The switch at the start of `handle_event`. -/
def ObserverEventType.event : ObserverEventType → Event
  | added => .added
  | changed => .changed
  | removed => .removed
  | custom => .custom

namespace Observer

/-- The observer asks for entities that begin or cease to match. -/
def hasMatchEvents (o : Observer) : Bool :=
  o.eventMask &&& (Event.matched.eventBit ||| Event.unmatched.eventBit) != 0

/-- The filter of `dispatch`, for the callback that `add_observer` registers. -/
def hears (o : Observer) (type : ObserverEventType) (comp : ComponentTypeId)
    (name : String) : Bool :=
  o.eventMask &&& type.event.eventBit != 0 &&
    match type with
    | .custom => o.customName.isEmpty || o.customName == name
    | _ => o.componentFilter.isEmpty ||
        comp != 0 && o.componentFilter.contains comp

/-- The throttle reads the change tick as a signed number. -/
def clock (seen : World) : Int64 := Int64.ofNat seen.changeTick

/-- Deliver an event, unless the field filter or the throttle of changed events
holds it back. -/
def handleEvent (o : Observer) (seen : World) (event : Event) (e : Entity)
    (name : String) : Traced Delivery Observer :=
  if event = .changed ∧ o.fieldFilter ≠ [] ∧
      (name.isEmpty ∨ name ∉ o.fieldFilter) then .pure o
  else if event = .changed ∧ 0 < o.throttleTick then
    if 0 ≤ o.lastEmitTick ∧ clock seen - o.lastEmitTick < o.throttleTick then
      .pure o
    else ⟨{ o with lastEmitTick := clock seen }, [⟨event, e⟩]⟩
  else ⟨o, [⟨event, e⟩]⟩

/-- Compare an entity with the query, and deliver a match that begins or
ceases. -/
def evaluateMatch (o : Observer) (seen : World) (e : Entity) :
    Traced Delivery Observer :=
  if o.matchQuery.isEmpty then .pure o
  else
    let matching := o.matchQuery.all fun t => seen.has e t
    if matching ∧ e ∉ o.membership then
      { o with membership := insert e o.membership }.handleEvent seen .matched
        e ""
    else if ¬matching ∧ e ∈ o.membership then
      { o with membership := o.membership.erase e }.handleEvent seen .unmatched
        e ""
    else .pure o

/-- One row of the loops of `seed_membership`. -/
def seedRow (seen : World) (o : Observer) (e : Entity) :
    Traced Delivery Observer :=
  if e ∈ o.membership then .pure o
  else
    { o with membership := insert e o.membership }.handleEvent seen .matched
      e ""

/-- What the registered callback does with an effect of an operation. -/
def onEffect (o : Observer) : Effect → Traced Delivery Observer
  | .dispatched type e comp name seen =>
      if o.hears type comp name then
        (o.handleEvent seen type.event e name).andThen fun o =>
          if (type = .added ∨ type = .removed) ∧ o.hasMatchEvents then
            o.evaluateMatch seen e
          else .pure o
      else .pure o
  | _ => .pure o

end Observer

/-! ## Observed worlds -/

/-- A world with an observer registered. -/
structure Observed where
  world : World
  observer : Observer

namespace Observed

/-- Every entity that matches when the observer is added has begun to match. -/
def seedMembership (w : World) (o : Observer) : Traced Delivery Observed :=
  if o.matchQuery.isEmpty then .pure ⟨w, o⟩
  else
    let (arches, w) := w.matchQuery (.ofComponents o.matchQuery)
    let seeded := Traced.forEach (Observer.seedRow w) o
      (arches.flatMap fun a => (w.store.deref a).entities)
    ⟨⟨w, seeded.state⟩, seeded.effects⟩

/-- Add an observer; one that asks for no matches is not seeded. -/
def addObserver (w : World) (o : Observer) : Traced Delivery Observed :=
  if o.hasMatchEvents then seedMembership w o else .pure ⟨w, o⟩

/-- An operation of the world; the observer hears of the events it dispatches. -/
def apply (registry : ComponentRegistry) (observed : Observed) (op : WorldOp) :
    Traced Delivery Observed :=
  let step := op.apply registry observed.world
  let heard := Traced.forEach Observer.onEffect observed.observer step.effects
  ⟨⟨step.state, heard.state⟩, heard.effects⟩

/-- The operations after the registration of an observer. -/
def run (registry : ComponentRegistry) (w : World) (o : Observer)
    (ops : List WorldOp) : Traced Delivery Observed :=
  (addObserver w o).andThen fun observed =>
    Traced.forEach (apply registry) observed ops

end Observed

/-- The entity is alive and has all the components. -/
def World.hasAll (w : World) (ids : List ComponentTypeId) (e : Entity) : Bool :=
  w.isAlive e && ids.all fun t => w.has e t

namespace Observer

/-- The event is the beginning or the end of a match. -/
def Event.ofMembership (event : Event) : Bool :=
  event == .matched || event == .unmatched

/-- The membership events an entity received. -/
def received (e : Entity) (deliveries : List Delivery) : List Event :=
  (deliveries.filter fun d =>
    d.entity == e && d.event.ofMembership).map Delivery.event

/-- One event for each entry into a set and each exit, for an entity that is in
or out at successive moments. -/
def crossings (inside : Bool) : List Bool → List Event
  | [] => []
  | now :: later =>
      if now = inside then crossings inside later
      else (if now then .matched else .unmatched) :: crossings now later

end Observer

/-- After each operation the membership is the set of entities with all match
components, and each entity received one event for each entry into this set and
each exit, counted from what the observer held when it was registered. -/
def Observed.Follows (registry : ComponentRegistry) (w : World) (o : Observer)
    (ops : List WorldOp) : Prop :=
  ∀ n ≤ ops.length, ∀ e,
    let at' := fun k => run registry w o (ops.take k)
    (e ∈ (at' n).state.observer.membership ↔
      (at' n).state.world.hasAll o.matchQuery e = true) ∧
    Observer.received e (at' n).effects =
      Observer.crossings (decide (e ∈ o.membership))
        ((List.range (n + 1)).map fun k =>
          (at' k).state.world.hasAll o.matchQuery e)

variable {registry : ComponentRegistry} {w : World} {o : Observer}

/-! ## Deliveries alternate -/

namespace Observer

/-- What successive membership events make of a membership, if they alternate. -/
def toggle (inside : Bool) : List Event → Option Bool
  | [] => some inside
  | .matched :: later => if inside then none else toggle true later
  | .unmatched :: later => if inside then toggle false later else none
  | _ :: later => toggle inside later

/-- Crossings are counted one after the other. -/
theorem toggle_append (inside : Bool) (first second : List Event) :
    toggle inside (first ++ second) =
      (toggle inside first).bind fun now => toggle now second := by
  induction first generalizing inside with
  | nil => rfl
  | cons event first inductionHypothesis =>
      cases event <;> cases inside <;>
        simp [toggle, inductionHypothesis]

@[simp] theorem received_nil (e : Entity) : received e [] = [] := rfl

@[simp] theorem received_append (e : Entity) (first second : List Delivery) :
    received e (first ++ second) = received e first ++ received e second := by
  simp [received]

/-- What an entity is told by the first delivery, and by the others. -/
theorem received_cons (e : Entity) (d : Delivery) (later : List Delivery) :
    received e (d :: later) =
      (if d.entity = e ∧ d.event.ofMembership = true then [d.event] else []) ++
        received e later := by
  by_cases own : d.entity = e ∧ d.event.ofMembership = true
  · simp [received, own]
  · simp [received, own]

/-- The membership events of each entity alternate and lead from one membership
to the other. -/
def Alternates (held : σ → Finset Entity) (state : σ)
    (heard : Traced Delivery σ) : Prop :=
  ∀ e, toggle (decide (e ∈ held state)) (received e heard.effects) =
    some (decide (e ∈ held heard.state))

/-- Deliveries of two steps alternate if those of each do. -/
theorem Alternates.andThen
    {held : σ → Finset Entity} {state : σ} {heard : Traced Delivery σ}
    {next : σ → Traced Delivery σ}
    (first : Alternates held state heard)
    (second : Alternates held heard.state (next heard.state)) :
    Alternates held state (heard.andThen next) := by
  intro e
  rw [Traced.andThen_effects, received_append, toggle_append, first e]
  exact second e

/-- Deliveries for many items alternate. -/
theorem Alternates.forEach
    {held : σ → Finset Entity} {step : σ → α → Traced Delivery σ}
    (alternates : ∀ state item, Alternates held state (step state item))
    (state : σ) (items : List α) :
    Alternates held state (Traced.forEach step state items) := by
  induction items generalizing state with
  | nil => exact fun _ => rfl
  | cons item items inductionHypothesis =>
      exact (alternates state item).andThen (inductionHypothesis _)

/-- A membership event is delivered whatever the filters. -/
theorem handleEvent_ofMembership
    {event : Event} (isMembership : event.ofMembership = true) (seen : World)
    (e : Entity) (name : String) :
    o.handleEvent seen event e name = ⟨o, [⟨event, e⟩]⟩ := by
  have other : event ≠ .changed := by
    rintro rfl
    exact absurd isMembership (by decide)
  unfold handleEvent
  rw [if_neg fun h => other h.1, if_neg fun h => other h.1]

/-- Another event leaves the membership alone, whether it is delivered or not. -/
theorem handleEvent_eq
    (o : Observer) (seen : World) (event : Event) (e : Entity) (name : String) :
    (o.handleEvent seen event e name).state.membership = o.membership ∧
      ((o.handleEvent seen event e name).effects = [] ∨
        (o.handleEvent seen event e name).effects = [⟨event, e⟩]) := by
  unfold handleEvent
  by_cases skipped : event = .changed ∧ o.fieldFilter ≠ [] ∧
      (name.isEmpty ∨ name ∉ o.fieldFilter)
  · rw [if_pos skipped]
    exact ⟨rfl, Or.inl rfl⟩
  · rw [if_neg skipped]
    by_cases throttled : event = .changed ∧ 0 < o.throttleTick
    · rw [if_pos throttled]
      split_ifs
      · exact ⟨rfl, Or.inl rfl⟩
      · exact ⟨rfl, Or.inr rfl⟩
    · rw [if_neg throttled]
      exact ⟨rfl, Or.inr rfl⟩

/-- Other events are no crossings. -/
theorem handleEvent_alternates
    (seen : World) {event : Event} (other : event.ofMembership = false)
    (e : Entity) (name : String) :
    Alternates membership o (o.handleEvent seen event e name) := by
  obtain ⟨unchanged, delivered⟩ := handleEvent_eq o seen event e name
  have ignored : ∀ x, received x [⟨event, e⟩] = [] := by
    intro x
    rw [received_cons, other]
    simp
  intro x
  rw [unchanged]
  obtain none | one := delivered
  · rw [none]
    rfl
  · rw [one, ignored]
    rfl

/-- An entity that begins to match was out before. -/
theorem enter_alternates (seen : World) {e : Entity} (out : e ∉ o.membership) :
    Alternates membership o ({ o with membership := insert e o.membership }.handleEvent
      seen .matched e "") := by
  intro x
  rw [handleEvent_ofMembership rfl]
  dsimp only
  rw [received_cons]
  by_cases same : e = x
  · subst same
    simp [toggle, out, Event.ofMembership]
  · simp [toggle, same, Ne.symm same]

/-- One that ceases to match was in. -/
theorem leave_alternates (seen : World) {e : Entity} (within : e ∈ o.membership) :
    Alternates membership o ({ o with membership := o.membership.erase e }.handleEvent
      seen .unmatched e "") := by
  intro x
  rw [handleEvent_ofMembership rfl]
  dsimp only
  rw [received_cons]
  by_cases same : e = x
  · subst same
    simp [toggle, within, Event.ofMembership]
  · simp [toggle, same, Ne.symm same]

/-- A comparison delivers a crossing or nothing. -/
theorem evaluateMatch_alternates (seen : World) (e : Entity) :
    Alternates membership o (o.evaluateMatch seen e) := by
  unfold evaluateMatch
  split
  · exact fun _ => rfl
  · dsimp only
    split
    · exact enter_alternates seen (by rename_i entering; exact entering.2)
    · split
      · exact leave_alternates seen (by rename_i leaving; exact leaving.2)
      · exact fun _ => rfl

/-- Seeding delivers the beginning of every match. -/
theorem seedRow_alternates (seen : World) (o : Observer) (e : Entity) :
    Alternates membership o (o.seedRow seen e) := by
  unfold seedRow
  split
  · exact fun _ => rfl
  · exact enter_alternates seen ‹_›

theorem ObserverEventType.event_other (type : ObserverEventType) :
    type.event.ofMembership = false := by
  cases type <;> rfl

/-- An effect delivers crossings only where there are any. -/
theorem onEffect_alternates (o : Observer) (effect : Effect) :
    Alternates membership o (o.onEffect effect) := by
  cases effect with
  | dispatched type e comp name seen =>
      dsimp only [onEffect]
      by_cases hears : o.hears type comp name = true
      · rw [if_pos hears]
        refine (handleEvent_alternates seen
          (ObserverEventType.event_other type) e name).andThen ?_
        split
        · exact evaluateMatch_alternates seen e
        · exact fun _ => rfl
      · rw [if_neg hears]
        exact fun _ => rfl
  | issued e before => exact fun _ => rfl
  | adopted e before => exact fun _ => rfl
  | wrote e comp => exact fun _ => rfl
  | moved e => exact fun _ => rfl
  | ranCustomCommand id data => exact fun _ => rfl

end Observer

namespace Observed

/-- The deliveries of adding an observer alternate. -/
theorem addObserver_alternates (w : World) (o : Observer) :
    Observer.Alternates (fun observed => observed.observer.membership) ⟨w, o⟩
      (addObserver w o) := by
  unfold addObserver
  split
  · unfold seedMembership
    split
    · exact fun _ => rfl
    · exact Observer.Alternates.forEach (Observer.seedRow_alternates _) o _
  · exact fun _ => rfl

/-- So do those of an operation. -/
theorem apply_alternates (observed : Observed) (op : WorldOp) :
    Observer.Alternates (fun observed => observed.observer.membership) observed
      (apply registry observed op) :=
  Observer.Alternates.forEach Observer.onEffect_alternates observed.observer _

/-- In every run, whatever the observer listens to, the membership events of each
entity alternate, and its membership is what the last one left. -/
theorem run_alternates
    (registry : ComponentRegistry) (w : World) (o : Observer)
    (ops : List WorldOp) :
    Observer.Alternates (fun observed => observed.observer.membership) ⟨w, o⟩
      (run registry w o ops) :=
  (addObserver_alternates w o).andThen
    (Observer.Alternates.forEach apply_alternates _ ops)

end Observed

/-! ## An observer of memberships alone -/

namespace Observer

/-- It listens to membership events and to nothing else. -/
def MembershipOnly (o : Observer) : Prop :=
  o.eventMask = Event.matched.eventBit ||| Event.unmatched.eventBit

/-- An observer for matches hears no other event. -/
theorem MembershipOnly.deaf
    (only : o.MembershipOnly) (type : ObserverEventType) (comp : ComponentTypeId)
    (name : String) : o.hears type comp name = false := by
  unfold hears
  rw [only]
  cases type <;> rfl

theorem MembershipOnly.hasMatchEvents (only : o.MembershipOnly) :
    o.hasMatchEvents = true := by
  unfold Observer.hasMatchEvents
  rw [only]
  decide

/-- So no effect reaches it. -/
theorem MembershipOnly.onEffect (only : o.MembershipOnly) (effect : Effect) :
    o.onEffect effect = .pure o := by
  cases effect with
  | dispatched type e comp name seen =>
      dsimp only [Observer.onEffect]
      rw [only.deaf]
      rfl
  | issued e before => rfl
  | adopted e before => rfl
  | wrote e comp => rfl
  | moved e => rfl
  | ranCustomCommand id data => rfl

theorem MembershipOnly.forEach_onEffect
    (only : o.MembershipOnly) (effects : List Effect) :
    Traced.forEach Observer.onEffect o effects = .pure o := by
  induction effects with
  | nil => rfl
  | cons effect effects inductionHypothesis =>
      rw [Traced.forEach_cons, only.onEffect, Traced.pure_andThen]
      exact inductionHypothesis

/-- Seeding puts an entity among the members. -/
theorem seedRow_eq (seen : World) (o : Observer) (e : Entity) :
    o.seedRow seen e = ⟨{ o with membership := insert e o.membership },
      if e ∈ o.membership then [] else [⟨.matched, e⟩]⟩ := by
  unfold seedRow
  by_cases held : e ∈ o.membership
  · rw [if_pos held, if_pos held, Finset.insert_eq_of_mem held]
    rfl
  · rw [if_neg held, if_neg held]
    exact handleEvent_ofMembership rfl seen e ""

/-- The rows become members. -/
theorem forEach_seedRow_state (seen : World) (o : Observer) (rows : List Entity) :
    (Traced.forEach (seedRow seen) o rows).state =
      { o with membership := o.membership ∪ rows.toFinset } := by
  induction rows generalizing o with
  | nil =>
      rw [List.toFinset_nil, Finset.union_empty]
      rfl
  | cons row rows inductionHypothesis =>
      rw [Traced.forEach_cons, Traced.andThen_state, seedRow_eq,
        inductionHypothesis, List.toFinset_cons, Finset.insert_union,
        Finset.union_insert]

/-- The rows that were none get one event each. -/
theorem received_forEach_seedRow
    (seen : World) (o : Observer) (rows : List Entity) (e : Entity) :
    received e (Traced.forEach (seedRow seen) o rows).effects =
      if e ∈ rows ∧ e ∉ o.membership then [Event.matched] else [] := by
  induction rows generalizing o with
  | nil => simp
  | cons row rows inductionHypothesis =>
      rw [Traced.forEach_cons, Traced.andThen_effects, received_append,
        seedRow_eq, inductionHypothesis]
      by_cases same : e = row
      · subst same
        by_cases held : e ∈ o.membership
        · simp [held]
        · simp [held, received, Event.ofMembership]
      · by_cases held : row ∈ o.membership
        · simp [held, same]
        · simp [held, same, Ne.symm same, received]

end Observer

namespace Observed

/-- An operation leaves an observer for matches as it is. -/
theorem apply_membershipOnly
    (only : o.MembershipOnly) (w : World) (op : WorldOp) :
    apply registry ⟨w, o⟩ op = .pure ⟨(op.apply registry w).state, o⟩ := by
  unfold apply
  dsimp only
  rw [only.forEach_onEffect]
  rfl

/-- So does a run. -/
theorem forEach_membershipOnly
    (only : o.MembershipOnly) (w : World) (ops : List WorldOp) :
    Traced.forEach (apply registry) ⟨w, o⟩ ops =
      .pure ⟨(Traced.forEach (WorldOp.apply registry) w ops).state, o⟩ := by
  induction ops generalizing w with
  | nil => rfl
  | cons op ops inductionHypothesis =>
      rw [Traced.forEach_cons, apply_membershipOnly only, Traced.pure_andThen]
      exact inductionHypothesis _

/-- The registration takes in the entities with all match components. -/
theorem addObserver_membershipOnly
    (only : o.MembershipOnly) (asks : o.matchQuery ≠ [])
    (consistent : w.store.Consistent registry) :
    ∃ members : Finset Entity,
      (addObserver w o).state =
          ⟨(w.matchQuery (.ofComponents o.matchQuery)).2,
            { o with membership := members }⟩ ∧
        ∀ e, (e ∈ members ↔
            e ∈ o.membership ∨ w.hasAll o.matchQuery e = true) ∧
          Observer.received e (addObserver w o).effects =
            if w.hasAll o.matchQuery e = true ∧ e ∉ o.membership then
              [Event.matched]
            else [] := by
  have some : o.matchQuery.isEmpty = false := List.isEmpty_eq_false_iff.mpr asks
  obtain ⟨_, spec⟩ := World.matchedEntities_spec consistent o.matchQuery
  have rows : ((w.matchQuery (.ofComponents o.matchQuery)).1.flatMap fun a =>
      (w.store.deref a).entities) =
        w.matchedEntities (.ofComponents o.matchQuery) := by
    unfold World.matchedEntities
    rw [← QueryCache.matchQuery_archetypes consistent.cached]
    rfl
  have member : ∀ e, e ∈ w.matchedEntities (.ofComponents o.matchQuery) ↔
      w.hasAll o.matchQuery e = true := by
    intro e
    rw [spec, World.hasAll, Bool.and_eq_true, List.all_eq_true]
  refine ⟨o.membership ∪
    (w.matchedEntities (.ofComponents o.matchQuery)).toFinset, ?_, fun e =>
      ⟨?_, ?_⟩⟩
  · unfold addObserver seedMembership
    rw [if_pos only.hasMatchEvents, some, if_neg Bool.false_ne_true, ← rows]
    exact congrArg (Observed.mk _) (Observer.forEach_seedRow_state _ o _)
  · rw [Finset.mem_union, List.mem_toFinset, member]
  · unfold addObserver seedMembership
    rw [if_pos only.hasMatchEvents, some, if_neg Bool.false_ne_true]
    refine (Observer.received_forEach_seedRow _ o _ e).trans ?_
    simp only [← member e, ← rows]
    rfl

/-- The world of the run, which the observer does not disturb. -/
def worldAfter (registry : ComponentRegistry) (w : World) (o : Observer)
    (ops : List WorldOp) : World :=
  (Traced.forEach (WorldOp.apply registry)
    (w.matchQuery (.ofComponents o.matchQuery)).2 ops).state

/-- Repeating a state crosses at most once. -/
theorem crossings_replicate (inside now : Bool) (count : Nat) :
    Observer.crossings inside (List.replicate (count + 1) now) =
      if now = inside then [] else [if now then .matched else .unmatched] := by
  have still : ∀ count, Observer.crossings now (List.replicate count now) = [] := by
    intro count
    induction count with
    | zero => rfl
    | succ count inductionHypothesis =>
        rw [List.replicate_succ, Observer.crossings, if_pos rfl,
          inductionHypothesis]
  rw [List.replicate_succ, Observer.crossings]
  split
  · rename_i same
    rw [← same, still]
  · rw [still]

/-- An observer of memberships alone follows the world exactly if what it held
has the match components when it is registered, and no operation lets an entity
enter or leave the set of those that have. -/
theorem follows_iff
    (consistent : w.store.Consistent registry) (only : o.MembershipOnly)
    (asks : o.matchQuery ≠ []) (ops : List WorldOp) :
    Follows registry w o ops ↔
      (∀ e ∈ o.membership, w.hasAll o.matchQuery e = true) ∧
      ∀ n ≤ ops.length, ∀ e,
        (worldAfter registry w o (ops.take n)).hasAll o.matchQuery e =
          w.hasAll o.matchQuery e := by
  obtain ⟨members, registered, spec⟩ :=
    addObserver_membershipOnly only asks consistent
  have ran : ∀ ops, run registry w o ops =
      ⟨⟨worldAfter registry w o ops, { o with membership := members }⟩,
        (addObserver w o).effects⟩ := by
    intro ops
    have still : ({ o with membership := members } : Observer).MembershipOnly :=
      only
    unfold run Traced.andThen
    rw [registered]
    dsimp only
    rw [forEach_membershipOnly still]
    exact congrArg (Traced.mk _) (List.append_nil _)
  unfold Follows
  dsimp only
  simp only [ran]
  constructor
  · intro follows
    have start : ∀ e, e ∈ members ↔ w.hasAll o.matchQuery e = true :=
      fun e => (follows 0 (Nat.zero_le _) e).1
    refine ⟨fun e held => (start e).mp ((spec e).1.mpr (Or.inl held)),
      fun n bound e => ?_⟩
    rw [Bool.eq_iff_iff, ← start e]
    exact ((follows n bound e).1).symm
  · rintro ⟨within, still⟩ n bound e
    have joins : e ∈ members ↔ w.hasAll o.matchQuery e = true :=
      (spec e).1.trans (or_iff_right_of_imp (within e))
    have constant : ((List.range (n + 1)).map fun k =>
        (worldAfter registry w o (ops.take k)).hasAll o.matchQuery e) =
          List.replicate (n + 1) (w.hasAll o.matchQuery e) := by
      rw [List.map_eq_replicate_iff.mpr, List.length_range]
      intro k member
      exact still k (by rw [List.mem_range] at member; omega) e
    rw [still n bound, constant, crossings_replicate, (spec e).2]
    refine ⟨joins, ?_⟩
    by_cases held : e ∈ o.membership
    · simp [held, within e held]
    · cases w.hasAll o.matchQuery e <;> simp [held]

/-- The same in a world that no creation handed a live id of. -/
theorem run_follows_iff
    (uses : List WorldUse)
    (issuesDead : Traced.Accepted Effect.IssuesDead (WorldUse.run registry uses))
    (only : o.MembershipOnly) (asks : o.matchQuery ≠ []) (ops : List WorldOp) :
    let w := (WorldUse.run registry uses).state
    (Follows registry w o ops ↔
      (∀ e ∈ o.membership, w.hasAll o.matchQuery e = true) ∧
      ∀ n ≤ ops.length, ∀ e,
        (worldAfter registry w o (ops.take n)).hasAll o.matchQuery e =
          w.hasAll o.matchQuery e) :=
  follows_iff (WorldUse.forEach_kept (World.empty_stable registry) rfl
    issuesDead).1.consistent only asks ops

/-- An entity with the match component is there already, and another component
is added to it. -/
theorem run_follows_mana :
    let registry := ComponentRegistry.manaRegistry
    let w := (WorldUse.run registry [.operate .createEntity,
      .operate (.addRaw ⟨1⟩ 1 (some [7]))]).state
    let o : Observer := { eventMask := 24, matchQuery := [1] }
    let ops : List WorldOp := [.addRaw ⟨1⟩ 2 none]
    (Follows registry w o ops ↔
      (∀ e ∈ o.membership, w.hasAll o.matchQuery e = true) ∧
      ∀ n ≤ ops.length, ∀ e,
        (worldAfter registry w o (ops.take n)).hasAll o.matchQuery e =
          w.hasAll o.matchQuery e) := by
  intro registry w o ops
  exact run_follows_iff _ (by decide +kernel) (by rfl) (by decide) ops

/-- The observer of an empty world never hears that an entity gets the match
component. -/
theorem not_follows_mana :
    ¬Follows ComponentRegistry.manaRegistry
      (World.empty ComponentRegistry.manaRegistry)
      { eventMask := 24, matchQuery := [1] }
      [.createEntity, .addRaw ⟨1⟩ 1 (some [7])] := by
  intro follows
  have entered := (follows 2 (le_refl _) ⟨1⟩).1
  revert entered
  decide +kernel

end Observed
end VortarisECS
