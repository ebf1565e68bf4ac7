import VortarisECS.Core.Reports
import VortarisECS.Network.Delta

/-!
# Tracking

What the events of a change teach the sending side.  Whatever their order is,
exactly the entities with a networked component end up tracked, new ones with a
pending spawn and lost ones with a pending despawn, and components that a tracked
entity gained end up dirty.
-/

namespace VortarisECS
namespace Replication

variable {registry : ComponentRegistry} {r r' : Replication}
variable {e x : Entity} {t u : ComponentTypeId}

/-! ## The dirty sets -/

/-- A mark is one of its entity. -/
theorem dirtyOf_markDirty (r : Replication) (e x : Entity)
    (t : ComponentTypeId) :
    (r.markDirty e t).dirtyOf x =
      if x = e then (r.dirtyOf e).insert t else r.dirtyOf x := by
  unfold markDirty dirtyOf
  split
  · rename_i same
    rw [same, AList.lookup_insert]
    rfl
  · rename_i other
    rw [AList.lookup_insert_ne other]

/-- Clearing removes the mark of its entity. -/
theorem dirtyOf_clearDirty (r : Replication) (e x : Entity)
    (t : ComponentTypeId) :
    (r.clearDirty e t).dirtyOf x =
      if x = e then (r.dirtyOf e).filter (· ≠ t) else r.dirtyOf x := by
  unfold clearDirty dirtyOf
  cases found : r.dirty.lookup e with
  | none =>
      dsimp only
      split
      · rename_i same
        rw [same, found]
        rfl
      · rfl
  | some types =>
      dsimp only
      split
      · rename_i same
        rw [same, AList.lookup_insert]
        rfl
      · rename_i other
        rw [AList.lookup_insert_ne other]

/-- An entity that is forgotten has no marks. -/
theorem dirtyOf_untrack (r : Replication) (e x : Entity) :
    (r.untrack e).dirtyOf x = if x = e then [] else r.dirtyOf x := by
  unfold untrack dirtyOf
  split
  · rename_i same
    rw [same, AList.lookup_erase]
    rfl
  · rename_i other
    rw [AList.lookup_erase_ne other]

@[simp] theorem clearDirty_tracked (r : Replication) (e : Entity)
    (t : ComponentTypeId) : (r.clearDirty e t).tracked = r.tracked := by
  unfold clearDirty
  split <;> rfl

@[simp] theorem clearDirty_pendingSpawn (r : Replication) (e : Entity)
    (t : ComponentTypeId) :
    (r.clearDirty e t).pendingSpawn = r.pendingSpawn := by
  unfold clearDirty
  split <;> rfl

@[simp] theorem clearDirty_pendingDespawn (r : Replication) (e : Entity)
    (t : ComponentTypeId) :
    (r.clearDirty e t).pendingDespawn = r.pendingDespawn := by
  unfold clearDirty
  split <;> rfl

@[simp] theorem clearDirty_nextSendTick (r : Replication) (e : Entity)
    (t : ComponentTypeId) :
    (r.clearDirty e t).nextSendTick = r.nextSendTick := by
  unfold clearDirty
  split <;> rfl

/-! ## One event -/

/-- The sending side knows the same about an entity. -/
structure SameAt (x : Entity) (r r' : Replication) : Prop where
  tracked : x ∈ r'.tracked ↔ x ∈ r.tracked
  pendingSpawn : x ∈ r'.pendingSpawn ↔ x ∈ r.pendingSpawn
  pendingDespawn : x ∈ r'.pendingDespawn ↔ x ∈ r.pendingDespawn
  dirtyOf : r'.dirtyOf x = r.dirtyOf x

theorem SameAt.refl (x : Entity) (r : Replication) : SameAt x r r :=
  ⟨Iff.rfl, Iff.rfl, Iff.rfl, rfl⟩

/-- Two steps leave an entity as it is. -/
theorem SameAt.trans {r'' : Replication}
    (first : SameAt x r r') (second : SameAt x r' r'') : SameAt x r r'' where
  tracked := second.tracked.trans first.tracked
  pendingSpawn := second.pendingSpawn.trans first.pendingSpawn
  pendingDespawn := second.pendingDespawn.trans first.pendingDespawn
  dirtyOf := second.dirtyOf.trans first.dirtyOf

/-- A mark leaves other entities as they are. -/
theorem markDirty_sameAt (other : x ≠ e) : SameAt x r (r.markDirty e t) :=
  ⟨Iff.rfl, Iff.rfl, Iff.rfl, by rw [dirtyOf_markDirty, if_neg other]⟩

/-- Tracking leaves other entities as they are. -/
theorem track_sameAt (other : x ≠ e) : SameAt x r (r.track e) where
  tracked := List.mem_insert_iff.trans (or_iff_right other)
  pendingSpawn := List.mem_insert_iff.trans (or_iff_right other)
  pendingDespawn := Iff.rfl
  dirtyOf := rfl

theorem clearDirty_sameAt (other : x ≠ e) : SameAt x r (r.clearDirty e t) := by
  constructor
  · rw [clearDirty_tracked]
  · rw [clearDirty_pendingSpawn]
  · rw [clearDirty_pendingDespawn]
  · rw [dirtyOf_clearDirty, if_neg other]

/-- Forgetting leaves other entities as they are. -/
theorem untrack_sameAt (other : x ≠ e) : SameAt x r (r.untrack e) where
  tracked := by
    unfold untrack
    dsimp only
    rw [List.mem_filter, decide_eq_true other, and_iff_left rfl]
  pendingSpawn := Iff.rfl
  pendingDespawn := List.mem_insert_iff.trans (or_iff_right other)
  dirtyOf := by rw [dirtyOf_untrack, if_neg other]

/-- An event about an entity teaches nothing about others. -/
theorem onWorldEvent_sameAt
    {types : List ComponentTypeId} {effect : Effect}
    (about : effect.IsAbout e types) (other : x ≠ e) (r : Replication) :
    SameAt x r (r.onWorldEvent registry effect) := by
  cases effect with
  | dispatched type y t name seen =>
      cases type with
      | added =>
          obtain ⟨rfl, _⟩ := about
          dsimp only [onWorldEvent, onEntityComponentAdded]
          split
          · exact .refl x r
          · split
            · exact markDirty_sameAt other
            · exact track_sameAt other
      | changed =>
          obtain ⟨rfl, _⟩ := about
          dsimp only [onWorldEvent, onEntityComponentChanged]
          split
          · exact .refl x r
          · split
            · exact markDirty_sameAt other
            · exact .refl x r
      | removed =>
          obtain ⟨rfl, _⟩ := about
          dsimp only [onWorldEvent, onEntityComponentRemoved]
          split
          · exact .refl x r
          · split
            · split
              · exact clearDirty_sameAt other
              · exact (clearDirty_sameAt other).trans (untrack_sameAt other)
            · exact clearDirty_sameAt other
      | custom => exact about.elim
  | _ => exact .refl x r

/-- Events about one entity leave the others as they are. -/
theorem onWorldEvents_sameAt
    {types : List ComponentTypeId} {effects : List Effect}
    (about : ∀ effect ∈ effects, effect.IsAbout e types) (other : x ≠ e)
    (r : Replication) : SameAt x r (r.onWorldEvents registry effects) := by
  induction effects generalizing r with
  | nil => exact .refl x r
  | cons effect effects inductionHypothesis =>
      exact (onWorldEvent_sameAt (about effect List.mem_cons_self) other r).trans
        (inductionHypothesis
          (fun later member => about later (List.mem_cons_of_mem _ member)) _)

/-- Another hash order has the same marks. -/
theorem rehash_dirtyOf_perm
    (r : Replication) (order : List Entity)
    (typeOrder : Entity → List ComponentTypeId) (e : Entity) :
    ((r.rehash order typeOrder).dirtyOf e).Perm (r.dirtyOf e) := by
  unfold rehash dirtyOf
  dsimp only
  rw [AList.lookup_mapValues, AList.lookup_rearrange]
  cases r.dirty.lookup e with
  | none => exact List.Perm.refl _
  | some types => exact List.perm_insertionSort _ _

/-- The dirty sets stay sets. -/
theorem onWorldEvent_dirtySets (sets : r.DirtySets) (effect : Effect) :
    (r.onWorldEvent registry effect).DirtySets := by
  have marked : ∀ e t, (r.markDirty e t).DirtySets := by
    intro e t x
    rw [dirtyOf_markDirty]
    split
    · exact (sets e).insert
    · exact sets x
  have cleared : ∀ e t, (r.clearDirty e t).DirtySets := by
    intro e t x
    rw [dirtyOf_clearDirty]
    split
    · exact (sets e).filter _
    · exact sets x
  cases effect with
  | dispatched type e t name seen =>
      cases type with
      | added =>
          dsimp only [onWorldEvent, onEntityComponentAdded]
          split
          · exact sets
          · split
            · exact marked e t
            · exact sets
      | changed =>
          dsimp only [onWorldEvent, onEntityComponentChanged]
          split
          · exact sets
          · split
            · exact marked e t
            · exact sets
      | removed =>
          dsimp only [onWorldEvent, onEntityComponentRemoved]
          split
          · exact sets
          · split
            · split
              · exact cleared e t
              · intro x
                rw [dirtyOf_untrack]
                split
                · exact List.nodup_nil
                · exact cleared e t x
            · exact cleared e t
      | custom =>
          dsimp only [onWorldEvent]
          split
          · exact fun _ => List.nodup_nil
          · exact sets
  | _ => exact sets

/-- Events keep dirty components a set. -/
theorem onWorldEvents_dirtySets (sets : r.DirtySets) (effects : List Effect) :
    (r.onWorldEvents registry effects).DirtySets := by
  induction effects generalizing r with
  | nil => exact sets
  | cons effect effects inductionHypothesis =>
      exact inductionHypothesis (onWorldEvent_dirtySets sets effect)

/-! ## One change -/

/-- The effects contain an event about a networked component. -/
def HasNetworkedEvent (registry : ComponentRegistry) (effects : List Effect)
    (type : ObserverEventType) (e : Entity) : Prop :=
  ∃ t, isNetworked registry t = true ∧ HasEvent effects type e t

/-- An event is the first, or one of the others. -/
theorem hasEvent_cons (effect : Effect) (effects : List Effect)
    (type : ObserverEventType) :
    HasEvent (effect :: effects) type e t ↔
      HasEvent [effect] type e t ∨ HasEvent effects type e t := by
  constructor
  · rintro ⟨name, seen, member⟩
    obtain rfl | member := List.mem_cons.mp member
    · exact Or.inl ⟨name, seen, List.mem_singleton_self _⟩
    · exact Or.inr ⟨name, seen, member⟩
  · rintro (⟨name, seen, member⟩ | ⟨name, seen, member⟩)
    · exact ⟨name, seen, List.mem_cons.mpr (Or.inl (List.mem_singleton.mp
        member))⟩
    · exact ⟨name, seen, List.mem_cons_of_mem _ member⟩

theorem hasNetworkedEvent_cons (effect : Effect) (effects : List Effect)
    (type : ObserverEventType) :
    HasNetworkedEvent registry (effect :: effects) type e ↔
      HasNetworkedEvent registry [effect] type e ∨
        HasNetworkedEvent registry effects type e := by
  unfold HasNetworkedEvent
  simp only [hasEvent_cons effect effects, and_or_left, exists_or]

/-- A dispatch is one event. -/
theorem hasEvent_dispatched {type type' : ObserverEventType} {name : String}
    {seen : World} :
    HasEvent [.dispatched type e t name seen] type' x u ↔
      type = type' ∧ e = x ∧ t = u := by
  simp [HasEvent, eq_comm]

/-- What is silent is no event. -/
theorem not_hasEvent_of_silent {effect : Effect} (silent : effect.IsSilent)
    (type : ObserverEventType) : ¬HasEvent [effect] type e t := by
  rintro ⟨name, seen, member⟩
  rw [← List.mem_singleton.mp member] at silent
  exact silent

/-- An entity that has a networked component now: an addition tracks it, and no
event untracks it. -/
structure Learns (registry : ComponentRegistry) (e : Entity)
    (types : List ComponentTypeId) (effects : List Effect)
    (r r' : Replication) : Prop where
  tracked : e ∈ r'.tracked ↔
    e ∈ r.tracked ∨ HasNetworkedEvent registry effects .added e
  pendingSpawn : e ∈ r'.pendingSpawn ↔
    e ∈ r.pendingSpawn ∨ e ∉ r.tracked ∧ e ∈ r'.tracked
  pendingDespawn : e ∈ r'.pendingDespawn ↔ e ∈ r.pendingDespawn
  dirty : e ∈ r.tracked → ∀ t ∈ types, isNetworked registry t = true →
    (t ∈ r'.dirtyOf e ↔ t ∈ r.dirtyOf e ∨ HasEvent effects .added e t ∨
      HasEvent effects .changed e t)

/-- An entity without networked components now: a removal untracks it, and no
event tracks it. -/
structure Unlearns (registry : ComponentRegistry) (e : Entity)
    (effects : List Effect) (r r' : Replication) : Prop where
  tracked : e ∈ r'.tracked ↔
    e ∈ r.tracked ∧ ¬HasNetworkedEvent registry effects .removed e
  pendingSpawn : e ∈ r'.pendingSpawn ↔ e ∈ r.pendingSpawn
  pendingDespawn : e ∈ r'.pendingDespawn ↔
    e ∈ r.pendingDespawn ∨ e ∈ r.tracked ∧ e ∉ r'.tracked

/-- Learning goes on. -/
theorem Learns.cons {types : List ComponentTypeId} {effect : Effect}
    {effects : List Effect} {r'' : Replication}
    (first : Learns registry e types [effect] r r')
    (later : Learns registry e types effects r' r'') :
    Learns registry e types (effect :: effects) r r'' where
  tracked := by
    rw [later.tracked, first.tracked, hasNetworkedEvent_cons effect effects,
      or_assoc]
  pendingSpawn := by
    have kept := later.tracked
    rw [later.pendingSpawn, first.pendingSpawn]
    have grows := first.tracked
    tauto
  pendingDespawn := later.pendingDespawn.trans first.pendingDespawn
  dirty := by
    intro isTracked t member networked
    rw [later.dirty (first.tracked.mpr (Or.inl isTracked)) t member networked,
      first.dirty isTracked t member networked, hasEvent_cons effect effects,
      hasEvent_cons effect effects]
    tauto

/-- Unlearning goes on. -/
theorem Unlearns.cons {effect : Effect} {effects : List Effect}
    {r'' : Replication} (first : Unlearns registry e [effect] r r')
    (later : Unlearns registry e effects r' r'') :
    Unlearns registry e (effect :: effects) r r'' where
  tracked := by
    rw [later.tracked, first.tracked, hasNetworkedEvent_cons effect effects,
      not_or, and_assoc]
  pendingSpawn := later.pendingSpawn.trans first.pendingSpawn
  pendingDespawn := by
    have lost := later.tracked
    have lostFirst := first.tracked
    rw [later.pendingDespawn, first.pendingDespawn]
    tauto

/-- Nothing is learned where nothing networked happens. -/
theorem learns_nothing
    {types : List ComponentTypeId} {effect : Effect}
    (noAddition : ¬HasNetworkedEvent registry [effect] .added e)
    (nothingWritten : e ∈ r.tracked → ∀ t ∈ types,
      isNetworked registry t = true →
      ¬HasEvent [effect] .added e t ∧ ¬HasEvent [effect] .changed e t) :
    Learns registry e types [effect] r r where
  tracked := (or_iff_left noAddition).symm
  pendingSpawn := by tauto
  pendingDespawn := Iff.rfl
  dirty := by
    intro isTracked t member networked
    have nothing := nothingWritten isTracked t member networked
    tauto

theorem hasNetworkedEvent_dispatched {type type' : ObserverEventType}
    {name : String} {seen : World} :
    HasNetworkedEvent registry [.dispatched type e t name seen] type' x ↔
      isNetworked registry t = true ∧ type = type' ∧ e = x := by
  unfold HasNetworkedEvent
  simp only [hasEvent_dispatched]
  constructor
  · rintro ⟨_, networked, sameType, sameEntity, rfl⟩
    exact ⟨networked, sameType, sameEntity⟩
  · rintro ⟨networked, sameType, sameEntity⟩
    exact ⟨t, networked, sameType, sameEntity, rfl⟩

/-- An event of an entity with networked components is learned from. -/
theorem onWorldEvent_learns
    {types : List ComponentTypeId} {effect : Effect}
    (about : effect.IsAbout e types)
    (networked : types.any (isNetworked registry) = true) (r : Replication) :
    Learns registry e types [effect] r (r.onWorldEvent registry effect) := by
  have silent : effect.IsSilent → Learns registry e types [effect] r r := by
    intro silent
    exact learns_nothing
      (fun event => not_hasEvent_of_silent silent .added event.choose_spec.2)
      fun _ t _ _ => ⟨not_hasEvent_of_silent silent .added,
        not_hasEvent_of_silent silent .changed⟩
  cases effect with
  | dispatched type y u name seen =>
      have unheard : isNetworked registry u = false →
          Learns registry e types [.dispatched type y u name seen] r r := by
        intro local'
        refine learns_nothing ?_ fun _ t _ networked => ⟨?_, ?_⟩
        · rw [hasNetworkedEvent_dispatched, local']
          exact fun both => Bool.noConfusion both.1
        · rintro event
          rw [(hasEvent_dispatched.mp event).2.2, networked] at local'
          exact Bool.noConfusion local'
        · rintro event
          rw [(hasEvent_dispatched.mp event).2.2, networked] at local'
          exact Bool.noConfusion local'
      cases heard : isNetworked registry u with
      | false =>
          have same : r.onWorldEvent registry
              (.dispatched type y u name seen) = r := by
            cases type with
            | custom => exact about.elim
            | _ =>
                simp only [onWorldEvent, onEntityComponentAdded,
                  onEntityComponentChanged, onEntityComponentRemoved, heard,
                  Bool.not_false, if_true]
          rw [same]
          exact unheard heard
      | true =>
      cases type with
      | added =>
          obtain ⟨rfl, here⟩ := about
          dsimp only [onWorldEvent, onEntityComponentAdded]
          rw [heard, if_neg (by simp)]
          have event : HasNetworkedEvent registry
              [.dispatched .added y u name seen] .added y :=
            hasNetworkedEvent_dispatched.mpr ⟨heard, rfl, rfl⟩
          by_cases isTracked : y ∈ r.tracked
          · rw [if_pos isTracked]
            refine ⟨iff_of_true isTracked (Or.inl isTracked), ?_, Iff.rfl, ?_⟩
            · exact (or_iff_left fun both => both.1 isTracked).symm
            · intro _ t _ _
              rw [dirtyOf_markDirty, if_pos rfl, List.mem_insert_iff,
                hasEvent_dispatched, hasEvent_dispatched]
              tauto
          · rw [if_neg isTracked]
            refine ⟨iff_of_true ?_ (Or.inr event), ?_, Iff.rfl,
              fun tracked => absurd tracked isTracked⟩
            · exact List.mem_insert_self
            · refine iff_of_true List.mem_insert_self (Or.inr ⟨isTracked, ?_⟩)
              exact List.mem_insert_self
      | changed =>
          obtain ⟨rfl, here⟩ := about
          dsimp only [onWorldEvent, onEntityComponentChanged]
          rw [heard, if_neg (by simp)]
          have noAddition : ¬HasNetworkedEvent registry
              [.dispatched .changed y u name seen] .added y := by
            rw [hasNetworkedEvent_dispatched]
            exact fun both => ObserverEventType.noConfusion both.2.1
          by_cases isTracked : y ∈ r.tracked
          · rw [if_pos isTracked]
            refine ⟨(or_iff_left noAddition).symm, ?_, Iff.rfl, ?_⟩
            · exact (or_iff_left fun both => both.1 isTracked).symm
            · intro _ t _ _
              rw [dirtyOf_markDirty, if_pos rfl, List.mem_insert_iff,
                hasEvent_dispatched, hasEvent_dispatched]
              tauto
          · rw [if_neg isTracked]
            exact learns_nothing noAddition
              fun tracked => absurd tracked isTracked
      | removed =>
          obtain ⟨rfl, gone, seenTypes⟩ := about
          dsimp only [onWorldEvent, onEntityComponentRemoved]
          rw [heard, if_neg (by simp), seenTypes, if_pos networked, ite_self]
          have noEvent : ∀ {type t}, type ≠ .removed →
              ¬HasEvent [.dispatched .removed y u name seen] type y t :=
            fun other event => other (hasEvent_dispatched.mp event).1.symm
          constructor
          · rw [clearDirty_tracked, hasNetworkedEvent_dispatched]
            exact (or_iff_left fun both =>
              ObserverEventType.noConfusion both.2.1).symm
          · rw [clearDirty_tracked, clearDirty_pendingSpawn]
            tauto
          · rw [clearDirty_pendingDespawn]
          · intro _ t here _
            have other : t ≠ u := fun same => gone (same ▸ here)
            rw [dirtyOf_clearDirty, if_pos rfl, List.mem_filter,
              decide_eq_true other, and_iff_left rfl]
            exact (or_iff_left fun event => event.elim
              (noEvent (fun absurd => ObserverEventType.noConfusion absurd))
              (noEvent (fun absurd => ObserverEventType.noConfusion absurd))).symm
      | custom => exact about.elim
  | _ => exact silent trivial

/-- So are all events of a step. -/
theorem onWorldEvents_learns
    {types : List ComponentTypeId} {effects : List Effect}
    (about : ∀ effect ∈ effects, effect.IsAbout e types)
    (networked : types.any (isNetworked registry) = true) (r : Replication) :
    Learns registry e types effects r (r.onWorldEvents registry effects) := by
  induction effects generalizing r with
  | nil =>
      refine ⟨(or_iff_left ?_).symm, ?_, Iff.rfl, fun _ t _ _ => ?_⟩
      · rintro ⟨_, _, _, _, member⟩
        exact absurd member List.not_mem_nil
      · exact (or_iff_left fun both => both.1 both.2).symm
      · refine (or_iff_left ?_).symm
        rintro (⟨_, _, member⟩ | ⟨_, _, member⟩) <;>
          exact absurd member List.not_mem_nil
  | cons effect effects inductionHypothesis =>
      exact (onWorldEvent_learns (about effect List.mem_cons_self) networked
        r).cons (inductionHypothesis
          (fun later member => about later (List.mem_cons_of_mem _ member)) _)

/-- An event of an entity without networked components is unlearned from. -/
theorem onWorldEvent_unlearns
    {types : List ComponentTypeId} {effect : Effect}
    (about : effect.IsAbout e types)
    (local' : types.any (isNetworked registry) = false) (r : Replication) :
    Unlearns registry e [effect] r (r.onWorldEvent registry effect) := by
  have localHere : ∀ t ∈ types, isNetworked registry t = false := by
    intro t member
    by_contra networked
    rw [Bool.not_eq_false] at networked
    rw [List.any_eq_true.mpr ⟨t, member, networked⟩] at local'
    exact Bool.noConfusion local'
  have nothing : ¬HasNetworkedEvent registry [effect] .removed e →
      Unlearns registry e [effect] r r := fun noRemoval =>
    ⟨(and_iff_left noRemoval).symm, Iff.rfl,
      (or_iff_left fun both => both.2 both.1).symm⟩
  have silent : effect.IsSilent →
      ¬HasNetworkedEvent registry [effect] .removed e := fun silent event =>
    not_hasEvent_of_silent silent .removed event.choose_spec.2
  cases effect with
  | dispatched type y u name seen =>
      cases type with
      | added =>
          obtain ⟨rfl, here⟩ := about
          dsimp only [onWorldEvent, onEntityComponentAdded]
          rw [localHere u here, if_pos (by simp)]
          apply nothing
          rw [hasNetworkedEvent_dispatched]
          exact fun both => ObserverEventType.noConfusion both.2.1
      | changed =>
          obtain ⟨rfl, here⟩ := about
          dsimp only [onWorldEvent, onEntityComponentChanged]
          rw [localHere u here, if_pos (by simp)]
          apply nothing
          rw [hasNetworkedEvent_dispatched]
          exact fun both => ObserverEventType.noConfusion both.2.1
      | removed =>
          obtain ⟨rfl, gone, seenTypes⟩ := about
          dsimp only [onWorldEvent, onEntityComponentRemoved]
          cases heard : isNetworked registry u with
          | false =>
              rw [if_pos (by simp)]
              apply nothing
              rw [hasNetworkedEvent_dispatched, heard]
              exact fun both => Bool.noConfusion both.1
          | true =>
              rw [if_neg (by simp), seenTypes, local',
                if_neg Bool.false_ne_true]
              have event : HasNetworkedEvent registry
                  [.dispatched .removed y u name seen] .removed y :=
                hasNetworkedEvent_dispatched.mpr ⟨heard, rfl, rfl⟩
              by_cases isTracked : y ∈ r.tracked
              · rw [if_pos (by rw [clearDirty_tracked]; exact isTracked)]
                have untracked : y ∉ ((r.clearDirty y u).untrack y).tracked := by
                  unfold untrack
                  simp
                refine ⟨iff_of_false untracked fun both => both.2 event, ?_, ?_⟩
                · change y ∈ (r.clearDirty y u).pendingSpawn ↔ _
                  rw [clearDirty_pendingSpawn]
                · exact iff_of_true List.mem_insert_self
                    (Or.inr ⟨isTracked, untracked⟩)
              · rw [if_neg (by rw [clearDirty_tracked]; exact isTracked)]
                constructor
                · rw [clearDirty_tracked]
                  exact iff_of_false isTracked fun both => isTracked both.1
                · rw [clearDirty_pendingSpawn]
                · rw [clearDirty_pendingDespawn]
                  exact (or_iff_left fun both => isTracked both.1).symm
      | custom => exact about.elim
  | _ => exact nothing (silent trivial)

/-- So are all events of a step. -/
theorem onWorldEvents_unlearns
    {types : List ComponentTypeId} {effects : List Effect}
    (about : ∀ effect ∈ effects, effect.IsAbout e types)
    (local' : types.any (isNetworked registry) = false) (r : Replication) :
    Unlearns registry e effects r (r.onWorldEvents registry effects) := by
  induction effects generalizing r with
  | nil =>
      refine ⟨(and_iff_left ?_).symm, Iff.rfl,
        (or_iff_left fun both => both.2 both.1).symm⟩
      rintro ⟨_, _, _, _, member⟩
      exact absurd member List.not_mem_nil
  | cons effect effects inductionHypothesis =>
      exact (onWorldEvent_unlearns (about effect List.mem_cons_self) local'
        r).cons (inductionHypothesis
          (fun later member => about later (List.mem_cons_of_mem _ member)) _)

/-! ## The sending side in step with its world -/

/-- The tracked entities are the replicated ones, and dirty sets are sets. -/
structure Tracks (registry : ComponentRegistry) (w : World)
    (r : Replication) : Prop where
  tracked : ∀ e, e ∈ r.tracked ↔ w.Replicates registry e
  sets : r.DirtySets

/-- What a change of the world does to the pending and dirty sets. -/
structure Notes (registry : ComponentRegistry) (w w' : World)
    (r r' : Replication) : Prop where
  pendingSpawn : ∀ e, e ∈ r'.pendingSpawn ↔ e ∈ r.pendingSpawn ∨
    ¬w.Replicates registry e ∧ w'.Replicates registry e
  pendingDespawn : ∀ e, e ∈ r'.pendingDespawn ↔ e ∈ r.pendingDespawn ∨
    w.Replicates registry e ∧ ¬w'.Replicates registry e
  dirty : ∀ e, w.Replicates registry e → ∀ t ∈ w'.networkedOf registry e,
    t ∈ r.dirtyOf e ∨ t ∉ w.networkedOf registry e → t ∈ r'.dirtyOf e

/-- An entity is replicated if one of its components is networked. -/
theorem replicates_iff_any {w : World} :
    w.Replicates registry e ↔
      (w.getEntityComponentTypes e).any (isNetworked registry) = true := by
  rw [List.any_eq_true]
  constructor
  · intro replicates
    obtain ⟨t, member⟩ := List.exists_mem_of_ne_nil _ replicates
    exact ⟨t, World.mem_networkedOf.mp member⟩
  · rintro ⟨t, both⟩
    exact List.ne_nil_of_mem (World.mem_networkedOf.mpr both)

/-- What events teach about the entity of a change. -/
theorem Tracks.reportedSelf
    {w w' : World} {effects : List Effect} (tracks : r.Tracks registry w)
    (reported : World.Reported e w effects w') :
    let r' := r.onWorldEvents registry effects
    (e ∈ r'.tracked ↔ w'.Replicates registry e) ∧
    (e ∈ r'.pendingSpawn ↔ e ∈ r.pendingSpawn ∨
      ¬w.Replicates registry e ∧ w'.Replicates registry e) ∧
    (e ∈ r'.pendingDespawn ↔ e ∈ r.pendingDespawn ∨
      w.Replicates registry e ∧ ¬w'.Replicates registry e) ∧
    (w.Replicates registry e → ∀ t ∈ w'.networkedOf registry e,
      t ∈ r.dirtyOf e ∨ t ∉ w.networkedOf registry e → t ∈ r'.dirtyOf e) := by
  have wasTracked := tracks.tracked e
  by_cases replicates : w'.Replicates registry e
  · have learns := onWorldEvents_learns reported.about
      (replicates_iff_any.mp replicates) r
    have gained : ∀ t ∈ w'.networkedOf registry e,
        t ∉ w.networkedOf registry e → HasEvent effects .added e t := by
      intro t member fresh
      obtain ⟨here, networked⟩ := World.mem_networkedOf.mp member
      exact reported.gains t here fun before =>
        fresh (World.mem_networkedOf.mpr ⟨before, networked⟩)
    have isTracked : e ∈ (r.onWorldEvents registry effects).tracked := by
      rw [learns.tracked, wasTracked]
      by_cases before : w.Replicates registry e
      · exact Or.inl before
      · obtain ⟨t, member⟩ := List.exists_mem_of_ne_nil _ replicates
        refine Or.inr ⟨t, (World.mem_networkedOf.mp member).2,
          gained t member fun old => before (List.ne_nil_of_mem old)⟩
    refine ⟨iff_of_true isTracked replicates, ?_, ?_, ?_⟩
    · rw [learns.pendingSpawn, wasTracked, and_iff_left isTracked,
        and_iff_left replicates]
    · rw [learns.pendingDespawn]
      exact (or_iff_left fun both => both.2 replicates).symm
    · intro before t member cause
      obtain ⟨here, networked⟩ := World.mem_networkedOf.mp member
      rw [learns.dirty (wasTracked.mpr before) t here networked]
      exact cause.imp_right fun fresh => Or.inl (gained t member fresh)
  · have unlearns := onWorldEvents_unlearns reported.about
      (Bool.eq_false_iff.mpr (mt replicates_iff_any.mpr replicates)) r
    have untracked : e ∉ (r.onWorldEvents registry effects).tracked := by
      rw [unlearns.tracked, wasTracked]
      rintro ⟨before, noRemoval⟩
      obtain ⟨t, member⟩ := List.exists_mem_of_ne_nil _ before
      obtain ⟨here, networked⟩ := World.mem_networkedOf.mp member
      refine noRemoval ⟨t, networked, reported.losses t here fun still => ?_⟩
      exact replicates (List.ne_nil_of_mem
        (World.mem_networkedOf.mpr ⟨still, networked⟩))
    refine ⟨iff_of_false untracked replicates, ?_, ?_, ?_⟩
    · rw [unlearns.pendingSpawn]
      exact (or_iff_left fun both => replicates both.2).symm
    · rw [unlearns.pendingDespawn, wasTracked, and_iff_left untracked,
        and_iff_left replicates]
    · exact fun _ t member => absurd (List.ne_nil_of_mem member) replicates

/-- A reported change keeps the sending side in step. -/
theorem Tracks.reported
    {w w' : World} {effects : List Effect} (tracks : r.Tracks registry w)
    (reported : World.Reported e w effects w') :
    (r.onWorldEvents registry effects).Tracks registry w' ∧
      Notes registry w w' r (r.onWorldEvents registry effects) := by
  obtain ⟨trackedSelf, spawnSelf, despawnSelf, dirtySelf⟩ :=
    tracks.reportedSelf reported
  have sameNetworked : ∀ x, x ≠ e →
      w'.networkedOf registry x = w.networkedOf registry x := fun x other =>
    congrArg (networkedTypes registry) (reported.others x other)
  have sameReplicates : ∀ x, x ≠ e →
      (w'.Replicates registry x ↔ w.Replicates registry x) := by
    intro x other
    rw [World.Replicates, World.Replicates, sameNetworked x other]
  have same : ∀ x, x ≠ e → SameAt x r (r.onWorldEvents registry effects) :=
    fun x other => onWorldEvents_sameAt reported.about other r
  refine ⟨⟨fun x => ?_, onWorldEvents_dirtySets tracks.sets effects⟩,
    fun x => ?_, fun x => ?_, fun x replicates t member cause => ?_⟩
  all_goals by_cases isSelf : x = e
  · exact isSelf ▸ trackedSelf
  · rw [(same x isSelf).tracked, tracks.tracked, sameReplicates x isSelf]
  · exact isSelf ▸ spawnSelf
  · rw [(same x isSelf).pendingSpawn, sameReplicates x isSelf]
    exact (or_iff_left fun both => both.1 both.2).symm
  · exact isSelf ▸ despawnSelf
  · rw [(same x isSelf).pendingDespawn, sameReplicates x isSelf]
    exact (or_iff_left fun both => both.2 both.1).symm
  · subst isSelf
    exact dirtySelf replicates t member cause
  · rw [(same x isSelf).dirtyOf]
    rw [sameNetworked x isSelf] at member
    exact cause.resolve_right (not_not_intro member)

/-- Events are heard one after the other. -/
theorem onWorldEvents_append
    (r : Replication) (first second : List Effect) :
    r.onWorldEvents registry (first ++ second) =
      (r.onWorldEvents registry first).onWorldEvents registry second :=
  List.foldl_append

/-- What every reported change keeps is kept by sequences of them. -/
theorem reports_keep
    (invariant : World → Replication → Prop)
    (each : ∀ {w w' effects e r}, World.Reported e w effects w' →
      invariant w r → invariant w' (r.onWorldEvents registry effects))
    {w w' : World} {effects : List Effect}
    (reports : World.Reports w effects w') (holds : invariant w r) :
    invariant w' (r.onWorldEvents registry effects) := by
  induction reports with
  | refl => exact holds
  | tail _ reported inductionHypothesis =>
      rw [onWorldEvents_append]
      exact each reported inductionHypothesis

/-! ## Seeding -/

/-- An entity that is tracked once is tracked. -/
theorem track_of_tracked (r : Replication) (e x : Entity) :
    let r' := if e ∈ r.tracked then r else r.track e
    (x ∈ r'.tracked ↔ x ∈ r.tracked ∨ x = e) ∧
    (x ∈ r'.pendingSpawn ↔ x ∈ r.pendingSpawn ∨ x ∉ r.tracked ∧ x = e) := by
  by_cases isTracked : e ∈ r.tracked
  · dsimp only
    rw [if_pos isTracked]
    refine ⟨(or_iff_left_of_imp fun same => same ▸ isTracked).symm,
      (or_iff_left ?_).symm⟩
    rintro ⟨untracked, rfl⟩
    exact untracked isTracked
  · dsimp only
    rw [if_neg isTracked]
    unfold track
    dsimp only
    rw [List.mem_insert_iff, List.mem_insert_iff, or_comm, @or_comm (x = e)]
    refine ⟨Iff.rfl, or_congr_right (and_iff_right_of_imp ?_).symm⟩
    rintro rfl
    exact isTracked

/-- Seeding with a list of entities. -/
theorem seed_spec
    (entities : List Entity) (keep : Entity → Prop) [DecidablePred keep]
    (r : Replication) :
    let r' := entities.foldl (fun r e =>
      if keep e then if e ∈ r.tracked then r else r.track e else r) r
    (∀ x, x ∈ r'.tracked ↔ x ∈ r.tracked ∨ x ∈ entities ∧ keep x) ∧
    (∀ x, x ∈ r'.pendingSpawn ↔ x ∈ r.pendingSpawn ∨
      x ∉ r.tracked ∧ x ∈ entities ∧ keep x) ∧
    r' = { r with tracked := r'.tracked, pendingSpawn := r'.pendingSpawn } := by
  induction entities generalizing r with
  | nil =>
      refine ⟨fun x => ?_, fun x => ?_, rfl⟩
      · exact (or_iff_left fun both => absurd both.1 List.not_mem_nil).symm
      · exact (or_iff_left fun both => absurd both.2.1 List.not_mem_nil).symm
  | cons e entities inductionHypothesis =>
      dsimp only
      rw [List.foldl_cons]
      by_cases kept : keep e
      · rw [if_pos kept]
        obtain ⟨tracked, spawns, others⟩ := inductionHypothesis
          (if e ∈ r.tracked then r else r.track e)
        refine ⟨fun x => ?_, fun x => ?_, ?_⟩
        · rw [tracked x, (track_of_tracked r e x).1, List.mem_cons]
          constructor
          · rintro ((old | rfl) | later)
            · exact Or.inl old
            · exact Or.inr ⟨Or.inl rfl, kept⟩
            · exact Or.inr ⟨Or.inr later.1, later.2⟩
          · rintro (old | ⟨rfl | later, keeps⟩)
            · exact Or.inl (Or.inl old)
            · exact Or.inl (Or.inr rfl)
            · exact Or.inr ⟨later, keeps⟩
        · rw [spawns x, (track_of_tracked r e x).1, (track_of_tracked r e x).2,
            List.mem_cons]
          by_cases isSelf : x = e
          · subst isSelf
            tauto
          · tauto
        · rw [others]
          split <;> rfl
      · rw [if_neg kept]
        obtain ⟨tracked, spawns, others⟩ := inductionHypothesis r
        refine ⟨fun x => ?_, fun x => ?_, others⟩
        · rw [tracked x, List.mem_cons]
          refine or_congr_right (and_congr_left fun keeps => ?_)
          refine (or_iff_right ?_).symm
          rintro rfl
          exact kept keeps
        · rw [spawns x, List.mem_cons]
          refine or_congr_right (and_congr_right fun _ =>
            and_congr_left fun keeps => ?_)
          refine (or_iff_right ?_).symm
          rintro rfl
          exact kept keeps

/-- Seeding tracks every replicated entity and queues the spawns of those that
were not tracked. -/
theorem seedFromWorld_spec
    {w : World} (consistent : w.store.Consistent registry) (r : Replication) :
    let r' := r.seedFromWorld registry w
    (∀ x, x ∈ r'.tracked ↔ x ∈ r.tracked ∨ w.Replicates registry x) ∧
    (∀ x, x ∈ r'.pendingSpawn ↔ x ∈ r.pendingSpawn ∨
      x ∉ r.tracked ∧ w.Replicates registry x) ∧
    r' = { r with tracked := r'.tracked, pendingSpawn := r'.pendingSpawn } := by
  have sameRows : ∀ (order : List Ptr) (r : Replication),
      (∀ p ∈ order, p ∈ w.store.archetypeList) →
      order.foldl (fun r p =>
        if (w.store.deref p).componentIds.any (isNetworked registry) then
          (w.store.deref p).entities.foldl
            (fun r e => if e ∈ r.tracked then r else r.track e) r
        else r) r =
      (w.store.listing order).foldl (fun r e =>
        if w.Replicates registry e then
          if e ∈ r.tracked then r else r.track e
        else r) r := by
    intro order
    induction order with
    | nil => exact fun _ _ => rfl
    | cons p order inductionHypothesis =>
        intro r listed
        have ofRow : ∀ e ∈ (w.store.deref p).entities,
            w.Replicates registry e ↔
              (w.store.deref p).componentIds.any (isNetworked registry) =
                true := by
          intro e member
          rw [replicates_iff_any, World.getEntityComponentTypes_of_row
            consistent (listed p List.mem_cons_self) member]
        unfold ArchetypeStore.listing
        rw [List.foldl_cons, List.flatMap_cons, List.foldl_append,
          inductionHypothesis _ fun q member =>
            listed q (List.mem_cons_of_mem p member)]
        unfold ArchetypeStore.listing
        congr 1
        split
        · rename_i networked
          apply List.foldl_ext
          intro r e member
          rw [if_pos ((ofRow e member).mpr networked)]
        · rename_i local'
          have skip : ∀ (entities : List Entity) (r : Replication),
              (∀ e ∈ entities, ¬w.Replicates registry e) →
              entities.foldl (fun r e =>
                if w.Replicates registry e then
                  if e ∈ r.tracked then r else r.track e
                else r) r = r := by
            intro entities
            induction entities with
            | nil => exact fun _ _ => rfl
            | cons e entities skipLater =>
                intro r none
                rw [List.foldl_cons, if_neg (none e List.mem_cons_self)]
                exact skipLater r fun later member =>
                  none later (List.mem_cons_of_mem e member)
          exact (skip _ r fun e member => mt (ofRow e member).mp local').symm
  obtain ⟨tracked, spawns, others⟩ := seed_spec
    (w.store.listing w.store.archetypeList) (w.Replicates registry ·) r
  have listed : ∀ x, x ∈ w.store.listing w.store.archetypeList ∧
      w.Replicates registry x ↔ w.Replicates registry x := by
    intro x
    refine and_iff_right_of_imp fun replicates => ?_
    rw [ArchetypeStore.mem_listing_iff consistent (List.Perm.refl _)]
    have alive := World.alive_of_replicates replicates
    rw [World.isAlive, Bool.and_eq_true] at alive
    exact alive.2
  have rows := sameRows w.store.archetypeList r fun _ member => member
  dsimp only
  unfold seedFromWorld
  rw [rows]
  refine ⟨fun x => ?_, fun x => ?_, others⟩
  · rw [tracked x, listed x]
  · rw [spawns x, listed x]

end Replication
end VortarisECS
