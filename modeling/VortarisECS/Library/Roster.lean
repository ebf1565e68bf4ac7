import Mathlib.Data.List.Nodup
import Mathlib.Logic.Function.Basic

/-!
# Registrations under numbers

Owners register requests in a list, each under a number of its own, and keep
the number of their last registration.  An owner leaves by its number: what is
registered under it goes, whoever registered it.  After a restart the numbers
are handed out anew, and an owner may still hold one of the old ones.
-/

/-- An entry of the list. -/
structure Registration (σ : Type u) (φ : Type v) where
  id : Nat
  owner : σ
  request : φ

/-- The list, with the number each owner holds. -/
structure Roster (σ : Type u) (φ : Type v) where
  entries : List (Registration σ φ) := []
  nextId : Nat := 1
  held : σ → Option Nat := fun _ => none
  distinct : (entries.map Registration.id).Nodup := by exact List.nodup_nil
  below : ∀ entry ∈ entries, entry.id < nextId := by
    exact fun _ member => absurd member List.not_mem_nil

namespace Roster

variable {σ : Type u} {φ : Type v}

/-- The next number is not taken. -/
theorem nextId_fresh (r : Roster σ φ) :
    r.nextId ∉ r.entries.map Registration.id := by
  intro taken
  obtain ⟨entry, member, same⟩ := List.mem_map.mp taken
  exact absurd (r.below entry member) (same ▸ Nat.lt_irrefl _)

/-- An owner enters under the next id, which is the one held from then on. -/
def enter [DecidableEq σ] (r : Roster σ φ) (owner : σ) (request : φ) :
    Roster σ φ where
  entries := r.entries ++ [⟨r.nextId, owner, request⟩]
  nextId := r.nextId + 1
  held := Function.update r.held owner (some r.nextId)
  distinct := by
    rw [List.map_append, List.map_singleton, ← List.concat_eq_append]
    exact r.distinct.concat r.nextId_fresh
  below := by
    intro entry member
    obtain old | new := List.mem_append.mp member
    · exact Nat.lt_succ_of_lt (r.below entry old)
    · rw [List.mem_singleton.mp new]
      exact Nat.lt_succ_self _

/-- Drop what is registered under a number. -/
def drop (r : Roster σ φ) (id : Nat) : Roster σ φ where
  entries := r.entries.filter fun entry => entry.id != id
  nextId := r.nextId
  held := r.held
  distinct := r.distinct.sublist (List.filter_sublist.map _)
  below entry member := r.below entry (List.mem_filter.mp member).1

/-- The entries under the id an owner holds are dropped, and the id is
forgotten. -/
def leave [DecidableEq σ] (r : Roster σ φ) (owner : σ) :
    Roster σ φ :=
  match r.held owner with
  | none => r
  | some id => { r.drop id with held := Function.update r.held owner none }

/-- Start anew; some owners keep their numbers. -/
def restart (r : Roster σ φ) (keeps : σ → Bool) : Roster σ φ where
  held owner := if keeps owner then r.held owner else none

/-- What an owner has registered. -/
def entriesOf [DecidableEq σ] (r : Roster σ φ) (owner : σ) :
    List (Registration σ φ) :=
  r.entries.filter fun entry => entry.owner = owner

/-- The number an owner holds, if any, is that of a registration of its own. -/
def Holds (r : Roster σ φ) (owner : σ) : Prop :=
  ∀ id ∈ r.held owner, ∃ entry ∈ r.entries, entry.id = id ∧ entry.owner = owner

/-- Nobody else has a registration under the number an owner holds, if any. -/
def Spares (r : Roster σ φ) (owner : σ) : Prop :=
  ∀ id ∈ r.held owner, ∀ entry ∈ r.entries, entry.id = id → entry.owner = owner

/-- An owner has registered one request and holds its number, or none. -/
def Lists [DecidableEq σ] (r : Roster σ φ) (owner : σ) :
    Option φ → Prop
  | none => r.entriesOf owner = []
  | some request => ∃ id, r.held owner = some id ∧
      r.entriesOf owner = [⟨id, owner, request⟩]

variable {r : Roster σ φ} {owner other : σ} {request : Option φ}

/-- Under a number of its own an owner has all there is. -/
theorem Holds.spares (holds : r.Holds owner) : r.Spares owner := by
  intro id held entry member sameId
  obtain ⟨own, ownMember, ownId, isOwn⟩ := holds id held
  have sameEntry : own = entry :=
    List.inj_on_of_nodup_map r.distinct ownMember member
      (ownId.trans sameId.symm)
  rw [← sameEntry, isOwn]

theorem restart_holds (r : Roster σ φ) {keeps : σ → Bool}
    (forgets : keeps owner = false) : (r.restart keeps).Holds owner := by
  intro id held
  refine absurd held ?_
  simp [restart, forgets]

variable [DecidableEq σ]

theorem enter_entriesOf_self (r : Roster σ φ) (owner : σ) (asked : φ) :
    (r.enter owner asked).entriesOf owner =
      r.entriesOf owner ++ [⟨r.nextId, owner, asked⟩] := by
  simp [entriesOf, enter]

/-- Entering lists nobody else. -/
theorem enter_entriesOf_of_ne (differs : other ≠ owner) (asked : φ) :
    (r.enter other asked).entriesOf owner = r.entriesOf owner := by
  simp [entriesOf, enter, differs]

/-- Entering lists the owner with what it asked for. -/
theorem Lists.enter_self (lists : r.Lists owner none) (asked : φ) :
    (r.enter owner asked).Lists owner (some asked) := by
  refine ⟨r.nextId, Function.update_self owner _ _, ?_⟩
  rw [enter_entriesOf_self, show r.entriesOf owner = [] from lists]
  rfl

/-- Entering leaves what others are listed with. -/
theorem Lists.enter_of_ne (lists : r.Lists owner request)
    (differs : other ≠ owner) (asked : φ) :
    (r.enter other asked).Lists owner request := by
  cases request with
  | none => exact (enter_entriesOf_of_ne differs asked).trans lists
  | some request =>
      obtain ⟨id, holds, alone⟩ := lists
      exact ⟨id, (Function.update_of_ne differs.symm _ _).trans holds,
        (enter_entriesOf_of_ne differs asked).trans alone⟩

/-- Who left holds nothing. -/
theorem leave_held_self (r : Roster σ φ) (owner : σ) :
    (r.leave owner).held owner = none := by
  unfold leave
  split
  · assumption
  · exact Function.update_self owner _ _

/-- Leaving changes what nobody else holds. -/
theorem leave_held_of_ne (differs : other ≠ owner) :
    (r.leave other).held owner = r.held owner := by
  unfold leave
  split
  · rfl
  · exact Function.update_of_ne differs.symm _ _

/-- Nothing is added to the list by a leave. -/
theorem mem_of_mem_leave {entry : Registration σ φ}
    (member : entry ∈ (r.leave owner).entries) : entry ∈ r.entries := by
  unfold leave at member
  split at member
  · exact member
  · exact (List.mem_filter.mp member).1

/-- An owner that spares the others takes no entry of theirs away. -/
theorem Spares.mem_leave (spares : r.Spares other)
    {entry : Registration σ φ} (member : entry ∈ r.entries)
    (differs : other ≠ entry.owner) : entry ∈ (r.leave other).entries := by
  unfold leave
  split
  · exact member
  · rename_i id held
    refine List.mem_filter.mpr ⟨member, bne_iff_ne.mpr fun same => differs ?_⟩
    exact (spares id held entry member same).symm

theorem Spares.leave_entriesOf (spares : r.Spares other)
    (differs : other ≠ owner) :
    (r.leave other).entriesOf owner = r.entriesOf owner := by
  unfold leave
  split
  · rfl
  · rename_i id held
    unfold entriesOf drop
    rw [List.filter_filter]
    refine List.filter_congr fun entry member => ?_
    by_cases isOwners : entry.owner = owner
    · have kept := spares.mem_leave member (isOwners ▸ differs)
      unfold leave at kept
      rw [held] at kept
      simpa [isOwners] using (List.mem_filter.mp kept).2
    · simp [isOwners]

/-- Leaving takes the owner off the list. -/
theorem Lists.leave_self (lists : r.Lists owner request) :
    (r.leave owner).Lists owner none := by
  cases request with
  | none =>
      refine List.filter_eq_nil_iff.mpr fun entry member => ?_
      exact List.filter_eq_nil_iff.mp lists entry (mem_of_mem_leave member)
  | some request =>
      obtain ⟨id, held, alone⟩ := lists
      refine List.filter_eq_nil_iff.mpr fun entry member isOwn => ?_
      have old : entry ∈ r.entriesOf owner :=
        List.mem_filter.mpr ⟨mem_of_mem_leave member, isOwn⟩
      rw [alone, List.mem_singleton] at old
      unfold leave at member
      rw [held] at member
      have otherId := (List.mem_filter.mp member).2
      rw [old] at otherId
      exact absurd rfl (bne_iff_ne.mp otherId)

/-- Leaving leaves others listed if it spares them. -/
theorem Lists.leave_of_ne (lists : r.Lists owner request)
    (differs : other ≠ owner) (spares : r.Spares other) :
    (r.leave other).Lists owner request := by
  cases request with
  | none => exact (spares.leave_entriesOf differs).trans lists
  | some request =>
      obtain ⟨id, held, alone⟩ := lists
      exact ⟨id, (leave_held_of_ne differs).trans held,
        (spares.leave_entriesOf differs).trans alone⟩

/-- After a restart nobody is listed. -/
theorem restart_lists (r : Roster σ φ) (keeps : σ → Bool) (owner : σ) :
    (r.restart keeps).Lists owner none := rfl

theorem Holds.enter (holds : r.Holds owner) (other : σ) (asked : φ) :
    (r.enter other asked).Holds owner := by
  intro id held
  by_cases same : other = owner
  · subst same
    have isNext : some r.nextId = some id :=
      (Function.update_self other _ _).symm.trans held
    exact ⟨_, List.mem_append_right _ (List.mem_singleton_self _),
      Option.some.inj isNext, rfl⟩
  · obtain ⟨entry, member, isEntry⟩ := holds id
      ((Function.update_of_ne (Ne.symm same) _ _).symm.trans held)
    exact ⟨entry, List.mem_append_left _ member, isEntry⟩

theorem Holds.leave (holds : r.Holds owner) (leaves : r.Spares other) :
    (r.leave other).Holds owner := by
  intro id held
  by_cases same : other = owner
  · subst same
    exact absurd ((leave_held_self r other).symm.trans held) (by simp)
  · obtain ⟨entry, member, sameId, isOwn⟩ := holds id
      ((leave_held_of_ne same).symm.trans held)
    exact ⟨entry, leaves.mem_leave member (isOwn ▸ same), sameId, isOwn⟩

theorem Spares.leave (spares : r.Spares owner) (other : σ) :
    (r.leave other).Spares owner := by
  intro id held entry member sameId
  by_cases same : other = owner
  · subst same
    exact absurd ((leave_held_self r other).symm.trans held) (by simp)
  · exact spares id ((leave_held_of_ne same).symm.trans held) entry
      (mem_of_mem_leave member) sameId

end Roster
