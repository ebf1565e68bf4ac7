import VortarisECS.Library.Traced
import Mathlib.Data.List.Induction
import Mathlib.Logic.Function.Basic

/-!
# Copies kept by notices

A store tells which keys changed and what they hold now.  A copy that takes in
all it is told holds what the store holds, if every notice is true in the end and
no change goes untold.
-/

/-- A notice about a store. -/
inductive Notice (κ : Type u) (β : Type v)
  /-- The key holds the value now, or nothing. -/
  | holds (key : κ) (value : Option β)
  /-- No key holds anything now. -/
  | emptied

namespace Notice

variable {κ : Type u} {β : Type v} [DecidableEq κ]
variable {copy before after : κ → Option β} {notices : List (Notice κ β)}

/-- What a copy is after a notice. -/
def takeIn (copy : κ → Option β) : Notice κ β → κ → Option β
  | holds key value => Function.update copy key value
  | emptied => fun _ => none

/-- What a copy is after many notices. -/
def takeAll (copy : κ → Option β) (notices : List (Notice κ β)) :
    κ → Option β :=
  notices.foldl takeIn copy

@[simp] theorem takeAll_nil (copy : κ → Option β) :
    takeAll copy [] = copy := rfl

/-- Notices are taken in one after the other. -/
theorem takeAll_append
    (copy : κ → Option β) (first second : List (Notice κ β)) :
    takeAll copy (first ++ second) = takeAll (takeAll copy first) second :=
  List.foldl_append

/-- The notice is no news of the key. -/
def IsSilentOn (key : κ) : Notice κ β → Prop
  | holds other _ => other ≠ key
  | emptied => False

/-- A key that no notice names keeps what the copy holds for it. -/
theorem takeAll_of_silent {key : κ}
    (silent : ∀ notice ∈ notices, notice.IsSilentOn key) :
    takeAll copy notices key = copy key := by
  induction notices generalizing copy with
  | nil => rfl
  | cons notice notices inductionHypothesis =>
      have first : takeIn copy notice key = copy key := by
        cases notice with
        | holds other value =>
            exact Function.update_of_ne
              (silent _ List.mem_cons_self : other ≠ key).symm _ _
        | emptied => exact (silent _ List.mem_cons_self).elim
      exact (inductionHypothesis fun later member =>
        silent later (List.mem_cons_of_mem _ member)).trans first

/-- Every notice is true in the end, and every key that changed is named. -/
structure Tell (before after : κ → Option β)
    (notices : List (Notice κ β)) : Prop where
  truthful : ∀ notice ∈ notices, ∃ key, notice = holds key (after key)
  complete : ∀ key, after key ≠ before key → holds key (after key) ∈ notices

/-- A named key holds what is true in the end. -/
theorem takeAll_of_truthful
    (truthful : ∀ notice ∈ notices, ∃ key, notice = holds key (after key))
    (key : κ) :
    takeAll copy notices key = after key ∨
      takeAll copy notices key = copy key ∧
        holds key (after key) ∉ notices := by
  induction notices using List.reverseRec with
  | nil => exact Or.inr ⟨rfl, List.not_mem_nil⟩
  | append_singleton notices notice inductionHypothesis =>
      obtain ⟨last, rfl⟩ := truthful notice
        (List.mem_append_right _ (List.mem_singleton_self _))
      rw [takeAll_append]
      change Function.update (takeAll copy notices) last _ key = _ ∨
        Function.update (takeAll copy notices) last _ key = _ ∧ _
      by_cases isLast : key = last
      · rw [isLast, Function.update_self]
        exact Or.inl rfl
      · rw [Function.update_of_ne isLast]
        refine (inductionHypothesis fun notice member => truthful notice
          (List.mem_append_left _ member)).imp_right
            fun ⟨same, unnamed⟩ => ⟨same, fun named => ?_⟩
        obtain early | late := List.mem_append.mp named
        · exact unnamed early
        · rw [List.mem_singleton, holds.injEq] at late
          exact isLast late.1

/-- A copy that takes in all notices holds what the store holds. -/
theorem Tell.takeAll_eq (tell : Tell before after notices) :
    takeAll before notices = after := by
  funext key
  obtain told | ⟨untold, unnamed⟩ : takeAll before notices key = after key ∨
      takeAll before notices key = before key ∧
        holds key (after key) ∉ notices :=
    takeAll_of_truthful tell.truthful key
  · exact told
  · rw [untold]
    by_contra changed
    exact unnamed (tell.complete key fun same => changed same.symm)

end Notice
