import Mathlib.Data.List.Infix

/-!
# A line with one hand at its front

What is taken in waits in line, the front of the line is taken in hand, and
what is in hand is done with before the next is taken. Closing the line throws
away what still waits, not what is in hand.

`Step` is what can happen between two looks, with what it takes in and what it
is done with. A channel `Carries` what it took in: as long as it is open, what
was done with, what is in hand and what waits are all of it, in the order in
which it was taken in; and afterwards they are the beginning of it.
-/

namespace Lib

universe u

structure Channel (α : Type u) where
  /-- What waits, while the channel is open. -/
  waiting : Option (List α)
  inHand : Option α

namespace Channel

variable {α : Type u} {ch ch' : Channel α} {accepted done items finished : List α}

def shut : Channel α := ⟨none, none⟩

/-- What has been taken in and not been done with. -/
def held (ch : Channel α) : List α := ch.inHand.toList ++ ch.waiting.getD []

inductive Step : Channel α → List α → List α → Channel α → Prop
  | idle (ch : Channel α) : Step ch [] [] ch
  | accept {line : List α} {inHand : Option α} (items : List α) :
      Step ⟨some line, inHand⟩ items [] ⟨some (line ++ items), inHand⟩
  | take {item : α} {line : List α} :
      Step ⟨some (item :: line), none⟩ [] [] ⟨some line, some item⟩
  | finish {waiting : Option (List α)} {item : α} :
      Step ⟨waiting, some item⟩ [] [item] ⟨waiting, none⟩
  | close {waiting : Option (List α)} {inHand : Option α} :
      Step ⟨waiting, inHand⟩ [] [] ⟨none, inHand⟩

/-- Several steps, with all they take in and are done with. -/
inductive Steps (ch : Channel α) : List α → List α → Channel α → Prop
  | refl : Steps ch [] [] ch
  | snoc {items finished items' finished' : List α} {ch' ch'' : Channel α}
      (h : Steps ch items finished ch') (hstep : Step ch' items' finished' ch'') :
      Steps ch (items ++ items') (finished ++ finished') ch''

theorem Step.steps (h : Step ch items finished ch') : Steps ch items finished ch' := .snoc .refl h

/-- Nothing goes through a shut channel. -/
theorem Steps.of_shut (h : Steps (shut : Channel α) items finished ch') :
    items = [] ∧ finished = [] ∧ ch' = shut := by
  induction h with
  | refl => exact ⟨rfl, rfl, rfl⟩
  | snoc _ hstep ih =>
      obtain ⟨rfl, rfl, rfl⟩ := ih
      cases hstep with
      | idle => exact ⟨rfl, rfl, rfl⟩
      | close => exact ⟨rfl, rfl, rfl⟩

structure Carries (accepted done : List α) (ch : Channel α) : Prop where
  ordered : done ++ ch.held <+: accepted
  complete : ch.waiting.isSome = true → done ++ ch.held = accepted

theorem carries_shut : Carries [] [] (shut : Channel α) :=
  ⟨List.prefix_refl _, fun h => by cases h⟩

theorem carries_open : Carries [] [] (⟨some [], none⟩ : Channel α) :=
  ⟨List.prefix_refl _, fun _ => rfl⟩

/-- What is done with came in first. -/
theorem Carries.done_prefix (h : Carries accepted done ch) : done <+: accepted :=
  (List.prefix_append _ _).trans h.ordered

theorem Carries.step (h : Carries accepted done ch) (hstep : Step ch items finished ch') :
    Carries (accepted ++ items) (done ++ finished) ch' := by
  cases hstep with
  | idle =>
      rw [List.append_nil, List.append_nil]
      exact h
  | @accept line inHand =>
      have hall := h.complete rfl
      have heq : (done ++ []) ++ held ⟨some (line ++ items), inHand⟩ = accepted ++ items := by
        rw [← hall, List.append_nil]
        simp only [held, Option.getD_some, List.append_assoc]
      exact ⟨heq ▸ List.prefix_refl _, fun _ => heq⟩
  | @take item line =>
      rw [List.append_nil, List.append_nil]
      exact ⟨h.ordered, fun _ => h.complete rfl⟩
  | @finish waiting item =>
      have heq : (done ++ [item]) ++ held ⟨waiting, none⟩ =
          done ++ held ⟨waiting, some item⟩ := by
        rw [List.append_assoc]
        rfl
      rw [List.append_nil]
      exact ⟨heq ▸ h.ordered, fun hopen => heq.trans (h.complete hopen)⟩
  | @close waiting inHand =>
      rw [List.append_nil, List.append_nil]
      refine ⟨List.IsPrefix.trans ?_ h.ordered, fun hopen => by cases hopen⟩
      have heq : done ++ held ⟨waiting, inHand⟩ =
          (done ++ held ⟨none, inHand⟩) ++ waiting.getD [] := by
        simp only [held, Option.getD_none, List.append_nil, List.append_assoc]
      rw [heq]
      exact List.prefix_append _ _

theorem Carries.steps (h : Carries accepted done ch) (hsteps : Steps ch items finished ch') :
    Carries (accepted ++ items) (done ++ finished) ch' := by
  induction hsteps with
  | refl =>
      rw [List.append_nil, List.append_nil]
      exact h
  | snoc _ hstep ih =>
      rw [← List.append_assoc, ← List.append_assoc]
      exact ih.step hstep

end Channel

end Lib
