import Mathlib.Data.List.Sort
import Mathlib.Order.Bounds.Basic

/-!
# Order statistics

`orderStatistic values i` is the item at place `i` of the sorted list. It is
known by what it lies below: it is at most `bound` if and only if more than
`i` of the items are, `orderStatistic_le_iff`. Neither the order of the items
nor how often one is repeated plays a part in that.
-/

namespace Lib

universe u

variable {α : Type u} [LinearOrder α] {values values' : List α} {bound : α}

/-- How many items are at most `bound`. -/
def countLe (values : List α) (bound : α) : Nat := values.countP fun value => value ≤ bound

theorem countLe_eq_zero (h : ∀ value ∈ values, ¬ value ≤ bound) : countLe values bound = 0 := by
  unfold countLe
  rw [List.countP_eq_zero]
  intro value hvalue
  simpa using h value hvalue

theorem countLe_cons (value : α) (rest : List α) :
    countLe (value :: rest) bound = countLe rest bound + if value ≤ bound then 1 else 0 := by
  unfold countLe
  rw [List.countP_cons]
  simp only [decide_eq_true_eq]

theorem countLe_perm (h : values.Perm values') : countLe values bound = countLe values' bound :=
  h.countP_eq _

/-- Fewer items are below a bound once the items have grown. -/
theorem countLe_le_of_forall₂ (h : List.Forall₂ (· ≤ ·) values values') :
    countLe values' bound ≤ countLe values bound := by
  induction h with
  | nil => exact le_rfl
  | @cons value value' rest rest' hle _ ih =>
      rw [countLe_cons, countLe_cons]
      by_cases hvalue : value' ≤ bound
      · rw [if_pos hvalue, if_pos (hle.trans hvalue)]
        omega
      · rw [if_neg hvalue]
        omega

/-- In a sorted list the items that are at most `bound` come first. -/
theorem get_le_iff (h : values.Pairwise (· ≤ ·)) (i : Fin values.length) :
    values.get i ≤ bound ↔ i < countLe values bound := by
  induction values with
  | nil => exact i.elim0
  | cons value rest ih =>
      obtain ⟨hfirst, hrest⟩ := List.pairwise_cons.mp h
      obtain ⟨i, hi⟩ := i
      rw [countLe_cons]
      by_cases hvalue : value ≤ bound
      · rw [if_pos hvalue]
        cases i with
        | zero => exact iff_of_true hvalue (Nat.succ_pos _)
        | succ i =>
            have hi' : i < rest.length := by simpa using hi
            exact (ih hrest ⟨i, hi'⟩).trans Nat.succ_lt_succ_iff.symm
      · have hnone : ∀ other ∈ rest, ¬ other ≤ bound := by
          intro other hother hle
          exact hvalue ((hfirst other hother).trans hle)
        rw [if_neg hvalue, countLe_eq_zero hnone]
        refine iff_of_false (fun hle => ?_) (Nat.not_lt_zero i)
        have hmem := List.get_mem (value :: rest) ⟨i, hi⟩
        rcases List.mem_cons.mp hmem with heq | hmem
        · exact hvalue (heq ▸ hle)
        · exact hnone _ hmem hle

/-- The item at a place of the sorted list. -/
def orderStatistic (values : List α) (i : Fin values.length) : α :=
  (values.insertionSort (· ≤ ·)).get
    (i.cast (List.length_insertionSort (· ≤ ·) values).symm)

theorem orderStatistic_mem (values : List α) (i : Fin values.length) :
    orderStatistic values i ∈ values :=
  (List.mem_insertionSort (· ≤ ·)).mp (List.get_mem _ _)

theorem orderStatistic_le_iff (i : Fin values.length) :
    orderStatistic values i ≤ bound ↔ i < countLe values bound := by
  rw [← countLe_perm (List.perm_insertionSort (· ≤ ·) values)]
  exact get_le_iff (List.pairwise_insertionSort (· ≤ ·) values) _

end Lib
