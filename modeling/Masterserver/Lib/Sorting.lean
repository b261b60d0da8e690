import Mathlib.Data.Finset.Card
import Mathlib.Data.List.Sort

/-!
# Sorting by insertion

`sorted` lists a finite set in increasing order, and `rankedBy` orders a list
by a key, largest first, keeping the given order between equal keys. Both go
through insertion sort, which the kernel evaluates, so a closed instance can
be checked by computation.
-/

namespace Lib

universe u v

variable {α : Type u} {δ : Type v} [LinearOrder α]

/-- `sorted(s)`. -/
def sorted (s : Finset α) : List α :=
  s.val.liftOn (fun l => l.insertionSort (· ≤ ·)) fun l l' h =>
    (((List.perm_insertionSort _ l).trans h).trans
      (List.perm_insertionSort _ l').symm).eq_of_sortedLE
      (List.sortedLE_iff_pairwise.mpr (List.pairwise_insertionSort _ l))
      (List.sortedLE_iff_pairwise.mpr (List.pairwise_insertionSort _ l'))

theorem coe_sorted (s : Finset α) : (sorted s : Multiset α) = s.val := by
  obtain ⟨m, hm⟩ := s
  induction m using Quotient.inductionOn with
  | h l => exact Multiset.coe_eq_coe.mpr (List.perm_insertionSort _ l)

@[simp] theorem mem_sorted {s : Finset α} {a : α} : a ∈ sorted s ↔ a ∈ s := by
  rw [← Multiset.mem_coe, coe_sorted, Finset.mem_val]

theorem nodup_sorted (s : Finset α) : (sorted s).Nodup := by
  rw [← Multiset.coe_nodup, coe_sorted]
  exact s.nodup

@[simp] theorem length_sorted (s : Finset α) : (sorted s).length = s.card := by
  rw [← Multiset.coe_card, coe_sorted, Finset.card_val]

/-- `sorted(l, key=key, reverse=True)`: the larger key first, equal keys in the
order of `l`. -/
def rankedBy [LinearOrder δ] (key : α → δ) (l : List α) : List α :=
  l.insertionSort fun a b => key b ≤ key a

omit [LinearOrder α] in
@[simp] theorem mem_rankedBy [LinearOrder δ] {key : α → δ} {l : List α} {a : α} :
    a ∈ rankedBy key l ↔ a ∈ l := List.mem_insertionSort _

omit [LinearOrder α] in
theorem nodup_rankedBy [LinearOrder δ] {key : α → δ} {l : List α} (h : l.Nodup) :
    (rankedBy key l).Nodup := ((List.perm_insertionSort _ l).nodup_iff).mpr h

end Lib
