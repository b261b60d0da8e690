import Masterserver.Lib.Sorting
import Mathlib.Data.List.Nodup

/-!
# A ranking of a set

The set is listed in increasing order and then ranked by a key, so what the
ranking is does not depend on how the set is walked, also where keys tie. One
element more or less leaves the order of the others: the sort is stable, so it
commutes with a filter, whatever the key.
-/

namespace Lib

universe u v

variable {α : Type u} {δ : Type v}

/-! ## Sorting what is left -/

theorem orderedInsert_of_forall {r : α → α → Prop} [DecidableRel r] {a : α} {l : List α}
    (h : ∀ b ∈ l, r a b) : l.orderedInsert r a = a :: l := by
  cases l with
  | nil => rfl
  | cons b rest => exact List.orderedInsert_cons_of_le r rest (h b (List.mem_cons_self ..))

theorem filter_orderedInsert {r : α → α → Prop} [DecidableRel r] [IsTrans α r] (p : α → Bool)
    (a : α) {l : List α} (h : l.Pairwise r) :
    (l.orderedInsert r a).filter p =
      if p a then (l.filter p).orderedInsert r a else l.filter p := by
  induction l with
  | nil => cases hp : p a <;> simp [hp]
  | cons b rest ih =>
      obtain ⟨hb, hrest⟩ := List.pairwise_cons.mp h
      by_cases hab : r a b
      · have hall : ∀ c ∈ (b :: rest).filter p, r a c := by
          intro c hc
          rcases List.mem_cons.mp (List.mem_of_mem_filter hc) with rfl | hmem
          · exact hab
          · exact IsTrans.trans a b c hab (hb c hmem)
        rw [List.orderedInsert_cons_of_le r rest hab, orderedInsert_of_forall hall,
          List.filter_cons]
      · rw [List.orderedInsert_of_not_le r rest hab, List.filter_cons, ih hrest, List.filter_cons]
        cases hpb : p b with
        | false => rfl
        | true =>
            cases hpa : p a with
            | false => rfl
            | true => exact (List.orderedInsert_of_not_le r _ hab).symm

section

variable [LinearOrder δ] (key : α → δ)

local instance isTransKey : IsTrans α fun a b => key b ≤ key a := ⟨fun _ _ _ hab hbc => hbc.trans hab⟩

local instance totalKey : Std.Total fun a b => key b ≤ key a := ⟨fun a b => le_total (key b) (key a)⟩

theorem pairwise_rankedBy (l : List α) : (rankedBy key l).Pairwise fun a b => key b ≤ key a :=
  List.pairwise_insertionSort _ l

/-- The sort is stable. -/
theorem filter_rankedBy (p : α → Bool) (l : List α) :
    (rankedBy key l).filter p = rankedBy key (l.filter p) := by
  induction l with
  | nil => rfl
  | cons a rest ih =>
      have hinsert : (rankedBy key (a :: rest)).filter p = if p a then
          ((rankedBy key rest).filter p).orderedInsert (fun a b => key b ≤ key a) a
            else (rankedBy key rest).filter p :=
        filter_orderedInsert p a (pairwise_rankedBy key rest)
      rw [hinsert, ih, List.filter_cons]
      cases p a <;> rfl

theorem erase_rankedBy [DecidableEq α] {l : List α} (h : l.Nodup) (a : α) :
    (rankedBy key l).erase a = rankedBy key (l.erase a) := by
  rw [h.erase_eq_filter, (nodup_rankedBy h).erase_eq_filter]
  exact filter_rankedBy key _ l

@[simp] theorem length_rankedBy (l : List α) : (rankedBy key l).length = l.length :=
  List.length_insertionSort _ l

end

/-! ## The first of a list, and one element less -/

section

variable [DecidableEq α] {l : List α} {a b : α} {k : Nat}

/-- Who is not among the first is not missed by them. -/
theorem take_erase_of_notMem (h : a ∉ l.take k) : (l.erase a).take k = l.take k := by
  induction l generalizing k with
  | nil => rfl
  | cons b rest ih =>
      cases k with
      | zero => rfl
      | succ k =>
          rw [List.take_succ_cons, List.mem_cons, not_or] at h
          rw [List.erase_cons_tail (by simpa using Ne.symm h.1), List.take_succ_cons,
            List.take_succ_cons, ih h.2]

/-- Who is among the first stays there if another goes. -/
theorem mem_take_erase (h : b ∈ l.take k) (hne : b ≠ a) : b ∈ (l.erase a).take k := by
  induction l generalizing k with
  | nil =>
      rw [List.take_nil] at h
      cases h
  | cons c rest ih =>
      cases k with
      | zero => cases h
      | succ k =>
          by_cases hc : c = a
          · subst hc
            rw [List.erase_cons_head]
            rcases List.mem_cons.mp h with heq | hmem
            · exact absurd heq hne
            · exact List.take_subset_take_left _ (Nat.le_succ k) hmem
          · rw [List.erase_cons_tail (by simpa using hc), List.take_succ_cons]
            rcases List.mem_cons.mp h with heq | hmem
            · rw [heq]
              exact List.mem_cons_self ..
            · exact List.mem_cons_of_mem _ (ih hmem)

end

/-! ## How the set is walked -/

section

variable [LinearOrder α] {s : Finset α}

/-- The elements of a set, in any order, sort to the same list. -/
theorem sorted_of_listing {l : List α} (hnodup : l.Nodup) (h : ∀ a, a ∈ l ↔ a ∈ s) :
    l.insertionSort (· ≤ ·) = sorted s := by
  have hs : s = ⟨(l : Multiset α), Multiset.coe_nodup.mpr hnodup⟩ := by
    ext a
    exact (h a).symm
  rw [hs]
  rfl

theorem pairwise_sorted (s : Finset α) : (sorted s).Pairwise (· ≤ ·) := by
  have hlisting : (sorted s).insertionSort (· ≤ ·) = sorted s :=
    sorted_of_listing (nodup_sorted s) fun _ => mem_sorted
  rw [← hlisting]
  exact List.pairwise_insertionSort _ _

theorem sorted_erase (s : Finset α) (a : α) : sorted (s.erase a) = (sorted s).erase a := by
  have hlisting := sorted_of_listing (s := s.erase a) ((nodup_sorted s).erase a) fun b => by
    rw [(nodup_sorted s).mem_erase_iff, mem_sorted, Finset.mem_erase]
  rw [← hlisting]
  exact List.Pairwise.insertionSort_eq ((pairwise_sorted s).sublist List.erase_sublist)

end

end Lib
