import Mathlib.Data.Finset.Card
import Masterserver.Lib.Dict

/-!
# One dict over another

Items are written into a dict one after the other: the last value written
under a key counts, and a key stands where it was first written. So the first
keys of a dict that was made from two lists are those of the first list, and
the second list shows there as far as the first leaves room or has its keys.
-/

namespace Lib.Dict

universe u v

variable {κ : Type u} {α : Type v} [DecidableEq κ] {d : Dict κ α} {k : κ} {v : α}
variable {items : List (κ × α)}

/-- `d.update(items)`. -/
def setAll (items : List (κ × α)) (d : Dict κ α) : Dict κ α :=
  items.foldl (fun d item => d.set item.1 item.2) d

theorem setAll_append (items items' : List (κ × α)) (d : Dict κ α) :
    setAll (items ++ items') d = setAll items' (setAll items d) := List.foldl_append

theorem get?_setAll (h : (setAll items d).get? k = some v) :
    (k, v) ∈ items ∨ k ∉ items.map Prod.fst ∧ d.get? k = some v := by
  induction items generalizing d with
  | nil => exact .inr ⟨nofun, h⟩
  | cons item rest ih =>
      obtain hrest | ⟨hnot, hget⟩ := ih (d := d.set item.1 item.2) h
      · exact .inl (List.mem_cons_of_mem _ hrest)
      · rw [get?_set] at hget
        split at hget
        · next heq =>
            cases hget
            subst heq
            exact .inl (List.mem_cons_self ..)
        · next hne =>
            refine .inr ⟨fun hmem => ?_, hget⟩
            rcases List.mem_cons.mp hmem with heq | hmem
            · exact hne heq
            · exact hnot hmem

theorem get?_setAll_empty (h : (setAll items ∅).get? k = some v) : (k, v) ∈ items := by
  obtain hmem | ⟨-, hget⟩ := get?_setAll h
  · exact hmem
  · cases hget

theorem get?_setAll_of_notMem (h : k ∉ items.map Prod.fst) :
    (setAll items d).get? k = d.get? k := by
  induction items generalizing d with
  | nil => rfl
  | cons item rest ih =>
      rw [List.map_cons, List.mem_cons, not_or] at h
      exact (ih h.2).trans (get?_set_of_ne _ _ h.1)

theorem get?_setAll_of_mem (hnodup : (items.map Prod.fst).Nodup) (h : (k, v) ∈ items) :
    (setAll items d).get? k = some v := by
  induction items generalizing d with
  | nil => cases h
  | cons item rest ih =>
      obtain ⟨hitem, hrest⟩ := List.nodup_cons.mp hnodup
      rcases List.mem_cons.mp h with rfl | h
      · exact (get?_setAll_of_notMem hitem).trans (get?_set_self _ _ _)
      · exact ih hrest h

theorem keys_setAll (items : List (κ × α)) (d : Dict κ α) :
    ∃ new, (setAll items d).keys = d.keys ++ new ∧
      ∀ k, k ∈ new ↔ k ∈ items.map Prod.fst ∧ k ∉ d.keys := by
  induction items generalizing d with
  | nil =>
      refine ⟨[], (List.append_nil _).symm, fun k => ⟨nofun, fun h => ?_⟩⟩
      exact absurd h.1 List.not_mem_nil
  | cons item rest ih =>
      obtain ⟨new, hkeys, hnew⟩ := ih (d.set item.1 item.2)
      rw [keys_set] at hkeys
      simp only [mem_keys_set, not_or] at hnew
      by_cases hold : item.1 ∈ d.keys
      · rw [if_pos hold] at hkeys
        refine ⟨new, hkeys, fun k => ?_⟩
        rw [hnew, List.map_cons, List.mem_cons]
        constructor
        · intro h
          exact ⟨.inr h.1, h.2.2⟩
        · intro ⟨hmem, hk⟩
          have hne : k ≠ item.1 := fun heq => hk (heq ▸ hold)
          exact ⟨hmem.resolve_left hne, hne, hk⟩
      · rw [if_neg hold, List.append_assoc] at hkeys
        refine ⟨item.1 :: new, hkeys, fun k => ?_⟩
        rw [List.mem_cons, hnew, List.map_cons, List.mem_cons]
        by_cases heq : k = item.1
        · subst heq
          simp [hold]
        · simp [heq]

theorem keys_setAll_of_nodup (hnodup : (items.map Prod.fst).Nodup) :
    (setAll items ∅).keys = items.map Prod.fst := by
  have hall : ∀ (items : List (κ × α)) (d : Dict κ α), (items.map Prod.fst).Nodup →
      (∀ k ∈ items.map Prod.fst, k ∉ d.keys) →
      (setAll items d).keys = d.keys ++ items.map Prod.fst := by
    intro items
    induction items with
    | nil => exact fun d _ _ => (List.append_nil _).symm
    | cons item rest ih =>
        intro d hnodup hfresh
        obtain ⟨hitem, hrest⟩ := List.nodup_cons.mp hnodup
        have hold : item.1 ∉ d.keys := hfresh item.1 (List.mem_cons_self ..)
        refine (ih (d.set item.1 item.2) hrest fun k hk hmem => ?_).trans ?_
        · rcases mem_keys_set.mp hmem with heq | hmem
          · exact hitem (heq ▸ hk)
          · exact hfresh k (List.mem_cons_of_mem _ hk) hmem
        · rw [keys_set, if_neg hold, List.append_assoc]
          rfl
  exact hall items ∅ hnodup fun _ _ => List.not_mem_nil

/-- Where the second list shows among the first keys. -/
theorem exists_mem_take_keys {items items' : List (κ × α)} {n : Nat}
    (hnodup : (items.map Prod.fst).Nodup) :
    (∃ k ∈ (setAll (items ++ items') ∅).keys.take n, k ∈ items'.map Prod.fst) ↔
      ∃ k ∈ items'.map Prod.fst, items.length < n ∨ k ∈ (items.map Prod.fst).take n := by
  obtain ⟨new, hkeys, hnew⟩ := keys_setAll items' (setAll items ∅)
  rw [keys_setAll_of_nodup hnodup] at hkeys hnew
  rw [setAll_append, hkeys, List.take_append, List.length_map]
  constructor
  · intro ⟨k, hk, hmem⟩
    rcases List.mem_append.mp hk with hfirst | hrest
    · exact ⟨k, hmem, .inr hfirst⟩
    · refine ⟨k, hmem, .inl ?_⟩
      have hpos := List.length_pos_of_mem hrest
      rw [List.length_take] at hpos
      omega
  · intro ⟨k, hmem, hplace⟩
    rcases hplace with hroom | hfirst
    · by_cases hk : k ∈ items.map Prod.fst
      · refine ⟨k, List.mem_append_left _ ?_, hmem⟩
        rw [List.take_of_length_le (by rw [List.length_map]; omega)]
        exact hk
      · cases hlist : new with
        | nil =>
            have hin := (hnew k).mpr ⟨hmem, hk⟩
            rw [hlist] at hin
            cases hin
        | cons first rest =>
            have hfirst := (hnew first).mp (by rw [hlist]; exact List.mem_cons_self ..)
            refine ⟨first, List.mem_append_right _ ?_, hfirst.1⟩
            obtain ⟨room, hroom'⟩ : ∃ room, n - items.length = room + 1 :=
              ⟨n - items.length - 1, by omega⟩
            rw [hroom', List.take_succ_cons]
            exact List.mem_cons_self ..
    · exact ⟨k, List.mem_append_left _ hfirst, hmem⟩

/-- Different keys with values that pass a test are that many values that do. -/
theorem card_le_countP {d : Dict κ α} {p : α → Bool} {s : Finset κ}
    (h : ∀ k ∈ s, ∃ v, d.get? k = some v ∧ p v = true) : s.card ≤ d.values.countP p := by
  have hsize : d.values.countP p = (d.filter fun _ v => p v).size := by
    rw [values, List.countP_map, size, filter, List.countP_eq_length_filter]
    rfl
  have hkeys : s ⊆ (d.filter fun _ v => p v).keys.toFinset := by
    intro k hk
    obtain ⟨v, hv, hp⟩ := h k hk
    exact List.mem_toFinset.mpr (mem_keys.mpr ⟨v, get?_filter_eq_some.mpr ⟨hv, hp⟩⟩)
  rw [hsize, ← size_keys]
  exact (Finset.card_le_card hkeys).trans (List.toFinset_card_le _)

end Lib.Dict
