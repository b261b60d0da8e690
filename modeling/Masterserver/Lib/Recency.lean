import Masterserver.Lib.Dict
import Masterserver.Lib.Window
import Mathlib.Data.Finset.Card

/-!
# The most recently used

`uses.dedup` keeps the last occurrence of everything in `uses`, so it lists the
distinct items in the order of their last use. A table in which a key that is
used moves to the end, and from which the keys at the front go while there are
too many, has the end of that list for its keys, `lastOf_move`: what has gone
is older than what is there, whichever key comes back.
-/

namespace Lib

universe u v

variable {κ : Type u} {α : Type v} [DecidableEq κ] {k : κ} {n : Nat}

/-- The item used last comes last, and has no earlier place. -/
theorem dedup_concat (uses : List κ) (k : κ) :
    (uses ++ [k]).dedup = uses.dedup.erase k ++ [k] := by
  induction uses with
  | nil => rfl
  | cons other rest ih =>
      rw [List.cons_append, List.dedup_cons, ih, List.dedup_cons]
      by_cases hk : other = k
      · subst hk
        rw [if_pos (List.mem_append_right _ (List.mem_singleton.mpr rfl))]
        split
        · rfl
        · next hnot =>
            rw [List.erase_cons_head, List.erase_of_not_mem (mt List.mem_dedup.mp hnot)]
      · have hmem : other ∈ rest ++ [k] ↔ other ∈ rest := by
          rw [List.mem_append, List.mem_singleton, or_iff_left hk]
        simp only [hmem]
        split
        · rfl
        · rw [List.erase_cons_tail (by simpa using hk), List.cons_append]

omit [DecidableEq κ] in
/-- The end of a list, of which there is enough without what comes before. -/
theorem lastOf_append (before l : List κ) (h : before ≠ [] → n ≤ l.length) :
    lastOf n (before ++ l) = lastOf n l := by
  cases before with
  | nil => rfl
  | cons other rest =>
      have hlength := h (List.cons_ne_nil _ _)
      unfold lastOf
      rw [List.length_append, Nat.add_sub_assoc hlength, List.drop_length_add_append]

/-- Moving a key to the end of the window is moving it to the end of all. -/
theorem lastOf_move {l : List κ} (h : l.Nodup) (k : κ) :
    lastOf n ((lastOf n l).erase k ++ [k]) = lastOf n (l.erase k ++ [k]) := by
  obtain ⟨before, hbefore⟩ : lastOf n l <:+ l := List.drop_suffix _ _
  have hfull : before ≠ [] → n ≤ (lastOf n l).length := by
    intro hne
    have hlength := congrArg List.length hbefore
    have hpos := List.length_pos_iff.mpr hne
    rw [List.length_append] at hlength
    unfold lastOf at hlength ⊢
    rw [List.length_drop] at hlength ⊢
    omega
  have hsplit : l.erase k = before.erase k ++ (lastOf n l).erase k := by
    rw [← hbefore] at h
    conv_lhs => rw [← hbefore]
    rw [List.erase_append]
    split
    · next hmem =>
        have hnot : k ∉ lastOf n l := List.disjoint_of_nodup_append h hmem
        rw [List.erase_of_not_mem hnot]
    · next hnot => rw [List.erase_of_not_mem hnot]
  rw [hsplit, List.append_assoc]
  refine (lastOf_append _ _ fun hne => ?_).symm
  have hlength : (lastOf n l).length ≤ ((lastOf n l).erase k).length + 1 := by
    have := List.length_erase (a := k) (l := lastOf n l)
    split at this
    · omega
    · omega
  have hroom := hfull fun hnil => hne (by rw [hnil, List.erase_nil])
  rw [List.length_append, List.length_singleton]
  omega

namespace Dict

/-- A table of the keys used last stays one when a key is used: it is taken
out, put back at the end, and the oldest go. -/
theorem keys_recent {d : Dict κ α} {uses : List κ} (h : d.keys = lastOf n uses.dedup) (k : κ)
    (v : α) : (((d.erase k).set k v).trim n).keys = lastOf n (uses ++ [k]).dedup := by
  have hnot : k ∉ (d.erase k).keys := fun hmem => (mem_keys_erase.mp hmem).1 rfl
  have hkeys : ((d.erase k).set k v).keys = d.keys.erase k ++ [k] := by
    rw [keys_set, if_neg hnot, keys_erase]
  rw [keys_trim, hkeys, h, dedup_concat]
  exact lastOf_move (List.nodup_dedup uses) k

end Dict

end Lib
