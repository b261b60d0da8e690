import Mathlib.Data.List.Induction

/-!
# What has held since

The past-time operator over a history, oldest entry first: `Since hold start`
says that some entry of the history has the one property and every later one
the other. It is decided by its last entry and what held before it,
`since_concat_iff`, so a value that a program keeps from one step to the next
is tied to the history that accounts for it one step at a time.
-/

namespace Lib

variable {α : Type*} {hold hold' start start' : α → Prop} {history : List α} {a : α}

/-- Some entry starts it, and all the later ones keep it up. -/
def Since (hold start : α → Prop) (history : List α) : Prop :=
  ∃ before first later, history = before ++ first :: later ∧ start first ∧
    ∀ entry ∈ later, hold entry

theorem since_concat_iff :
    Since hold start (history ++ [a]) ↔ start a ∨ hold a ∧ Since hold start history := by
  constructor
  · rintro ⟨before, first, later, heq, hstart, hlater⟩
    cases later using List.reverseRecOn with
    | nil =>
        obtain ⟨-, hlast⟩ := List.append_inj' heq rfl
        cases hlast
        exact .inl hstart
    | append_singleton later last =>
        rw [← List.cons_append, ← List.append_assoc] at heq
        obtain ⟨rfl, hlast⟩ := List.append_inj' heq rfl
        cases hlast
        have hrest : ∀ entry ∈ later, hold entry := fun entry hentry =>
          hlater entry (List.mem_append_left _ hentry)
        exact .inr ⟨hlater a (List.mem_append_right _ List.mem_cons_self),
          before, first, later, rfl, hstart, hrest⟩
  · rintro (hstart | ⟨hhold, before, first, later, rfl, hstart, hlater⟩)
    · exact ⟨history, a, [], rfl, hstart, fun _ h => absurd h List.not_mem_nil⟩
    · refine ⟨before, first, later ++ [a], by simp, hstart, ?_⟩
      intro entry hentry
      obtain hentry | hentry := List.mem_append.mp hentry
      · exact hlater entry hentry
      · rw [List.mem_singleton.mp hentry]
        exact hhold

theorem Since.mono (h : Since hold start history) (hstart : ∀ a, start a → start' a) :
    Since hold start' history := by
  obtain ⟨before, first, later, heq, hfirst, hlater⟩ := h
  exact ⟨before, first, later, heq, hstart first hfirst, hlater⟩

/-- Whatever has held since, there was a start. -/
theorem Since.exists_start (h : Since hold start history) : ∃ a ∈ history, start a := by
  obtain ⟨before, first, later, rfl, hfirst, -⟩ := h
  exact ⟨first, by simp, hfirst⟩

end Lib
