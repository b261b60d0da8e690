import Mathlib.Data.List.Forall2

/-!
# Computations that may raise

What a sequence of fallible steps returned, read backwards: each step returned
something and the rest went on from it. And what it may raise: `Raises` says
that every error of a computation is of a kind, and composes step by step.
-/

namespace Lib

variable {ε α β : Type}

theorem bind_eq_ok {x : Except ε α} {f : α → Except ε β} {b : β} :
    (x >>= f) = .ok b ↔ ∃ a, x = .ok a ∧ f a = .ok b := by
  cases x <;> simp [bind, Except.bind]

theorem bind_eq_error {x : Except ε α} {f : α → Except ε β} {e : ε} :
    (x >>= f) = .error e ↔ x = .error e ∨ ∃ a, x = .ok a ∧ f a = .error e := by
  cases x <;> simp [bind, Except.bind]

theorem map_eq_ok {x : Except ε α} {f : α → β} {b : β} :
    f <$> x = .ok b ↔ ∃ a, x = .ok a ∧ f a = b := by
  cases x <;> simp [Functor.map, Except.map]

/-- A loop returns what each of its rounds does. -/
theorem mapM_eq_ok {f : α → Except ε β} {l : List α} {results : List β} :
    l.mapM f = .ok results ↔ List.Forall₂ (fun a b => f a = .ok b) l results := by
  induction l generalizing results with
  | nil =>
      rw [List.mapM_nil, List.forall₂_nil_left_iff]
      constructor
      · intro h
        cases h
        rfl
      · rintro rfl
        rfl
  | cons a rest ih =>
      rw [List.mapM_cons, bind_eq_ok, List.forall₂_cons_left_iff]
      constructor
      · rintro ⟨b, hb, h⟩
        obtain ⟨bs, hbs, h⟩ := bind_eq_ok.mp h
        cases h
        exact ⟨b, bs, hb, ih.mp hbs, rfl⟩
      · rintro ⟨b, bs, hb, hbs, rfl⟩
        exact ⟨b, hb, bind_eq_ok.mpr ⟨bs, ih.mpr hbs, rfl⟩⟩

/-- Every error of a computation is of this kind. -/
def Raises (P : ε → Prop) (x : Except ε α) : Prop := ∀ e, x = .error e → P e

variable {P : ε → Prop}

theorem raises_ok (a : α) : Raises P (.ok a : Except ε α) := nofun

theorem raises_pure (a : α) : Raises P (pure a : Except ε α) := nofun

theorem raises_error {e : ε} (h : P e) : Raises P (.error e : Except ε α) := by
  intro e' he
  cases he
  exact h

theorem Raises.bind {x : Except ε α} {f : α → Except ε β} (hx : Raises P x)
    (hf : ∀ a, Raises P (f a)) : Raises P (x >>= f) := by
  intro e he
  obtain hx' | ⟨a, -, ha⟩ := bind_eq_error.mp he
  · exact hx e hx'
  · exact hf a e ha

/-- What comes next takes a pair apart. -/
theorem Raises.bindPair {γ : Type} {x : Except ε (α × β)} {f : α × β → Except ε γ}
    (hx : Raises P x) (hf : ∀ a b, Raises P (f (a, b))) : Raises P (x >>= f) :=
  hx.bind fun pair => hf pair.1 pair.2

/-- A check that raises if it fails, and what comes after it. -/
theorem Raises.unless {c : Prop} [Decidable c] {e : ε} {f : Unit → Except ε α} (he : P e)
    (h : Raises P (f ())) :
    Raises P (if c then ((.error e : Except ε Unit) >>= f) else f ()) := by
  split
  · exact (raises_error he).bind fun _ => h
  · exact h

theorem Raises.map {x : Except ε α} (hx : Raises P x) (f : α → β) : Raises P (f <$> x) := by
  intro e he
  cases x with
  | error e' => exact hx e (by cases he; rfl)
  | ok a => cases he

end Lib
