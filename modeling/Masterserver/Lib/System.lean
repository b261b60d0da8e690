import Mathlib.Data.List.Basic

/-!
# Transition systems and their runs

A system is a set of initial states and a labelled step relation. A `Trace`
pairs a reachable state with the labels of the run that led there, oldest
first, for results that speak about what happened before; results about the
state alone use `Reachable` and the invariant rule.

`restrict` cuts the steps down to those that meet a condition on the state
they start from and their label. It is how a result about the runs all of
whose steps meet a condition is stated. A `machine` is a system in which a
label has one outcome; its runs can be computed.

`recorded` runs a system beside a record of what its steps were, for results
that count or date them.
-/

namespace Lib

universe u v w

structure System (σ : Type u) (ε : Type v) where
  init : σ → Prop
  step : σ → ε → σ → Prop

namespace System

variable {σ : Type u} {ε : Type v} (S : System σ ε)

inductive Trace : List ε → σ → Prop
  | start {s : σ} : S.init s → Trace [] s
  | snoc {es : List ε} {s s' : σ} {e : ε} :
      Trace es s → S.step s e s' → Trace (es ++ [e]) s'

def Reachable (s : σ) : Prop := ∃ es, S.Trace es s

/-- The second state comes after the first in some run. -/
inductive Leads : σ → σ → Prop
  | refl (s : σ) : Leads s s
  | next {s s' s'' : σ} {e : ε} : Leads s s' → S.step s' e s'' → Leads s s''

/-- The runs whose every step meets a condition. -/
def restrict (C : σ → ε → Prop) : System σ ε where
  init := S.init
  step s e s' := C s e ∧ S.step s e s'

def machine (init : σ → Prop) (next : σ → ε → σ) : System σ ε where
  init := init
  step s e s' := s' = next s e

/-- The system beside what `f` notes of each of its steps. -/
def recorded {ω : Type w} (f : σ → ε → Option ω) : System (σ × List ω) ε where
  init p := S.init p.1 ∧ p.2 = []
  step p e p' := S.step p.1 e p'.1 ∧ p'.2 = p.2 ++ (f p.1 e).toList

/-- What is noted along the labels. -/
def notes {ω : Type w} (f : σ → ε → Option ω) (next : σ → ε → σ) : σ → List ε → List ω
  | _, [] => []
  | s, e :: es => (f s e).toList ++ notes f next (next s e) es

/-- Every step of the run from `s` along the labels meets the condition. -/
def Meets (C : σ → ε → Prop) (next : σ → ε → σ) : σ → List ε → Prop
  | _, [] => True
  | s, e :: es => C s e ∧ Meets C next (next s e) es

def decidableMeets (C : σ → ε → Prop) [∀ s e, Decidable (C s e)] (next : σ → ε → σ) :
    (s : σ) → (es : List ε) → Decidable (Meets C next s es)
  | _, [] => isTrue trivial
  | s, e :: es =>
      have := decidableMeets C next (next s e) es
      inferInstanceAs (Decidable (_ ∧ _))

instance {C : σ → ε → Prop} [∀ s e, Decidable (C s e)] {next : σ → ε → σ} (s : σ)
    (es : List ε) : Decidable (Meets C next s es) := decidableMeets C next s es

variable {S}

theorem Reachable.start {s : σ} (h : S.init s) : S.Reachable s := ⟨[], .start h⟩

theorem Reachable.next {s s' : σ} {e : ε} (h : S.Reachable s) (hs : S.step s e s') :
    S.Reachable s' := by
  obtain ⟨es, htr⟩ := h
  exact ⟨es ++ [e], .snoc htr hs⟩

theorem Trace.reachable {es : List ε} {s : σ} (h : S.Trace es s) : S.Reachable s := ⟨es, h⟩

/-- An invariant holds initially and every step keeps it. -/
theorem Reachable.invariant {P : σ → Prop} (h0 : ∀ s, S.init s → P s)
    (hstep : ∀ s e s', P s → S.step s e s' → P s') {s : σ} (h : S.Reachable s) : P s := by
  obtain ⟨es, htr⟩ := h
  induction htr with
  | start hi => exact h0 _ hi
  | snoc _ hs ih => exact hstep _ _ _ ih hs

/-- An invariant of the run so far together with the state it led to. -/
theorem Trace.invariant {P : List ε → σ → Prop} (h0 : ∀ s, S.init s → P [] s)
    (hstep : ∀ es s e s', P es s → S.step s e s' → P (es ++ [e]) s') {es : List ε} {s : σ}
    (h : S.Trace es s) : P es s := by
  induction h with
  | start hi => exact h0 _ hi
  | snoc _ hs ih => exact hstep _ _ _ _ ih hs

theorem Leads.reachable {s s' : σ} (h : S.Leads s s') (hs : S.Reachable s) : S.Reachable s' := by
  induction h with
  | refl => exact hs
  | next _ hstep ih => exact ih.next hstep

/-- A preorder that every step goes up in. -/
theorem Leads.monotone {R : σ → σ → Prop} (hrefl : ∀ s, R s s)
    (htrans : ∀ s s' s'', R s s' → R s' s'' → R s s'')
    (hstep : ∀ s e s', S.step s e s' → R s s') {s s' : σ} (h : S.Leads s s') : R s s' := by
  induction h with
  | refl => exact hrefl _
  | next _ hs ih => exact htrans _ _ _ ih (hstep _ _ _ hs)

theorem Reachable.of_restrict {C : σ → ε → Prop} {s : σ} (h : (S.restrict C).Reachable s) :
    S.Reachable s :=
  h.invariant (fun _ hi => .start hi) fun _ _ _ hr hs => hr.next hs.2

theorem Reachable.restrict_mono {C D : σ → ε → Prop} (hCD : ∀ s e, C s e → D s e) {s : σ}
    (h : (S.restrict C).Reachable s) : (S.restrict D).Reachable s :=
  h.invariant (fun _ hi => .start hi) fun s e _ hr hs => hr.next ⟨hCD s e hs.1, hs.2⟩

/-- Two restrictions are one. -/
theorem Reachable.restrict_restrict {C D : σ → ε → Prop} {s : σ}
    (h : (S.restrict fun s e => C s e ∧ D s e).Reachable s) :
    ((S.restrict C).restrict D).Reachable s :=
  h.invariant (fun _ hi => .start hi) fun _ _ _ hr hs => hr.next ⟨hs.1.2, hs.1.1, hs.2⟩

theorem meets_append {C : σ → ε → Prop} {next : σ → ε → σ} {s : σ} (es es' : List ε) :
    Meets C next s (es ++ es') ↔ Meets C next s es ∧ Meets C next (es.foldl next s) es' := by
  induction es generalizing s with
  | nil => exact ⟨fun h => ⟨trivial, h⟩, fun h => h.2⟩
  | cons e rest ih =>
      rw [List.cons_append, Meets, Meets, ih, and_assoc]
      rfl

/-- A condition on every step is one at every place the labels are cut. -/
theorem meets_iff_forall {C : σ → ε → Prop} {next : σ → ε → σ} {s : σ} {es : List ε} :
    Meets C next s es ↔
      ∀ before e after, es = before ++ e :: after → C (before.foldl next s) e := by
  constructor
  · rintro h before e after rfl
    exact ((meets_append before (e :: after)).mp h).2.1
  · intro h
    induction es generalizing s with
    | nil => exact trivial
    | cons e rest ih =>
        refine ⟨h [] e rest rfl, ih ?_⟩
        rintro before e' after rfl
        exact h (e :: before) e' after rfl

/-- A step from where `P` holds keeps it exactly if it meets the condition. Then
`P` holds all along a run exactly if every step meets the condition. -/
theorem forall_prefix_iff_meets {I P : σ → Prop} {C : σ → ε → Prop} {next : σ → ε → σ}
    (hI : ∀ s e, I s → I (next s e)) (hstep : ∀ s e, I s → P s → (P (next s e) ↔ C s e))
    {s : σ} {es : List ε} (hs : I s) (h0 : P s) :
    (∀ before, before <+: es → P (before.foldl next s)) ↔ Meets C next s es := by
  induction es generalizing s with
  | nil =>
      refine iff_of_true (fun before hprefix => ?_) trivial
      rw [List.prefix_nil.mp hprefix]
      exact h0
  | cons e rest ih =>
      constructor
      · intro h
        have hnext : P (next s e) := h [e] ⟨rest, rfl⟩
        refine ⟨(hstep s e hs h0).mp hnext, (ih (hI s e hs) hnext).mp ?_⟩
        intro before hprefix
        exact h (e :: before) (List.cons_prefix_cons.mpr ⟨rfl, hprefix⟩)
      · intro ⟨hC, hrest⟩ before hprefix
        cases before with
        | nil => exact h0
        | cons e' before =>
            obtain ⟨rfl, hbefore⟩ := List.cons_prefix_cons.mp hprefix
            have hnext := (hstep s e' hs h0).mpr hC
            exact (ih (hI s e' hs) hnext).mpr hrest before hbefore

/-- Where a run of a machine leads is reachable. -/
theorem reachable_foldl {init : σ → Prop} {C : σ → ε → Prop} {next : σ → ε → σ} {s : σ}
    (h : ((machine init next).restrict C).Reachable s) (es : List ε)
    (hC : Meets C next s es) :
    ((machine init next).restrict C).Reachable (es.foldl next s) := by
  induction es generalizing s with
  | nil => exact h
  | cons e rest ih => exact ih (h.next ⟨hC.1, rfl⟩) hC.2

/-- What a computed run leads to, with its record. -/
theorem reachable_recorded_foldl {ω : Type w} {f : σ → ε → Option ω} {C : σ → ε → Prop}
    {next : σ → ε → σ} (hstep : ∀ s e, C s e → S.step s e (next s e)) {s : σ} {l : List ω}
    (h : (S.recorded f).Reachable (s, l)) (es : List ε) (hC : Meets C next s es) :
    (S.recorded f).Reachable (es.foldl next s, l ++ notes f next s es) := by
  induction es generalizing s l with
  | nil =>
      rw [notes, List.append_nil]
      exact h
  | cons e rest ih =>
      have hnext : (S.recorded f).Reachable (next s e, l ++ (f s e).toList) :=
        h.next (e := e) ⟨hstep s e hC.1, rfl⟩
      have hrest := ih hnext hC.2
      rw [List.append_assoc] at hrest
      exact hrest

/-- A run with its record is a run. -/
theorem Reachable.of_recorded {ω : Type w} {f : σ → ε → Option ω} {p : σ × List ω}
    (h : (S.recorded f).Reachable p) : S.Reachable p.1 := by
  obtain ⟨es, htrace⟩ := h
  induction htrace with
  | start hi => exact .start hi.1
  | snoc _ hstep ih => exact ih.next hstep.1

/-- Every run has a record. -/
theorem Reachable.exists_record {ω : Type w} (f : σ → ε → Option ω) {s : σ} (h : S.Reachable s) :
    ∃ l, (S.recorded f).Reachable (s, l) := by
  obtain ⟨es, htrace⟩ := h
  induction htrace with
  | start hi => exact ⟨[], .start ⟨hi, rfl⟩⟩
  | @snoc _ s _ e _ hstep ih =>
      obtain ⟨l, hreach⟩ := ih
      exact ⟨l ++ (f s e).toList, hreach.next ⟨hstep, rfl⟩⟩

end System

/-- A loop over a list keeps what its body keeps. -/
theorem foldl_invariant {α : Type u} {β : Type v} {P : β → Prop} {f : β → α → β}
    (l : List α) {b : β} (h0 : P b) (hstep : ∀ b, ∀ a ∈ l, P b → P (f b a)) :
    P (l.foldl f b) := by
  induction l generalizing b with
  | nil => exact h0
  | cons a rest ih =>
      exact ih (hstep b a List.mem_cons_self h0)
        fun b' a' ha' => hstep b' a' (List.mem_cons_of_mem a ha')

end Lib
