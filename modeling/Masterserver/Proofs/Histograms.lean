import Masterserver.Runs.Metrics
import Mathlib.Algebra.Order.BigOperators.Group.List
import Mathlib.Tactic.Linarith

/-!
# What happens to an exported histogram

A histogram is exported from the samples that are still kept, so within one
rendering it is what it should be: a bucket counts what the buckets below it
count, and the last counts everything.

From one rendering to the next its values are to rise, and they do while there
is room for the samples. Once there is none a sample goes for each one that
comes, and the values fall with it unless the new sample is no smaller and no
boundary separates the two, `rises_observe_iff`. The renderings of a run rise
exactly if no observation of the run exchanges samples otherwise.
-/

namespace Masterserver

open Lib

/-- The histogram a line of the export belongs to, if it does. -/
def Series.histogram? : Series → Option String
  | .total _ | .gauge _ => none
  | .bucket name _ | .count name | .sum name => some name

/-- The lines a histogram has. -/
def Series.Exported : Series → Prop
  | .bucket name le => le = ⊤ ∨ ∃ boundary : ℚ, boundary ∈ histogramBoundaries name ∧ le = boundary
  | _ => True

/-- What a line says about the samples. -/
def Series.reads (values : List ℚ) : Series → ℚ
  | .bucket _ le => (values.countP fun (value : ℚ) => decide ((value : WithTop ℚ) ≤ le) : Nat)
  | .count _ => values.length
  | .sum _ => values.sum
  | _ => 0

variable {metrics metrics' : Metrics} {name : String} {values values' : List ℚ}

/-! ## One rendering -/

theorem mem_histogram {s : Series} {v : ℚ} :
    (s, v) ∈ Metrics.histogram name values ↔
      s.histogram? = some name ∧ s.Exported ∧ v = s.reads values := by
  unfold Metrics.histogram
  simp only [List.mem_append, List.mem_map, List.mem_cons, List.not_mem_nil, or_false,
    Prod.mk.injEq]
  constructor
  · rintro (⟨boundary, hboundary, rfl, rfl⟩ | ⟨rfl, rfl⟩ | ⟨rfl, rfl⟩ | ⟨rfl, rfl⟩)
    · refine ⟨rfl, .inr ⟨boundary, hboundary, rfl⟩, ?_⟩
      simp [Series.reads]
    · exact ⟨rfl, .inl rfl, by simp [Series.reads]⟩
    · exact ⟨rfl, trivial, rfl⟩
    · exact ⟨rfl, trivial, rfl⟩
  · rintro ⟨hname, hexported, rfl⟩
    cases s with
    | total _ | gauge _ => cases hname
    | bucket n le =>
        obtain rfl : n = name := Option.some.inj hname
        obtain rfl | ⟨boundary, hboundary, rfl⟩ := hexported
        · exact .inr (.inl ⟨rfl, by simp [Series.reads]⟩)
        · exact .inl ⟨boundary, hboundary, rfl, by simp [Series.reads]⟩
    | count n =>
        obtain rfl : n = name := Option.some.inj hname
        exact .inr (.inr (.inl ⟨rfl, rfl⟩))
    | sum n =>
        obtain rfl : n = name := Option.some.inj hname
        exact .inr (.inr (.inr ⟨rfl, rfl⟩))

/-- The lines of a histogram in a rendering are read off its samples. -/
theorem mem_renderPrometheus {s : Series} (hs : s.histogram? = some name) {v : ℚ} :
    (s, v) ∈ metrics.renderPrometheus ↔
      ∃ values, metrics.samples.get? name = some values ∧ s.Exported ∧ v = s.reads values := by
  unfold Metrics.renderPrometheus
  rw [List.mem_append, List.mem_append, List.mem_flatMap]
  constructor
  · rintro ((hcounter | hgauge) | ⟨n, hn, hmem⟩)
    · obtain ⟨_, -, heq⟩ := List.mem_map.mp hcounter
      cases heq
      cases hs
    · obtain ⟨_, -, heq⟩ := List.mem_map.mp hgauge
      cases heq
      cases hs
    · obtain ⟨hname, hexported, hv⟩ := mem_histogram.mp hmem
      obtain rfl : name = n := Option.some.inj (hs.symm.trans hname)
      rw [mem_sorted, List.mem_toFinset] at hn
      obtain ⟨values, hvalues⟩ := Dict.mem_keys.mp hn
      rw [Dict.getD, hvalues, Option.getD_some] at hv
      exact ⟨values, hvalues, hexported, hv⟩
  · rintro ⟨values, hvalues, hexported, hv⟩
    refine .inr ⟨name, ?_, mem_histogram.mpr ⟨hs, hexported, ?_⟩⟩
    · rw [mem_sorted, List.mem_toFinset]
      exact Dict.mem_keys.mpr ⟨values, hvalues⟩
    · rw [Dict.getD, hvalues, Option.getD_some]
      exact hv

/-- Within a rendering a bucket counts no more than the buckets above it, and
the last as many as there are samples. -/
def Cumulative (rendering : List (Series × ℚ)) : Prop :=
  (∀ name le le' v v', (.bucket name le, v) ∈ rendering → (.bucket name le', v') ∈ rendering →
    le ≤ le' → v ≤ v') ∧
  ∀ name v v', (.bucket name ⊤, v) ∈ rendering → (.count name, v') ∈ rendering → v = v'

theorem cumulative_renderPrometheus (metrics : Metrics) : Cumulative metrics.renderPrometheus := by
  constructor
  · intro name le le' v v' hv hv' hle
    obtain ⟨values, hvalues, -, rfl⟩ := (mem_renderPrometheus rfl).mp hv
    obtain ⟨values', hvalues', -, rfl⟩ := (mem_renderPrometheus rfl).mp hv'
    obtain rfl : values = values' := Option.some.inj (hvalues.symm.trans hvalues')
    simp only [Series.reads, Nat.cast_le]
    refine List.countP_mono_left ?_
    intro value _ hcounted
    rw [decide_eq_true_eq] at hcounted ⊢
    exact hcounted.trans hle
  · intro name v v' hv hv'
    obtain ⟨values, hvalues, -, rfl⟩ := (mem_renderPrometheus rfl).mp hv
    obtain ⟨values', hvalues', -, rfl⟩ := (mem_renderPrometheus rfl).mp hv'
    obtain rfl : values = values' := Option.some.inj (hvalues.symm.trans hvalues')
    simp [Series.reads]

/-! ## From one rendering to a later one -/

/-- Every line of a histogram is still there, and its value has not fallen. -/
def NoneFalls (earlier later : List (Series × ℚ)) : Prop :=
  ∀ s v, s.histogram? ≠ none → (s, v) ∈ earlier →
    (∃ v', (s, v') ∈ later) ∧ ∀ v', (s, v') ∈ later → v ≤ v'

/-- The samples of a metric as its histogram shows them: no value falls. -/
structure Above (name : String) (values values' : List ℚ) : Prop where
  bucket : ∀ boundary : ℚ, boundary ∈ histogramBoundaries name →
    (values.countP fun value => decide (value ≤ boundary)) ≤
      values'.countP fun value => decide (value ≤ boundary)
  count : values.length ≤ values'.length
  sum : values.sum ≤ values'.sum

theorem Above.refl (name : String) (values : List ℚ) : Above name values values :=
  ⟨fun _ _ => le_refl _, le_refl _, le_refl _⟩

theorem Above.trans {values'' : List ℚ} (h : Above name values values')
    (h' : Above name values' values'') : Above name values values'' :=
  ⟨fun b hb => (h.bucket b hb).trans (h'.bucket b hb), h.count.trans h'.count,
    h.sum.trans h'.sum⟩

theorem above_iff_reads :
    Above name values values' ↔
      ∀ s : Series, s.histogram? = some name → s.Exported → s.reads values ≤ s.reads values' := by
  constructor
  · intro h s hs hexported
    cases s with
    | total _ | gauge _ => cases hs
    | bucket n le =>
        obtain rfl : n = name := Option.some.inj hs
        obtain rfl | ⟨boundary, hboundary, rfl⟩ := hexported
        · simpa [Series.reads] using h.count
        · simpa [Series.reads] using h.bucket boundary hboundary
    | count n => simpa [Series.reads] using h.count
    | sum n => exact h.sum
  · intro h
    refine ⟨?_, ?_, h (.sum name) rfl trivial⟩
    · intro boundary hboundary
      simpa [Series.reads] using h (.bucket name boundary) rfl (.inr ⟨boundary, hboundary, rfl⟩)
    · simpa [Series.reads] using h (.count name) rfl trivial

/-- No histogram is lost, and no value of one falls. -/
def Rises (metrics metrics' : Metrics) : Prop :=
  ∀ name values, metrics.samples.get? name = some values →
    ∃ values', metrics'.samples.get? name = some values' ∧ Above name values values'

theorem Rises.refl (metrics : Metrics) : Rises metrics metrics :=
  fun name values h => ⟨values, h, .refl name values⟩

theorem Rises.trans {metrics'' : Metrics} (h : Rises metrics metrics')
    (h' : Rises metrics' metrics'') : Rises metrics metrics'' := by
  intro name values hvalues
  obtain ⟨values', hvalues', habove⟩ := h name values hvalues
  obtain ⟨values'', hvalues'', habove'⟩ := h' name values' hvalues'
  exact ⟨values'', hvalues'', habove.trans habove'⟩

theorem noneFalls_iff_rises :
    NoneFalls metrics.renderPrometheus metrics'.renderPrometheus ↔ Rises metrics metrics' := by
  constructor
  · intro h name values hvalues
    have hline : (Series.count name, (values.length : ℚ)) ∈ metrics.renderPrometheus :=
      (mem_renderPrometheus rfl).mpr ⟨values, hvalues, trivial, rfl⟩
    obtain ⟨v', hv'⟩ := (h _ _ (by simp [Series.histogram?]) hline).1
    obtain ⟨values', hvalues', -, -⟩ := (mem_renderPrometheus rfl).mp hv'
    refine ⟨values', hvalues', above_iff_reads.mpr ?_⟩
    intro s hs hexported
    have hmem := (mem_renderPrometheus hs).mpr ⟨values, hvalues, hexported, rfl⟩
    have hmem' := (mem_renderPrometheus hs).mpr ⟨values', hvalues', hexported, rfl⟩
    exact (h s _ (by rw [hs]; nofun) hmem).2 _ hmem'
  · intro h s v hs hmem
    obtain ⟨name, hname⟩ := Option.ne_none_iff_exists'.mp hs
    obtain ⟨values, hvalues, hexported, rfl⟩ := (mem_renderPrometheus hname).mp hmem
    obtain ⟨values', hvalues', habove⟩ := h name values hvalues
    refine ⟨⟨_, (mem_renderPrometheus hname).mpr ⟨values', hvalues', hexported, rfl⟩⟩, ?_⟩
    intro v' hv'
    obtain ⟨values'', hvalues'', -, rfl⟩ := (mem_renderPrometheus hname).mp hv'
    obtain rfl : values' = values'' := Option.some.inj (hvalues'.symm.trans hvalues'')
    exact above_iff_reads.mp habove s hname hexported

/-! ## One write -/

/-- No more samples are kept than there is room for, and none is negative. -/
def Window (metrics : Metrics) : Prop :=
  ∀ name values, metrics.samples.get? name = some values →
    values.length ≤ Metrics.maxSamples ∧ ∀ value ∈ values, 0 ≤ value

/-- An observation does not push a larger sample out, nor one that a boundary
separates from the new one. -/
def Exchanges (metrics : Metrics) : MetricsOp → Prop
  | .observe name (some value) =>
      ∀ oldest rest, metrics.samples.get? name = some (oldest :: rest) →
        (oldest :: rest).length = Metrics.maxSamples →
          oldest ≤ value ∧
            ∀ boundary ∈ histogramBoundaries name, oldest ≤ boundary → value ≤ boundary
  | _ => True

theorem samples_observe (metrics : Metrics) (name : String) (value : ℚ) :
    (metrics.observe name (some value)).samples =
      metrics.samples.set name
        (lastOf Metrics.maxSamples (metrics.samples.getD name [] ++ [value])) := by
  unfold Metrics.observe lastOf
  simp only
  split
  · rfl
  · next h => rw [Nat.sub_eq_zero_of_le (not_lt.mp h), List.drop_zero]

theorem above_append {value : ℚ} (h : 0 ≤ value) (name : String) (values : List ℚ) :
    Above name values (values ++ [value]) := by
  constructor
  · intro boundary _
    rw [List.countP_append]
    exact Nat.le_add_right _ _
  · rw [List.length_append]
    exact Nat.le_add_right _ _
  · rw [List.sum_append, List.sum_singleton]
    linarith

/-- An exchange of one sample for another raises every value or leaves it. -/
theorem above_exchange {oldest value : ℚ} {rest : List ℚ} :
    Above name (oldest :: rest) (rest ++ [value]) ↔
      oldest ≤ value ∧
        ∀ boundary ∈ histogramBoundaries name, oldest ≤ boundary → value ≤ boundary := by
  have hcount (boundary : ℚ) :
      (oldest :: rest).countP (fun v => decide (v ≤ boundary)) ≤
          (rest ++ [value]).countP (fun v => decide (v ≤ boundary)) ↔
        (oldest ≤ boundary → value ≤ boundary) := by
    rw [List.countP_append, List.countP_cons, List.countP_singleton]
    by_cases hold : oldest ≤ boundary <;> by_cases hnew : value ≤ boundary <;> simp [hold, hnew]
  constructor
  · intro h
    refine ⟨?_, fun boundary hboundary => (hcount boundary).mp (h.bucket boundary hboundary)⟩
    have hsum := h.sum
    rw [List.sum_cons, List.sum_append, List.sum_singleton] at hsum
    linarith
  · rintro ⟨hle, hboundaries⟩
    refine ⟨fun boundary hboundary => (hcount boundary).mpr (hboundaries boundary hboundary), ?_, ?_⟩
    · simp
    · rw [List.sum_cons, List.sum_append, List.sum_singleton]
      linarith

/-- The values of every histogram rise with an observation if and only if it
makes a fair exchange. -/
theorem rises_observe_iff (hwindow : Window metrics) {value : ℚ} (hvalue : 0 ≤ value)
    (name : String) :
    Rises metrics (metrics.observe name (some value)) ↔
      Exchanges metrics (.observe name (some value)) := by
  have hset : (metrics.observe name (some value)).samples = _ := samples_observe metrics name value
  have hrises : Rises metrics (metrics.observe name (some value)) ↔
      ∀ values, metrics.samples.get? name = some values →
        Above name values (lastOf Metrics.maxSamples (values ++ [value])) := by
    constructor
    · intro h values hvalues
      obtain ⟨values', hvalues', habove⟩ := h name values hvalues
      rw [hset, Dict.get?_set_self, Dict.getD, hvalues, Option.getD_some,
        Option.some.injEq] at hvalues'
      rw [hvalues']
      exact habove
    · intro h n values hvalues
      by_cases hn : n = name
      · subst hn
        refine ⟨_, ?_, h values hvalues⟩
        rw [hset, Dict.get?_set_self, Dict.getD, hvalues, Option.getD_some]
      · exact ⟨values, by rw [hset, Dict.get?_set_of_ne _ _ hn, hvalues], .refl n values⟩
  rw [hrises]
  unfold Exchanges
  constructor
  · intro h oldest rest hvalues hfull
    have habove := h _ hvalues
    obtain ⟨hlt, -⟩ | ⟨-, oldest', rest', heq, hlast⟩ :=
      push_cases (by decide : 0 < Metrics.maxSamples) hfull.le value
    · exact absurd hfull hlt.ne
    · rw [hlast] at habove
      cases heq
      exact above_exchange.mp habove
  · intro h values hvalues
    obtain ⟨-, hlast⟩ | ⟨hfull, oldest, rest, rfl, hlast⟩ :=
      push_cases (by decide : 0 < Metrics.maxSamples) (hwindow name values hvalues).1 value
    · rw [hlast]
      exact above_append hvalue name values
    · rw [hlast]
      exact above_exchange.mpr (h oldest rest hvalues hfull)

/-- An observation a run is made of: not negative. -/
def MetricsOp.NonNegative : MetricsOp → Prop
  | .observe _ (some value) => 0 ≤ value
  | _ => True

theorem rises_after_iff (hwindow : Window metrics) {op : MetricsOp} (hop : op.NonNegative) :
    Rises metrics (metrics.after op) ↔ Exchanges metrics op := by
  cases op with
  | increment name amount => exact iff_of_true (.refl metrics) trivial
  | gauge name value => exact iff_of_true (.refl metrics) trivial
  | observe name value =>
      cases value with
      | none => exact iff_of_true (.refl metrics) trivial
      | some value => exact rises_observe_iff hwindow hop name

theorem window_after (hwindow : Window metrics) {op : MetricsOp} (hop : op.NonNegative) :
    Window (metrics.after op) := by
  cases op with
  | increment name amount => exact hwindow
  | gauge name value => exact hwindow
  | observe n value =>
      cases value with
      | none => exact hwindow
      | some value =>
          intro name values hvalues
          rw [Metrics.after, samples_observe, Dict.get?_set] at hvalues
          split at hvalues
          · rw [Option.some.injEq] at hvalues
            subst hvalues
            refine ⟨length_lastOf_le _ _, ?_⟩
            intro v hv
            obtain hold | hnew := List.mem_append.mp (List.mem_of_mem_drop hv)
            · unfold Dict.getD at hold
              cases hget : metrics.samples.get? n with
              | none =>
                  rw [hget] at hold
                  cases hold
              | some old =>
                  rw [hget] at hold
                  exact (hwindow n old hget).2 v hold
            · rw [List.mem_singleton.mp hnew]
              exact hop
          · exact hwindow name values hvalues

/-! ## A run -/

theorem window_foldl {ops : List MetricsOp} (hops : ∀ op ∈ ops, op.NonNegative)
    (hwindow : Window metrics) : Window (ops.foldl Metrics.after metrics) :=
  foldl_invariant ops hwindow fun _ op hop h => window_after h (hops op hop)

theorem rises_foldl {ops : List MetricsOp} (hops : ∀ op ∈ ops, op.NonNegative)
    (hwindow : Window metrics) (hmeets : System.Meets Exchanges Metrics.after metrics ops) :
    Rises metrics (ops.foldl Metrics.after metrics) := by
  induction ops generalizing metrics with
  | nil => exact .refl metrics
  | cons op rest ih =>
      have hop := hops op List.mem_cons_self
      have hstep := (rises_after_iff hwindow hop).mpr hmeets.1
      exact hstep.trans (ih (fun op' hop' => hops op' (List.mem_cons_of_mem op hop'))
        (window_after hwindow hop) hmeets.2)

/-- From any rendering of the run to any later one no value of a histogram
falls, and each is cumulative. -/
def ExportsCumulative (ops : List MetricsOp) : Prop :=
  (∀ earlier later, earlier <+: later → later <+: ops →
    NoneFalls (Metrics.written earlier).renderPrometheus (Metrics.written later).renderPrometheus) ∧
  ∀ ops', ops' <+: ops → Cumulative (Metrics.written ops').renderPrometheus

/-- Histograms are exported as cumulative ones if and only if no observation
pushes out a sample that it does not make up for. -/
theorem exports_cumulative_iff (ops : List MetricsOp) (hops : ∀ op ∈ ops, op.NonNegative) :
    ExportsCumulative ops ↔ System.Meets Exchanges Metrics.after .new ops := by
  have hnew : Window .new := fun _ _ h => by cases h
  constructor
  · rintro ⟨hfalls, -⟩
    rw [System.meets_iff_forall]
    rintro earlier op later rfl
    have hearlier : ∀ op ∈ earlier, op.NonNegative := fun op' hop' =>
      hops op' (List.mem_append_left _ hop')
    refine (rises_after_iff (window_foldl hearlier hnew)
      (hops op (List.mem_append_right _ List.mem_cons_self))).mp ?_
    have hstep := hfalls earlier (earlier ++ [op]) (List.prefix_append _ _)
      ⟨later, by rw [List.append_assoc]; rfl⟩
    rw [noneFalls_iff_rises] at hstep
    unfold Metrics.written at hstep
    rw [List.foldl_append] at hstep
    exact hstep
  · intro hmeets
    refine ⟨?_, fun ops' _ => cumulative_renderPrometheus _⟩
    rintro earlier later ⟨between, rfl⟩ ⟨rest, rfl⟩
    rw [List.append_assoc, System.meets_append, System.meets_append] at hmeets
    rw [noneFalls_iff_rises]
    unfold Metrics.written
    rw [List.foldl_append]
    refine rises_foldl ?_ (window_foldl ?_ hnew) hmeets.2.1
    · intro op hop
      exact hops op (List.mem_append_left _ (List.mem_append_right _ hop))
    · intro op hop
      exact hops op (List.mem_append_left _ (List.mem_append_left _ hop))

/-- Two lags. -/
theorem exports_cumulative_two :
    ExportsCumulative [.observe "event_loop_lag_seconds" (some (1 / 100)),
      .observe "event_loop_lag_seconds" (some (1 / 2))] := by
  refine (exports_cumulative_iff _ ?_).mpr ⟨?_, ?_, trivial⟩
  · intro op hop
    simp only [List.mem_cons, List.not_mem_nil, or_false] at hop
    obtain rfl | rfl := hop <;> norm_num [MetricsOp.NonNegative]
  · intro oldest rest hvalues
    cases hvalues
  · intro oldest rest hvalues hfull
    have hone : ((Metrics.new.after (.observe "event_loop_lag_seconds" (some (1 / 100)))).samples.get?
        "event_loop_lag_seconds").map List.length = some 1 := rfl
    rw [hvalues, Option.map_some, hfull] at hone
    cases hone

/-- One lag of a second, and then so many of none. -/
def lagThenIdle (n : Nat) : List MetricsOp :=
  .observe "lag" (some 1) :: List.replicate n (.observe "lag" (some 0))

theorem samples_idle (n : Nat) :
    (Metrics.written (lagThenIdle n)).samples.get? "lag" =
      some (lastOf Metrics.maxSamples (1 :: List.replicate n 0)) := by
  unfold Metrics.written lagThenIdle
  rw [List.foldl_cons]
  induction n with
  | zero => rfl
  | succ n ih =>
      rw [List.replicate_succ', List.foldl_append, List.foldl_cons, List.foldl_nil, Metrics.after,
        samples_observe, Dict.get?_set_self, Dict.getD, ih, Option.getD_some, lastOf_push,
        List.replicate_succ' (n := n) (a := (0 : ℚ))]
      rfl

theorem sum_falls_of_full {n : Nat} (hn : n = Metrics.maxSamples) :
    ¬ ExportsCumulative (lagThenIdle n) := by
  rintro ⟨hfalls, -⟩
  have hstep := hfalls [.observe "lag" (some 1)] (lagThenIdle n)
    ⟨List.replicate n (.observe "lag" (some 0)), rfl⟩ (List.prefix_refl _)
  rw [noneFalls_iff_rises] at hstep
  obtain ⟨values', hvalues', habove⟩ := hstep "lag" [1] rfl
  rw [samples_idle, Option.some.injEq] at hvalues'
  have hsum := habove.sum
  rw [← hvalues', lastOf, List.length_cons, List.length_replicate, ← hn, Nat.add_sub_cancel_left,
    List.drop_succ_cons, List.drop_zero, List.sum_replicate] at hsum
  norm_num at hsum

/-- Once the lag is pushed out the sum falls from one to nothing. -/
theorem sum_falls : ¬ ExportsCumulative (lagThenIdle 4096) := sum_falls_of_full rfl

end Masterserver
