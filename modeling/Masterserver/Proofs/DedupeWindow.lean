import Masterserver.Proofs.Remembered

/-!
# The dedupe window is exact

A cache under any calls of `check_and_mark_seen` and `prune_dedupe`. What is in
it was put there by a check that returned `True`, with the end of the window
that check asked for, and while the window lasts it stays: the two directions
of `Exact`. The third part is the bound on the cache, which a mark keeps since
it overwrites an expired one or is only made where there is room.
-/

namespace Masterserver

open Lib Hub

/-- A check that returned `True`. -/
structure Acceptance where
  key : String
  now : Seconds
  ttl : Seconds
  deriving DecidableEq

def Acceptance.until (a : Acceptance) : Seconds := a.now + a.ttl

inductive DedupeOp
  | check (key : String) (ttl : Seconds)
  | prune

structure DedupeEvent where
  now : Seconds
  op : DedupeOp

structure DedupeRun where
  hub : Hub
  clock : Seconds
  accepted : List Acceptance

namespace DedupeRun

def after (c : Config) (s : DedupeRun) (e : DedupeEvent) : DedupeRun :=
  match e.op with
  | .check key ttl =>
      let (hub, fresh) := s.hub.checkAndMarkSeen c e.now key ttl
      ⟨hub, e.now, if fresh then s.accepted ++ [⟨key, e.now, ttl⟩] else s.accepted⟩
  | .prune => ⟨s.hub.pruneDedupe e.now, e.now, s.accepted⟩

end DedupeRun

def dedupeSystem (c : Config) : System DedupeRun DedupeEvent :=
  (System.machine (fun s => ∃ now, s = ⟨.new c now, now, []⟩) (DedupeRun.after c)).restrict
    fun s e => s.clock ≤ e.now

namespace DedupeRun

variable {c : Config} {s : DedupeRun} {now : Seconds}

structure Exact (c : Config) (s : DedupeRun) : Prop where
  bounded : s.hub.seen.size ≤ c.maxDedupeEntries
  marked : ∀ a ∈ s.accepted, s.clock < a.until → s.hub.seen.get? a.key = some a.until
  known : ∀ key e, s.hub.seen.get? key = some e → ∃ a ∈ s.accepted, a.key = key ∧ a.until = e

theorem Exact.prune (h : s.Exact c) (hnow : s.clock ≤ now) :
    Exact c ⟨s.hub.pruneDedupe now, now, s.accepted⟩ := by
  refine ⟨(Dict.size_filter_le _ _).trans h.bounded, ?_, ?_⟩
  · intro a ha hlive
    exact remembers_pruneDedupe now _ _ (h.marked a ha (hnow.trans_lt hlive)) hlive
  · intro key e hget
    exact h.known key e (Dict.get?_filter_eq_some.mp hget).1

/-- A mark that overwrites or finds room. -/
theorem Exact.mark (h : s.Exact c) {key : String} {ttl : Seconds} (hnow : s.clock ≤ now)
    (hdead : ∀ e, s.hub.seen.get? key = some e → e ≤ now)
    (hroom : s.hub.seen.contains key = true ∨ s.hub.seen.size < c.maxDedupeEntries) :
    Exact c ⟨{ s.hub with seen := s.hub.seen.set key (now + ttl) }, now,
      s.accepted ++ [⟨key, now, ttl⟩]⟩ := by
  refine ⟨?_, ?_, ?_⟩
  · show (s.hub.seen.set key (now + ttl)).size ≤ c.maxDedupeEntries
    rw [Dict.size_set]
    split
    · exact h.bounded
    · next hnew =>
        rcases hroom with hold | hroom
        · exact absurd hold hnew
        · omega
  · intro a ha hlive
    show (s.hub.seen.set key (now + ttl)).get? a.key = some a.until
    rcases List.mem_append.mp ha with hold | hnew
    · have hget := h.marked a hold (hnow.trans_lt hlive)
      have hne : a.key ≠ key := by
        intro heq
        rw [heq] at hget
        exact absurd hlive (not_lt.mpr (hdead _ hget))
      rw [Dict.get?_set_of_ne _ _ hne]
      exact hget
    · rw [List.mem_singleton.mp hnew]
      exact Dict.get?_set_self _ _ _
  · intro other e hget
    replace hget : (s.hub.seen.set key (now + ttl)).get? other = some e := hget
    rw [Dict.get?_set] at hget
    split at hget
    · next heq =>
        cases hget
        exact ⟨_, List.mem_append_right _ (List.mem_singleton_self _), heq.symm, rfl⟩
    · obtain ⟨a, ha, hkey, huntil⟩ := h.known other e hget
      exact ⟨a, List.mem_append_left _ ha, hkey, huntil⟩

theorem Exact.later (h : s.Exact c) (hnow : s.clock ≤ now) : Exact c { s with clock := now } :=
  ⟨h.bounded, fun a ha hlive => h.marked a ha (hnow.trans_lt hlive), h.known⟩

theorem Exact.after (h : s.Exact c) {e : DedupeEvent} (hnow : s.clock ≤ e.now) :
    (s.after c e).Exact c := by
  unfold DedupeRun.after
  cases e.op with
  | prune => exact h.prune hnow
  | check key ttl =>
      have hchecked := checkAndMarkSeen_checked s.hub c e.now key ttl
      simp only
      generalize s.hub.checkAndMarkSeen c e.now key ttl = result at hchecked
      cases hchecked with
      | live => exact h.later hnow
      | again hget hdead =>
          refine h.mark hnow (fun e' he => ?_) (.inl (Dict.contains_iff.mpr ⟨_, hget⟩))
          rw [hget] at he
          cases he
          exact hdead
      | full => exact h.prune hnow
      | first hget hpruned hroom =>
          rcases hpruned with rfl | rfl
          · refine h.mark hnow (fun e' he => ?_) (.inr hroom)
            rw [hget] at he
            cases he
          · refine (h.prune hnow).mark (le_refl _) (fun e' he => ?_) (.inr hroom)
            rw [get?_pruned hget (.inr rfl)] at he
            cases he

theorem exact_of_reachable (h : (dedupeSystem c).Reachable s) : s.Exact c := by
  refine h.invariant (P := fun s => s.Exact c) ?_ ?_
  · rintro s ⟨now, rfl⟩
    exact ⟨Nat.zero_le _, nofun, nofun⟩
  · rintro s e s' hs ⟨hnow, rfl⟩
    exact hs.after hnow

/-- A prune that drops nothing. -/
theorem live_of_size_pruneDedupe {hub : Hub}
    (h : hub.seen.size ≤ (hub.pruneDedupe now).seen.size) (key : String) (e : Seconds)
    (hget : hub.seen.get? key = some e) : now < e := by
  have hlength : (hub.seen.entries.filter fun entry => decide (now < entry.2)).length =
      hub.seen.entries.length := le_antisymm (List.length_filter_le _ _) h
  have hall := List.length_filter_eq_length_iff.mp hlength (key, e) (Dict.mem_entries.mpr hget)
  exact of_decide_eq_true hall

/-- In every run: the cache holds no more keys than it may; a key that was
accepted is turned down while its window lasts, whatever came between; and a
key is turned down only while the window of a check that accepted it lasts, or
where the cache is full of keys whose windows last. -/
theorem dedupe_window_exact (h : (dedupeSystem c).Reachable s) :
    s.hub.seen.size ≤ c.maxDedupeEntries ∧
      (∀ a ∈ s.accepted, ∀ now ttl, s.clock ≤ now → now < a.now + a.ttl →
        (s.hub.checkAndMarkSeen c now a.key ttl).2 = false) ∧
      ∀ now key ttl, (s.hub.checkAndMarkSeen c now key ttl).2 = false →
        (∃ a ∈ s.accepted, a.key = key ∧ now < a.now + a.ttl) ∨
          s.hub.seen.size = c.maxDedupeEntries ∧
            ∀ k e, s.hub.seen.get? k = some e → now < e := by
  have hexact := exact_of_reachable h
  refine ⟨hexact.bounded, ?_, ?_⟩
  · intro a ha now ttl hnow hlive
    by_contra hfresh
    rw [Bool.not_eq_false] at hfresh
    have hdead := (fresh_checkAndMarkSeen hfresh).1 a.until
      (hexact.marked a ha (hnow.trans_lt hlive))
    exact absurd hlive (not_lt.mpr hdead)
  · intro now key ttl hrefused
    have hchecked := checkAndMarkSeen_checked s.hub c now key ttl
    generalize s.hub.checkAndMarkSeen c now key ttl = result at hchecked hrefused
    cases hchecked with
    | live hget hlive =>
        obtain ⟨a, ha, hkey, huntil⟩ := hexact.known key _ hget
        refine .inl ⟨a, ha, hkey, ?_⟩
        rw [← huntil] at hlive
        exact hlive
    | again => cases hrefused
    | full hget hfull =>
        have hkept : (s.hub.pruneDedupe now).seen.size ≤ s.hub.seen.size :=
          Dict.size_filter_le _ _
        have hbounded := hexact.bounded
        exact .inr ⟨by omega, live_of_size_pruneDedupe (by omega)⟩
    | first => cases hrefused

/-- The second check of a key within its window. -/
theorem dedupe_window_exact_twice :
    ∃ s : DedupeRun, s.accepted = [⟨"k", 0, 60⟩] ∧
      (s.hub.checkAndMarkSeen .default 30 "k" 60).2 = false := by
  let s := List.foldl (after .default) ⟨.new .default 0, 0, []⟩
    [⟨0, .check "k" 60⟩, ⟨10, .prune⟩, ⟨20, .check "k" 5⟩]
  have hs : (dedupeSystem .default).Reachable s :=
    System.reachable_foldl (.start (S := dedupeSystem .default) ⟨0, rfl⟩) _ (by decide +kernel)
  have haccepted : s.accepted = [⟨"k", 0, 60⟩] := by decide +kernel
  refine ⟨s, haccepted, ?_⟩
  refine (dedupe_window_exact hs).2.1 ⟨"k", 0, 60⟩ ?_ 30 60 (by decide +kernel) (by decide +kernel)
  rw [haccepted]
  exact List.mem_singleton_self _

end DedupeRun

end Masterserver
