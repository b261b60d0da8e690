import Mathlib.Algebra.BigOperators.Group.List.Lemmas
import Mathlib.Algebra.Order.BigOperators.Group.List
import Mathlib.Data.List.Nodup

/-!
# Insertion-ordered dictionaries

The dictionary of a scripting language: finitely many bindings, at most one
per key, kept in the order in which the keys were first written. Writing a
key that is present replaces its value in place, writing a new key appends,
and dropping a key closes the gap.

A `Dict` carries the distinctness of its keys as a field, so no lemma below
has a well-formedness premise. Everything a client proves goes through two
observations: `get?`, which every operation describes by one equation, and
`sumBy`, the sum of a quantity over all bindings, which a hand-maintained
counter is compared with.
-/

namespace Lib

universe u v w

/-- Bindings with distinct keys, in insertion order. -/
structure Dict (κ : Type u) (α : Type v) where
  entries : List (κ × α)
  nodup : (entries.map Prod.fst).Nodup

namespace Dict

variable {κ : Type u} {α : Type v} {β : Type w}

def keys (d : Dict κ α) : List κ := d.entries.map Prod.fst

def values (d : Dict κ α) : List α := d.entries.map Prod.snd

def size (d : Dict κ α) : Nat := d.entries.length

instance : EmptyCollection (Dict κ α) := ⟨⟨[], List.nodup_nil⟩⟩

instance : Inhabited (Dict κ α) := ⟨∅⟩

@[simp] theorem entries_empty : (∅ : Dict κ α).entries = [] := rfl

@[simp] theorem size_empty : (∅ : Dict κ α).size = 0 := rfl

@[ext] theorem ext {d d' : Dict κ α} (h : d.entries = d'.entries) : d = d' := by
  cases d; cases d'; cases h; rfl

theorem size_values (d : Dict κ α) : d.values.length = d.size := by
  simp [values, size]

theorem size_keys (d : Dict κ α) : d.keys.length = d.size := by
  simp [keys, size]

theorem nodup_keys (d : Dict κ α) : d.keys.Nodup := d.nodup

/-- The bindings that pass a test. -/
def filter (p : κ → α → Bool) (d : Dict κ α) : Dict κ α where
  entries := d.entries.filter fun e => p e.1 e.2
  nodup := d.nodup.sublist (List.filter_sublist.map Prod.fst)

variable [DecidableEq κ]

def get? (d : Dict κ α) (k : κ) : Option α := d.entries.lookup k

/-- `k in d`. -/
def contains (d : Dict κ α) (k : κ) : Bool := (d.get? k).isSome

def getD (d : Dict κ α) (k : κ) (default : α) : α := (d.get? k).getD default

/-- `d.pop(k, None)`, the value dropped with the key. -/
def erase (d : Dict κ α) (k : κ) : Dict κ α := d.filter fun k' _ => k' ≠ k

/-- Overwrite the binding of `k` where it stands, or append one. -/
def put (k : κ) (v : α) : List (κ × α) → List (κ × α)
  | [] => [(k, v)]
  | e :: rest => if e.1 = k then (k, v) :: rest else e :: put k v rest

theorem fst_put (k : κ) (v : α) (l : List (κ × α)) :
    (put k v l).map Prod.fst =
      if k ∈ l.map Prod.fst then l.map Prod.fst else l.map Prod.fst ++ [k] := by
  induction l with
  | nil => simp [put]
  | cons e rest ih =>
      by_cases he : e.1 = k
      · simp [put, he]
      · have hne : k ≠ e.1 := fun h => he h.symm
        simp only [put, if_neg he, List.map_cons, ih, List.mem_cons, hne, false_or]
        split <;> simp

/-- `d[k] = v`. -/
def set (d : Dict κ α) (k : κ) (v : α) : Dict κ α where
  entries := put k v d.entries
  nodup := by
    rw [fst_put]
    split
    · exact d.nodup
    · next hk =>
        exact List.nodup_append.mpr ⟨d.nodup, List.nodup_singleton k,
          fun a ha b hb => by
            rw [List.mem_singleton.mp hb]
            exact fun h => hk (h ▸ ha)⟩

/-! ## Lookups -/

@[simp] theorem get?_empty (k : κ) : (∅ : Dict κ α).get? k = none := rfl

theorem mem_entries {d : Dict κ α} {k : κ} {v : α} :
    (k, v) ∈ d.entries ↔ d.get? k = some v := by
  obtain ⟨l, hl⟩ := d
  simp only [get?]
  induction l with
  | nil => simp
  | cons e rest ih =>
      obtain ⟨k₀, v₀⟩ := e
      have hnd : k₀ ∉ rest.map Prod.fst ∧ (rest.map Prod.fst).Nodup := by
        simpa using hl
      rw [List.lookup_cons]
      by_cases hk : k = k₀
      · subst hk
        have hno : (k, v) ∉ rest := fun h => hnd.1 (List.mem_map_of_mem h)
        simp [hno, eq_comm]
      · have hbeq : (k == k₀) = false := by simpa using hk
        simp [hk, hbeq, ih hnd.2]

theorem mem_keys {d : Dict κ α} {k : κ} : k ∈ d.keys ↔ ∃ v, d.get? k = some v := by
  simp only [keys, List.mem_map, Prod.exists, exists_and_right, exists_eq_right, mem_entries]

theorem mem_values {d : Dict κ α} {v : α} : v ∈ d.values ↔ ∃ k, d.get? k = some v := by
  simp only [values, List.mem_map, Prod.exists, exists_eq_right, mem_entries]

theorem contains_iff {d : Dict κ α} {k : κ} :
    d.contains k = true ↔ ∃ v, d.get? k = some v := Option.isSome_iff_exists

theorem contains_iff_mem_keys {d : Dict κ α} {k : κ} :
    d.contains k = true ↔ k ∈ d.keys := by rw [contains_iff, mem_keys]

theorem get?_eq_none {d : Dict κ α} {k : κ} : d.get? k = none ↔ k ∉ d.keys := by
  rw [mem_keys, ← Option.not_isSome_iff_eq_none, Option.isSome_iff_exists]

theorem not_contains_iff {d : Dict κ α} {k : κ} :
    d.contains k = false ↔ d.get? k = none := by
  simp [contains]

@[simp] theorem contains_empty (k : κ) : (∅ : Dict κ α).contains k = false := rfl

theorem get?_filter (p : κ → α → Bool) (d : Dict κ α) (k : κ) :
    (d.filter p).get? k = (d.get? k).filter (p k) := by
  refine Option.ext fun v => ?_
  rw [← mem_entries, Option.filter_eq_some_iff, ← mem_entries]
  simp [filter]

theorem get?_filter_eq_some {p : κ → α → Bool} {d : Dict κ α} {k : κ} {v : α} :
    (d.filter p).get? k = some v ↔ d.get? k = some v ∧ p k v = true := by
  rw [get?_filter, Option.filter_eq_some_iff]

theorem get?_erase (d : Dict κ α) (k k' : κ) :
    (d.erase k).get? k' = if k' = k then none else d.get? k' := by
  rw [erase, get?_filter]
  by_cases h : k' = k
  · simp [h, Option.filter]
    cases d.get? k <;> rfl
  · simp only [h, if_false, ne_eq, not_false_eq_true, decide_true]
    cases d.get? k' <;> rfl

@[simp] theorem get?_erase_self (d : Dict κ α) (k : κ) : (d.erase k).get? k = none := by
  simp [get?_erase]

theorem get?_erase_of_ne (d : Dict κ α) {k k' : κ} (h : k' ≠ k) :
    (d.erase k).get? k' = d.get? k' := by
  simp [get?_erase, h]

theorem get?_erase_eq_some {d : Dict κ α} {k k' : κ} {v : α} :
    (d.erase k).get? k' = some v ↔ k' ≠ k ∧ d.get? k' = some v := by
  rw [get?_erase]
  split <;> simp_all

theorem lookup_put (k k' : κ) (v : α) (l : List (κ × α)) :
    (put k v l).lookup k' = if k' = k then some v else l.lookup k' := by
  induction l with
  | nil => by_cases h : k' = k <;> simp [put, h]
  | cons e rest ih =>
      obtain ⟨k₀, v₀⟩ := e
      by_cases h₀ : k₀ = k
      · subst h₀
        by_cases h : k' = k₀
        · simp [put, h]
        · have hbeq : (k' == k₀) = false := by simpa using h
          simp [put, List.lookup_cons, h, hbeq]
      · simp only [put, if_neg h₀, List.lookup_cons, ih]
        by_cases h : k' = k₀
        · subst h
          simp [h₀]
        · have hbeq : (k' == k₀) = false := by simpa using h
          simp [hbeq]

theorem get?_set (d : Dict κ α) (k k' : κ) (v : α) :
    (d.set k v).get? k' = if k' = k then some v else d.get? k' :=
  lookup_put k k' v d.entries

@[simp] theorem get?_set_self (d : Dict κ α) (k : κ) (v : α) :
    (d.set k v).get? k = some v := by
  simp [get?_set]

theorem get?_set_of_ne (d : Dict κ α) {k k' : κ} (v : α) (h : k' ≠ k) :
    (d.set k v).get? k' = d.get? k' := by
  simp [get?_set, h]

theorem put_put (k : κ) (v v' : α) (l : List (κ × α)) :
    put k v' (put k v l) = put k v' l := by
  induction l with
  | nil => simp [put]
  | cons e rest ih =>
      by_cases h : e.1 = k
      · simp [put, h]
      · simp only [put, if_neg h, ih]

/-- The second of two writes to a key is the one that counts. -/
theorem set_set (d : Dict κ α) (k : κ) (v v' : α) : (d.set k v).set k v' = d.set k v' :=
  ext (put_put k v v' d.entries)

theorem contains_set (d : Dict κ α) (k k' : κ) (v : α) :
    (d.set k v).contains k' = (decide (k' = k) || d.contains k') := by
  simp only [contains, get?_set]
  by_cases h : k' = k <;> simp [h]

theorem contains_erase (d : Dict κ α) (k k' : κ) :
    (d.erase k).contains k' = (!decide (k' = k) && d.contains k') := by
  simp only [contains, get?_erase]
  by_cases h : k' = k <;> simp [h]

theorem mem_keys_set {d : Dict κ α} {k k' : κ} {v : α} :
    k' ∈ (d.set k v).keys ↔ k' = k ∨ k' ∈ d.keys := by
  rw [← contains_iff_mem_keys, ← contains_iff_mem_keys, contains_set]
  simp

theorem mem_keys_erase {d : Dict κ α} {k k' : κ} :
    k' ∈ (d.erase k).keys ↔ k' ≠ k ∧ k' ∈ d.keys := by
  rw [← contains_iff_mem_keys, ← contains_iff_mem_keys, contains_erase]
  simp

theorem keys_set (d : Dict κ α) (k : κ) (v : α) :
    (d.set k v).keys = if k ∈ d.keys then d.keys else d.keys ++ [k] := fst_put k v d.entries

theorem keys_erase (d : Dict κ α) (k : κ) : (d.erase k).keys = d.keys.erase k := by
  have hkeys : (d.erase k).keys = d.keys.filter fun k' => k' ≠ k := by
    unfold keys
    rw [List.filter_map]
    rfl
  rw [hkeys, d.nodup_keys.erase_eq_filter]
  refine List.filter_congr fun k' _ => ?_
  by_cases h : k' = k <;> simp [h]

/-! ## Sizes -/

theorem size_set (d : Dict κ α) (k : κ) (v : α) :
    (d.set k v).size = if d.contains k then d.size else d.size + 1 := by
  have h := congrArg List.length (fst_put k v d.entries)
  rw [List.length_map] at h
  have hk : k ∈ d.entries.map Prod.fst ↔ d.contains k = true := contains_iff_mem_keys.symm
  simp only [hk] at h
  rw [size, show (d.set k v).entries = put k v d.entries from rfl, h]
  split <;> simp [size]

omit [DecidableEq κ] in
theorem size_filter_le (p : κ → α → Bool) (d : Dict κ α) : (d.filter p).size ≤ d.size :=
  List.length_filter_le _ _

theorem size_erase_le (d : Dict κ α) (k : κ) : (d.erase k).size ≤ d.size :=
  size_filter_le _ d

theorem erase_of_get?_eq_none {d : Dict κ α} {k : κ} (h : d.get? k = none) :
    d.erase k = d := by
  refine Dict.ext (List.filter_eq_self.mpr fun e he => ?_)
  have hne : e.1 ≠ k := by
    rintro rfl
    have hsome : d.get? e.1 = some e.2 := mem_entries.mp he
    rw [h] at hsome
    cases hsome
  simpa using hne

omit [DecidableEq κ] in
theorem size_eq_zero {d : Dict κ α} : d.size = 0 ↔ d = ∅ := by
  constructor
  · intro h
    exact Dict.ext (List.length_eq_zero_iff.mp h)
  · rintro rfl
    rfl

theorem ne_empty_of_get? {d : Dict κ α} {k : κ} {v : α} (h : d.get? k = some v) :
    d.size ≠ 0 := by
  intro h0
  rw [size_eq_zero.mp h0] at h
  cases h

/-! ## The oldest bindings -/

/-- Bindings leave at the front while there are more than `n`. -/
def dropOldest (n : Nat) : List (κ × α) → List (κ × α)
  | [] => []
  | e :: rest => if n < (e :: rest).length then dropOldest n rest else e :: rest

omit [DecidableEq κ] in
theorem dropOldest_suffix (n : Nat) (l : List (κ × α)) : dropOldest n l <:+ l := by
  induction l with
  | nil => exact List.suffix_refl _
  | cons e rest ih =>
      rw [dropOldest]
      split
      · exact ih.trans (List.suffix_cons e rest)
      · exact List.suffix_refl _

omit [DecidableEq κ] in
theorem dropOldest_eq_drop (n : Nat) (l : List (κ × α)) :
    dropOldest n l = l.drop (l.length - n) := by
  induction l with
  | nil => simp [dropOldest]
  | cons e rest ih =>
      rw [dropOldest]
      split
      · next hlt =>
          have hsub : (e :: rest).length - n = rest.length - n + 1 := by
            rw [List.length_cons] at hlt ⊢
            omega
          rw [ih, hsub, List.drop_succ_cons]
      · next hle => rw [Nat.sub_eq_zero_of_le (by omega), List.drop_zero]

/-- `while len(d) > n: d.pop(next(iter(d)))`. -/
def trim (d : Dict κ α) (n : Nat) : Dict κ α where
  entries := dropOldest n d.entries
  nodup := d.nodup.sublist ((dropOldest_suffix n d.entries).sublist.map Prod.fst)

theorem get?_of_trim {d : Dict κ α} {n : Nat} {k : κ} {v : α}
    (h : (d.trim n).get? k = some v) : d.get? k = some v :=
  mem_entries.mp ((dropOldest_suffix n d.entries).mem (mem_entries.mpr h))

omit [DecidableEq κ] in
theorem keys_trim (d : Dict κ α) (n : Nat) :
    (d.trim n).keys = d.keys.drop (d.keys.length - n) := by
  show (dropOldest n d.entries).map Prod.fst = _
  rw [dropOldest_eq_drop, List.map_drop, keys, List.length_map]

/-! ## Sums over the bindings

`sumBy_eq_add_erase` is the only fact about sums a client needs: the
contribution of one key comes off in front, and both `set` and `erase` leave
the rest of the sum alone. -/

variable {M : Type w} [AddCommMonoid M]

/-- The sum of `f` over all bindings. -/
def sumBy (f : κ → α → M) (d : Dict κ α) : M := (d.entries.map fun e => f e.1 e.2).sum

omit [DecidableEq κ] in
@[simp] theorem sumBy_empty (f : κ → α → M) : (∅ : Dict κ α).sumBy f = 0 := rfl

theorem sumBy_eq_add_erase (f : κ → α → M) {d : Dict κ α} {k : κ} {v : α}
    (h : d.get? k = some v) : d.sumBy f = f k v + (d.erase k).sumBy f := by
  obtain ⟨l, hl⟩ := d
  simp only [sumBy, erase, filter]
  replace h : l.lookup k = some v := h
  induction l with
  | nil => cases h
  | cons e rest ih =>
      obtain ⟨k₀, v₀⟩ := e
      have hnd : k₀ ∉ rest.map Prod.fst ∧ (rest.map Prod.fst).Nodup := by
        simpa using hl
      rw [List.lookup_cons] at h
      by_cases hk : k = k₀
      · subst hk
        have hv : v₀ = v := by simpa using h
        subst hv
        have hrest : rest.filter (fun e => decide (e.1 ≠ k)) = rest := by
          refine List.filter_eq_self.mpr fun e he => ?_
          have hne : e.1 ≠ k := fun heq => hnd.1 (heq ▸ List.mem_map_of_mem he)
          simpa using hne
        rw [List.filter_cons_of_neg (by simp), hrest, List.map_cons, List.sum_cons]
      · have hbeq : (k == k₀) = false := by simpa using hk
        rw [hbeq] at h
        have hne : k₀ ≠ k := fun heq => hk heq.symm
        simp only [List.map_cons, List.sum_cons, ih hnd.2 h,
          List.filter_cons_of_pos (p := fun e : κ × α => decide (e.1 ≠ k))
            (a := (k₀, v₀)) (by simpa using hne)]
        rw [add_left_comm]

theorem erase_set (d : Dict κ α) (k : κ) (v : α) : (d.set k v).erase k = d.erase k := by
  obtain ⟨l, hl⟩ := d
  refine Dict.ext ?_
  simp only [erase, filter, set]
  clear hl
  induction l with
  | nil => simp [put]
  | cons e rest ih =>
      by_cases he : e.1 = k
      · simp [put, he]
      · rw [put, if_neg he, List.filter_cons_of_pos (by simpa using he), ih,
          List.filter_cons_of_pos (by simpa using he)]

theorem sumBy_set (f : κ → α → M) (d : Dict κ α) (k : κ) (v : α) :
    (d.set k v).sumBy f = f k v + (d.erase k).sumBy f := by
  rw [sumBy_eq_add_erase f (get?_set_self d k v), erase_set]

theorem sumBy_set_new (f : κ → α → M) {d : Dict κ α} {k : κ} (v : α)
    (h : d.get? k = none) : (d.set k v).sumBy f = f k v + d.sumBy f := by
  rw [sumBy_set, erase_of_get?_eq_none h]

omit [DecidableEq κ] in
theorem size_eq_sumBy (d : Dict κ α) : d.size = d.sumBy fun _ _ => 1 := by
  simp [sumBy, size]

theorem size_erase {d : Dict κ α} {k : κ} {v : α} (h : d.get? k = some v) :
    (d.erase k).size + 1 = d.size := by
  rw [size_eq_sumBy, size_eq_sumBy d, sumBy_eq_add_erase _ h, Nat.add_comm]

omit [DecidableEq κ] in
/-- There are no more keys than the list that has them all. -/
theorem size_le_of_keys_subset {d : Dict κ α} {l : List κ} (h : d.keys ⊆ l) :
    d.size ≤ l.length := by
  rw [← size_keys]
  exact (List.subperm_of_subset d.nodup_keys h).length_le

omit [DecidableEq κ] in
theorem sumBy_nonneg [PartialOrder M] [IsOrderedAddMonoid M] {f : κ → α → M} {d : Dict κ α}
    (h : ∀ e ∈ d.entries, 0 ≤ f e.1 e.2) : 0 ≤ d.sumBy f := by
  refine List.sum_nonneg fun x hx => ?_
  obtain ⟨e, he, rfl⟩ := List.mem_map.mp hx
  exact h e he

end Dict

end Lib
