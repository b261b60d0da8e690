import Masterserver.App.StrictJson
import Masterserver.Lib.Outcome

/-!
# The tree the worklist visits

`_check_tree` keeps what is left to visit in a list and takes the last value
of it first. `visits` is the same walk by recursion over the value: itself,
then its children, the last of them first. So the loop is a loop over a list
that is known beforehand, and what it raises depends on the texts it meets in
that order.
-/

namespace Lib.Decoded

mutual

/-- A value and the values in it, in the order the loop takes them. -/
def visits : Decoded → List Decoded
  | arr items => arr items :: visitsItems items
  | obj members => obj members :: visitsMembers members
  | v => [v]

def visitsItems : List Decoded → List Decoded
  | [] => []
  | v :: rest => visitsItems rest ++ visits v

def visitsMembers : List (CodePoints × Decoded) → List Decoded
  | [] => []
  | (_, v) :: rest => visitsMembers rest ++ visits v

end

/-- The texts of a value that are measured when it is visited. -/
def texts : Decoded → List CodePoints
  | str codes => [codes]
  | obj members => members.map Prod.fst
  | _ => []

theorem flatMap_visits_reverse (items : List Decoded) :
    items.reverse.flatMap visits = visitsItems items := by
  induction items with
  | nil => rfl
  | cons v rest ih =>
      rw [List.reverse_cons, List.flatMap_append, ih, visitsItems, List.flatMap_singleton]

theorem visitsItems_map_snd (members : List (CodePoints × Decoded)) :
    visitsItems (members.map Prod.snd) = visitsMembers members := by
  induction members with
  | nil => rfl
  | cons member rest ih =>
      obtain ⟨name, v⟩ := member
      rw [List.map_cons, visitsItems, ih, visitsMembers]

end Lib.Decoded

namespace Masterserver

open Lib

/-- A text that encodes and is not too long. -/
def Fits (maxStringBytes : Nat) (codes : CodePoints) : Prop :=
  ∃ size, utf8Size codes = some size ∧ size ≤ maxStringBytes

/-- The first text that does not fit is one that does not encode. -/
inductive SurrogateFirst (maxStringBytes : Nat) : List CodePoints → Prop
  | here {codes : CodePoints} {rest : List CodePoints} (h : utf8Size codes = none) :
      SurrogateFirst maxStringBytes (codes :: rest)
  | later {codes : CodePoints} {rest : List CodePoints} (h : Fits maxStringBytes codes) :
      SurrogateFirst maxStringBytes rest → SurrogateFirst maxStringBytes (codes :: rest)

variable {maxStringBytes : Nat}

theorem not_surrogateFirst_nil : ¬SurrogateFirst maxStringBytes [] := nofun

theorem surrogateFirst_cons {codes : CodePoints} {rest : List CodePoints} :
    SurrogateFirst maxStringBytes (codes :: rest) ↔
      utf8Size codes = none ∨ Fits maxStringBytes codes ∧ SurrogateFirst maxStringBytes rest := by
  constructor
  · intro h
    cases h with
    | here h => exact .inl h
    | later h hrest => exact .inr ⟨h, hrest⟩
  · rintro (h | ⟨h, hrest⟩)
    · exact .here h
    · exact .later h hrest

theorem surrogateFirst_append {as bs : List CodePoints} :
    SurrogateFirst maxStringBytes (as ++ bs) ↔ SurrogateFirst maxStringBytes as ∨
      (∀ codes ∈ as, Fits maxStringBytes codes) ∧ SurrogateFirst maxStringBytes bs := by
  induction as with
  | nil => simp [not_surrogateFirst_nil]
  | cons codes rest ih =>
      rw [List.cons_append, surrogateFirst_cons, surrogateFirst_cons, ih]
      simp only [List.forall_mem_cons]
      tauto

theorem checkText_ok {message : String} {codes : CodePoints} :
    checkText maxStringBytes message codes = .ok () ↔ Fits maxStringBytes codes := by
  unfold checkText Fits
  cases utf8Size codes with
  | none => exact ⟨nofun, nofun⟩
  | some size =>
      simp only [Option.some.injEq, exists_eq_left']
      split
      · next h => exact ⟨nofun, fun h' => absurd h (not_lt.mpr h')⟩
      · next h => exact ⟨fun _ => not_lt.mp h, fun _ => rfl⟩

theorem checkText_unicodeEncode {message : String} {codes : CodePoints} :
    checkText maxStringBytes message codes = .error .unicodeEncode ↔ utf8Size codes = none := by
  unfold checkText
  cases utf8Size codes with
  | none => simp
  | some size =>
      simp only [reduceCtorEq, iff_false]
      split <;> nofun

theorem checkNames_ok {members : List (CodePoints × Decoded)} :
    checkNames maxStringBytes members = .ok () ↔
      ∀ codes ∈ members.map Prod.fst, Fits maxStringBytes codes := by
  induction members with
  | nil => simp [checkNames]
  | cons member rest ih =>
      obtain ⟨key, v⟩ := member
      rw [checkNames, bind_eq_ok]
      simp only [List.map_cons, List.forall_mem_cons, ← ih]
      exact ⟨fun ⟨_, h, h'⟩ => ⟨checkText_ok.mp h, h'⟩,
        fun ⟨h, h'⟩ => ⟨(), checkText_ok.mpr h, h'⟩⟩

theorem checkNames_unicodeEncode {members : List (CodePoints × Decoded)} :
    checkNames maxStringBytes members = .error .unicodeEncode ↔
      SurrogateFirst maxStringBytes (members.map Prod.fst) := by
  induction members with
  | nil => exact ⟨nofun, nofun⟩
  | cons member rest ih =>
      obtain ⟨key, v⟩ := member
      rw [checkNames, bind_eq_error, checkText_unicodeEncode, List.map_cons, surrogateFirst_cons,
        ih]
      refine or_congr_right ⟨fun ⟨_, h, h'⟩ => ⟨checkText_ok.mp h, h'⟩, fun ⟨h, h'⟩ => ?_⟩
      exact ⟨(), checkText_ok.mpr h, h'⟩

/-- What is measured when a value is visited. -/
def checkVisit (maxStringBytes : Nat) : Decoded → Except DecodeError Unit
  | .str codes => checkText maxStringBytes "JSON string exceeds the byte limit" codes
  | .obj members => checkNames maxStringBytes members
  | _ => .ok ()

theorem checkVisit_ok {v : Decoded} :
    checkVisit maxStringBytes v = .ok () ↔ ∀ codes ∈ v.texts, Fits maxStringBytes codes := by
  cases v with
  | str codes => simp [checkVisit, Decoded.texts, checkText_ok]
  | obj members => exact checkNames_ok
  | _ => simp [checkVisit, Decoded.texts]

theorem checkVisit_unicodeEncode {v : Decoded} :
    checkVisit maxStringBytes v = .error .unicodeEncode ↔
      SurrogateFirst maxStringBytes v.texts := by
  cases v with
  | str codes =>
      rw [checkVisit, checkText_unicodeEncode, Decoded.texts, surrogateFirst_cons]
      simp [not_surrogateFirst_nil]
  | obj members => exact checkNames_unicodeEncode
  | _ => exact ⟨nofun, nofun⟩

/-- The values one after the other, with `budget` still allowed. -/
def checkVisits (maxStringBytes : Nat) : Nat → List Decoded → Except DecodeError Unit
  | _, [] => .ok ()
  | 0, _ :: _ => .error (.strict "JSON node count exceeds the limit")
  | budget + 1, v :: rest => do
      checkVisit maxStringBytes v
      checkVisits maxStringBytes budget rest

/-- The worklist meets the values in the order of `visits`. -/
theorem checkTreeLoop_eq (budget : Nat) (pending : List Decoded) :
    checkTreeLoop maxStringBytes budget pending =
      checkVisits maxStringBytes budget (pending.flatMap Decoded.visits) := by
  induction budget generalizing pending with
  | zero =>
      cases pending with
      | nil => rfl
      | cons v rest => cases v <;> rfl
  | succ budget ih =>
      cases pending with
      | nil => rfl
      | cons v rest =>
          cases v with
          | arr items =>
              rw [checkTreeLoop, ih, List.flatMap_append, Decoded.flatMap_visits_reverse]
              rfl
          | obj members =>
              rw [checkTreeLoop]
              simp only [ih, List.flatMap_append, Decoded.flatMap_visits_reverse,
                Decoded.visitsItems_map_snd]
              rfl
          | str codes =>
              rw [checkTreeLoop]
              simp only [ih]
              rfl
          | _ => exact ih rest

theorem checkVisits_ok {budget : Nat} {vs : List Decoded} :
    checkVisits maxStringBytes budget vs = .ok () ↔
      vs.length ≤ budget ∧ ∀ v ∈ vs, ∀ codes ∈ v.texts, Fits maxStringBytes codes := by
  induction vs generalizing budget with
  | nil => simp [checkVisits]
  | cons v rest ih =>
      cases budget with
      | zero => simp [checkVisits]
      | succ budget =>
          rw [checkVisits, bind_eq_ok]
          simp only [List.length_cons, List.forall_mem_cons, Nat.add_le_add_iff_right]
          constructor
          · rintro ⟨_, hv, hrest⟩
            obtain ⟨hlength, hfits⟩ := ih.mp hrest
            exact ⟨hlength, checkVisit_ok.mp hv, hfits⟩
          · rintro ⟨hlength, hv, hrest⟩
            exact ⟨(), checkVisit_ok.mpr hv, ih.mpr ⟨hlength, hrest⟩⟩

theorem checkVisits_unicodeEncode {budget : Nat} {vs : List Decoded} :
    checkVisits maxStringBytes budget vs = .error .unicodeEncode ↔
      SurrogateFirst maxStringBytes ((vs.take budget).flatMap Decoded.texts) := by
  induction vs generalizing budget with
  | nil => simp [checkVisits, not_surrogateFirst_nil]
  | cons v rest ih =>
      cases budget with
      | zero => simp [checkVisits, not_surrogateFirst_nil]
      | succ budget =>
          rw [checkVisits, bind_eq_error, checkVisit_unicodeEncode, List.take_succ_cons,
            List.flatMap_cons, surrogateFirst_append, ih]
          refine or_congr_right ⟨fun ⟨_, h, h'⟩ => ⟨checkVisit_ok.mp h, h'⟩, fun ⟨h, h'⟩ => ?_⟩
          exact ⟨(), checkVisit_ok.mpr h, h'⟩

theorem checkTree_ok {v : Decoded} {maxNodes : Nat} :
    checkTree v maxNodes maxStringBytes = .ok () ↔
      v.visits.length ≤ maxNodes ∧ ∀ u ∈ v.visits, ∀ codes ∈ u.texts, Fits maxStringBytes codes := by
  rw [checkTree, checkTreeLoop_eq, List.flatMap_singleton, checkVisits_ok]

theorem checkTree_unicodeEncode {v : Decoded} {maxNodes : Nat} :
    checkTree v maxNodes maxStringBytes = .error .unicodeEncode ↔
      SurrogateFirst maxStringBytes ((v.visits.take maxNodes).flatMap Decoded.texts) := by
  rw [checkTree, checkTreeLoop_eq, List.flatMap_singleton, checkVisits_unicodeEncode]

end Masterserver
