import Masterserver.Lib.Dict
import Masterserver.Lib.JsonRoundTrip

/-!
# Reading canonical texts back

The canonical encoding of a value sorts the members of every object, so what
is read back is the value with its members sorted. Looking a member up does
not see the order.
-/

namespace Lib.Json

/-! ## Sorted members -/

theorem map_fst_sortMembers (members : List (String × Json)) :
    (sortMembers members).map Prod.fst = members.map Prod.fst := by
  induction members with
  | nil => rfl
  | cons member rest ih =>
      obtain ⟨name, v⟩ := member
      rw [sortMembers, List.map_cons, List.map_cons, ih]

theorem lookup_sortMembers (members : List (String × Json)) (name : String) :
    (sortMembers members).lookup name = (members.lookup name).map sortKeys := by
  induction members with
  | nil => rfl
  | cons member rest ih =>
      obtain ⟨key, v⟩ := member
      rw [sortMembers, List.lookup_cons, List.lookup_cons, ih]
      split <;> rfl

/-- The order of members with different names does not matter to a lookup. -/
theorem lookup_perm {α : Type} {l l' : List (String × α)} (hp : l.Perm l')
    (hl : (l.map Prod.fst).Nodup) (name : String) : l.lookup name = l'.lookup name := by
  have hl' : (l'.map Prod.fst).Nodup := (hp.map Prod.fst).nodup_iff.mp hl
  refine Option.ext fun v => ?_
  have hmem := Dict.mem_entries (d := ⟨l, hl⟩) (k := name) (v := v)
  have hmem' := Dict.mem_entries (d := ⟨l', hl'⟩) (k := name) (v := v)
  exact hmem.symm.trans (hp.mem_iff.trans hmem')

/-- The members of an object as its canonical text lists them. -/
def sortedMembers (members : List (String × Json)) : List (String × Json) :=
  (sortMembers members).insertionSort fun a b => a.1 ≤ b.1

theorem sortKeys_obj (members : List (String × Json)) :
    (obj members).sortKeys = obj (sortedMembers members) := by
  rw [sortKeys, sortedMembers]

theorem sortedMembers_perm (members : List (String × Json)) :
    (sortedMembers members).Perm (sortMembers members) := List.perm_insertionSort _ _

theorem map_fst_sortedMembers (members : List (String × Json)) :
    ((sortedMembers members).map Prod.fst).Perm (members.map Prod.fst) := by
  rw [← map_fst_sortMembers members]
  exact (sortedMembers_perm members).map Prod.fst

theorem lookup_sortedMembers {members : List (String × Json)}
    (h : (members.map Prod.fst).Nodup) (name : String) :
    (sortedMembers members).lookup name = (members.lookup name).map sortKeys := by
  rw [← lookup_sortMembers]
  exact lookup_perm (sortedMembers_perm members)
    ((map_fst_sortedMembers members).nodup_iff.mpr h) name

/-! ## The text -/

theorem plainMembers_iff {members : List (String × Json)} :
    PlainMembers members ↔ ∀ member ∈ members, member.2.Plain := by
  induction members with
  | nil => exact ⟨nofun, fun _ => trivial⟩
  | cons member rest ih =>
      obtain ⟨name, v⟩ := member
      rw [PlainMembers, ih, List.forall_mem_cons]

mutual

theorem plain_sortKeys : ∀ v : Json, v.Plain → v.sortKeys.Plain
  | .null, h | .bool _, h | .int _, h | .float _, h | .str _, h => h
  | .arr items, h => by
      rw [sortKeys]
      exact plainItems_sortItems items h
  | .obj members, h => by
      have hvalues := plainMembers_iff.mp (plainMembers_sortMembers members h.2)
      rw [sortKeys_obj]
      refine ⟨(map_fst_sortedMembers members).nodup_iff.mpr h.1, plainMembers_iff.mpr ?_⟩
      intro member hmem
      exact hvalues member ((sortedMembers_perm members).mem_iff.mp hmem)

theorem plainItems_sortItems : ∀ items : List Json, PlainItems items →
    PlainItems (sortItems items)
  | [], _ => trivial
  | v :: rest, h => ⟨plain_sortKeys v h.1, plainItems_sortItems rest h.2⟩

theorem plainMembers_sortMembers : ∀ members : List (String × Json), PlainMembers members →
    PlainMembers (sortMembers members)
  | [], _ => trivial
  | (_, v) :: rest, h => ⟨plain_sortKeys v h.1, plainMembers_sortMembers rest h.2⟩

end

/-- A plain value comes back from its canonical text with its members sorted. -/
theorem decodeJson_canonical {ε : Type} {hooks : DecodeHooks ε}
    (hpairs : ∀ members, (members.map Prod.fst).Nodup → hooks.pairs members = .ok ()) {v : Json}
    (h : v.Plain) : ∃ d, decodeJson hooks v.canonical = .ok d ∧ d.toJson = v.sortKeys :=
  ⟨_, decodeJson_dumps hpairs (plain_sortKeys v h), toJson_decoded _ (plain_sortKeys v h)⟩

end Lib.Json
