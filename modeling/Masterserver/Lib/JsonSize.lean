import Masterserver.Lib.JsonCanonical
import Masterserver.Lib.JsonSame
import Mathlib.Algebra.GroupWithZero.Nat
import Mathlib.Algebra.Order.BigOperators.Group.List
import Mathlib.Data.String.Basic

/-!
# The size of an encoding

How many bytes the canonical encoding of a value takes, from the sizes of its
parts: an array adds a byte for each item and one more, an object two for each
member and one more, whatever the order of the members. A text takes two bytes
more than its own, and more than that where characters are escaped.
-/

namespace Lib

/-- The bytes of a text between its quotation marks, escapes included. -/
def quotedSize (s : String) : Nat := String.utf8Len (quote s)

theorem utf8Size_of_lt {c : Char} (h : c.toNat < 128) : c.utf8Size = 1 := by
  have hle : c.val ≤ 0x7f := by
    show c.val.toNat ≤ 0x7f
    have hval : c.val.toNat = c.toNat := rfl
    omega
  simp [Char.utf8Size, hle]

theorem utf8Len_pos {cs : List Char} (h : cs ≠ []) : 0 < String.utf8Len cs := by
  rw [Nat.pos_iff_ne_zero, ne_eq, String.utf8Len_eq_zero]
  exact h

/-- An escape is no shorter than what it stands for. -/
theorem utf8Size_le_escapeChar (c : Char) : c.utf8Size ≤ String.utf8Len (escapeChar c) := by
  by_cases hlt : c.toNat < 128
  · rw [utf8Size_of_lt hlt]
    refine utf8Len_pos ?_
    unfold escapeChar
    repeat' split
    all_goals exact List.cons_ne_nil _ _
  · have hself : escapeChar c = [c] := by
      have hquote : c ≠ quoteMark := fun heq => hlt (heq ▸ by decide)
      have hslash : c ≠ backslash := fun heq => hlt (heq ▸ by decide)
      unfold escapeChar
      rw [if_neg hquote, if_neg hslash, if_neg (by omega), if_neg (by omega), if_neg (by omega),
        if_neg (by omega), if_neg (by omega), if_neg (by omega)]
    rw [hself, String.utf8Len_cons, String.utf8Len_nil]
    omega

theorem utf8Len_le_escaped (cs : List Char) :
    String.utf8Len cs ≤ String.utf8Len (cs.flatMap escapeChar) := by
  induction cs with
  | nil => exact le_rfl
  | cons c rest ih =>
      have hc := utf8Size_le_escapeChar c
      rw [List.flatMap_cons, String.utf8Len_append, String.utf8Len_cons]
      omega

theorem utf8ByteSize_le_quotedSize (s : String) : s.utf8ByteSize + 2 ≤ quotedSize s := by
  have hquote : quoteMark.utf8Size = 1 := by decide
  have hs := utf8Len_le_escaped s.toList
  rw [String.utf8Len_toList] at hs
  unfold quotedSize quote
  rw [String.utf8Len_cons, String.utf8Len_append, String.utf8Len_cons, String.utf8Len_nil, hquote]
  omega

namespace Json

/-- The bytes of the canonical encoding. -/
def size (v : Json) : Nat := String.utf8Len v.canonical

theorem size_str (s : String) : (str s).size = quotedSize s := rfl

/-! ## Arrays and objects -/

theorem utf8Len_dumpsItems (items : List Json) :
    String.utf8Len (dumpsItems items) =
      1 + (items.map fun v => String.utf8Len v.dumps + 1).sum := by
  induction items with
  | nil => rfl
  | cons v rest ih =>
      have hcomma : (',' : Char).utf8Size = 1 := by decide
      rw [dumpsItems, String.utf8Len_cons, String.utf8Len_append, ih, hcomma, List.map_cons,
        List.sum_cons]
      omega

/-- What a member takes with its colon and the separator after it. -/
def memberSize (member : String × Json) : Nat :=
  quotedSize member.1 + String.utf8Len member.2.dumps + 2

theorem utf8Len_dumpsMembers (members : List (String × Json)) :
    String.utf8Len (dumpsMembers members) = 1 + (members.map memberSize).sum := by
  induction members with
  | nil => rfl
  | cons member rest ih =>
      obtain ⟨name, v⟩ := member
      have hcomma : (',' : Char).utf8Size = 1 := by decide
      have hcolon : (':' : Char).utf8Size = 1 := by decide
      rw [dumpsMembers, String.utf8Len_cons, String.utf8Len_append, String.utf8Len_cons,
        String.utf8Len_append, ih, hcomma, hcolon, List.map_cons, List.sum_cons]
      have hmember : memberSize (name, v) =
          String.utf8Len (quote name) + String.utf8Len v.dumps + 2 := rfl
      omega

theorem utf8Len_dumps_arr {items : List Json} (h : items ≠ []) :
    String.utf8Len (arr items).dumps =
      1 + (items.map fun v => String.utf8Len v.dumps + 1).sum := by
  cases items with
  | nil => exact absurd rfl h
  | cons v rest =>
      have hbracket : ('[' : Char).utf8Size = 1 := by decide
      rw [dumps, String.utf8Len_cons, String.utf8Len_append, utf8Len_dumpsItems, hbracket,
        List.map_cons, List.sum_cons]
      omega

theorem utf8Len_dumps_obj {members : List (String × Json)} (h : members ≠ []) :
    String.utf8Len (obj members).dumps = 1 + (members.map memberSize).sum := by
  cases members with
  | nil => exact absurd rfl h
  | cons member rest =>
      obtain ⟨name, v⟩ := member
      have hbrace : ('\x7b' : Char).utf8Size = 1 := by decide
      have hcolon : (':' : Char).utf8Size = 1 := by decide
      rw [dumps, String.utf8Len_cons, String.utf8Len_append, String.utf8Len_cons,
        String.utf8Len_append, utf8Len_dumpsMembers, hbrace, hcolon, List.map_cons, List.sum_cons]
      have hmember : memberSize (name, v) =
          String.utf8Len (quote name) + String.utf8Len v.dumps + 2 := rfl
      omega

theorem size_arr {items : List Json} (h : items ≠ []) :
    (arr items).size = 1 + (items.map fun v => v.size + 1).sum := by
  have hsorted : items.map sortKeys ≠ [] := by
    rw [ne_eq, List.map_eq_nil_iff]
    exact h
  unfold size canonical
  rw [sortKeys, sortItems_eq_map, utf8Len_dumps_arr hsorted, List.map_map]
  rfl

/-- The order of the members does not matter. -/
theorem size_obj {members : List (String × Json)} (h : members ≠ []) :
    (obj members).size =
      1 + (members.map fun member => quotedSize member.1 + member.2.size + 2).sum := by
  have hperm := sortedMembers_perm members
  rw [sortMembers_eq_map] at hperm
  have hsorted : sortedMembers members ≠ [] := by
    intro hnil
    rw [hnil, List.nil_perm, List.map_eq_nil_iff] at hperm
    exact h hperm
  have hsum := (hperm.map memberSize).sum_eq
  rw [List.map_map] at hsum
  unfold size canonical
  rw [sortKeys_obj, utf8Len_dumps_obj hsorted, hsum]
  rfl

theorem size_le_arr {items : List Json} {v : Json} (h : v ∈ items) :
    v.size ≤ (arr items).size := by
  have hmem : v.size + 1 ∈ items.map fun v => v.size + 1 := List.mem_map_of_mem h
  have hle := List.single_le_sum (fun _ _ => Nat.zero_le _) _ hmem
  rw [size_arr (List.ne_nil_of_mem h)]
  omega

theorem member_le_obj {members : List (String × Json)} {member : String × Json}
    (h : member ∈ members) :
    quotedSize member.1 + member.2.size + 2 ≤ (obj members).size := by
  have hmem : quotedSize member.1 + member.2.size + 2 ∈
      members.map fun member => quotedSize member.1 + member.2.size + 2 := List.mem_map_of_mem h
  have hle := List.single_le_sum (fun _ _ => Nat.zero_le _) _ hmem
  rw [size_obj (List.ne_nil_of_mem h)]
  omega

end Json

end Lib
