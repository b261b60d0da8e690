import Masterserver.Lib.JsonCanonical
import Masterserver.Lib.JsonWritten

/-!
# Different values are written differently

Also where they hold floating-point numbers, which `decodeJson` reads but does
not give back as the text they had, and the constants, which it refuses. What
is written is taken apart instead: a quotation mark, a bracket or a brace says
what kind of value begins, and the text of any other value goes on up to the
first character that closes or separates.

All that is asked of the text of a floating-point number is that no other
value is written as it.
-/

namespace Lib

/-- A character that neither opens, closes nor separates. -/
def isBare (c : Char) : Bool := decide (c ∉ [quoteMark, '[', ']', '\x7b', '\x7d', ','])

theorem Delimited.not_isBare {c : Char} {tail : List Char} (h : Delimited (c :: tail)) :
    isBare c = false := by
  obtain rfl | rfl | rfl := h c tail rfl
  · rfl
  · rfl
  · rfl

/-- Two texts without such characters, up to where they end. -/
theorem bare_append_inj {text text' rest rest' : List Char} (hbare : ∀ c ∈ text, isBare c = true)
    (hbare' : ∀ c ∈ text', isBare c = true) (hrest : Delimited rest) (hrest' : Delimited rest')
    (h : text ++ rest = text' ++ rest') : text = text' ∧ rest = rest' := by
  induction text generalizing text' with
  | nil =>
      cases text' with
      | nil => exact ⟨rfl, h⟩
      | cons c tail =>
          rw [List.nil_append, List.cons_append] at h
          rw [h] at hrest
          exact absurd (hbare' c List.mem_cons_self) (by rw [hrest.not_isBare]; nofun)
  | cons c tail ih =>
      cases text' with
      | nil =>
          rw [List.nil_append, List.cons_append] at h
          rw [← h] at hrest'
          exact absurd (hbare c List.mem_cons_self) (by rw [hrest'.not_isBare]; nofun)
      | cons c' tail' =>
          obtain ⟨rfl, htail⟩ := List.cons.inj h
          obtain ⟨rfl, rfl⟩ := ih (fun d hd => hbare d (List.mem_cons_of_mem c hd))
            (fun d hd => hbare' d (List.mem_cons_of_mem c hd)) htail
          exact ⟨rfl, rfl⟩

theorem quote_append_inj {s s' : String} {rest rest' : List Char}
    (h : quote s ++ rest = quote s' ++ rest') : s = s' ∧ rest = rest' := by
  obtain ⟨body, hbody, hscan⟩ := scanString_quote s rest
  obtain ⟨body', hbody', hscan'⟩ := scanString_quote s' rest'
  rw [hbody, hbody'] at h
  obtain ⟨-, rfl⟩ := List.cons.inj h
  rw [hscan, Option.some.injEq, Prod.mk.injEq] at hscan'
  refine ⟨?_, hscan'.2⟩
  rw [← textOf_codePoints s, hscan'.1, textOf_codePoints]

/-! ## Numbers -/

theorem toString_int_injective {n n' : Int} (h : (toString n).toList = (toString n').toList) :
    n = n' := by
  have hdigits (m : Nat) : '-' ∉ Nat.toDigits 10 m := fun hmem =>
    absurd (Nat.isDigit_of_mem_toDigits (by decide) (by decide) hmem) (by decide)
  have habs {m m' : Nat} (h : Nat.toDigits 10 m = Nat.toDigits 10 m') : m = m' := by
    rw [← Nat.ofDigitChars_ten_toDigits (n := m), h, Nat.ofDigitChars_ten_toDigits]
  rw [toList_toString_int, toList_toString_int] at h
  split at h
  · split at h
    · have := habs (List.cons.inj h).2
      omega
    · exact absurd (h ▸ List.mem_cons_self) (hdigits n'.natAbs)
  · split at h
    · exact absurd (h ▸ List.mem_cons_self) (hdigits n.natAbs)
    · have := habs h
      omega

theorem mem_toString_int {n : Int} {c : Char} (h : c ∈ (toString n).toList) :
    c.isDigit = true ∨ c = '-' := by
  have hdigit {m : Nat} (h : c ∈ Nat.toDigits 10 m) : c.isDigit = true :=
    Nat.isDigit_of_mem_toDigits (by decide) (by decide) h
  rw [toList_toString_int] at h
  split at h
  · obtain rfl | h := List.mem_cons.mp h
    · exact .inr rfl
    · exact .inl (hdigit h)
  · exact .inl (hdigit h)

theorem isBare_of_isDigit {c : Char} (h : c.isDigit = true) : isBare c = true := by
  refine decide_eq_true fun hmem => ?_
  simp only [List.mem_cons, List.not_mem_nil, or_false] at hmem
  obtain rfl | rfl | rfl | rfl | rfl | rfl := hmem <;> exact absurd h (by decide)

namespace Json

/-- The text of a number that no other value is written as. -/
structure Distinct (text : String) : Prop where
  bare : ∀ c ∈ text.toList, isBare c = true
  notWord : text.toList ≠ null.dumps ∧ ∀ b, text.toList ≠ (bool b).dumps
  notInt : ∃ c ∈ text.toList, c.isDigit = false ∧ c ≠ '-'

/-- A value that is neither a text, an array nor an object. -/
def isAtom : Json → Bool
  | .str _ | .arr _ | .obj _ => false
  | _ => true

theorem bare_dumps {v : Json} (h : v.isAtom = true) (hv : v.Floats Distinct) :
    (∀ c ∈ v.dumps, isBare c = true) ∧ v.dumps ≠ [] := by
  cases v with
  | null => exact ⟨List.all_eq_true.mp (by decide), by decide⟩
  | bool b => cases b <;> exact ⟨List.all_eq_true.mp (by decide), by decide⟩
  | int n =>
      obtain ⟨c, tail, heq, -⟩ := dumps_int_eq_cons n
      refine ⟨fun c hc => ?_, by rw [heq]; nofun⟩
      obtain hdigit | rfl := mem_toString_int hc
      · exact isBare_of_isDigit hdigit
      · rfl
  | float text =>
      obtain ⟨c, hc, -⟩ := hv.notInt
      exact ⟨hv.bare, List.ne_nil_of_mem hc⟩
  | str s => cases h
  | arr items => cases h
  | obj members => cases h

theorem ne_toString_int {text : List Char} (h : ∃ c ∈ text, c.isDigit = false ∧ c ≠ '-') (n : Int) :
    text ≠ (int n).dumps := by
  rintro rfl
  obtain ⟨c, hc, hdigit, hsign⟩ := h
  obtain hdigit' | rfl := mem_toString_int hc
  · rw [hdigit] at hdigit'
    cases hdigit'
  · exact hsign rfl

theorem word_ne_int (n : Int) : null.dumps ≠ (int n).dumps ∧ ∀ b, (bool b).dumps ≠ (int n).dumps := by
  refine ⟨ne_toString_int ⟨'n', by decide⟩ n, fun b => ?_⟩
  cases b with
  | false => exact ne_toString_int ⟨'f', by decide⟩ n
  | true => exact ne_toString_int ⟨'t', by decide⟩ n

theorem atom_dumps_inj {v w : Json} (hv : v.isAtom = true) (hw : w.isAtom = true)
    (hfv : v.Floats Distinct) (hfw : w.Floats Distinct) (h : v.dumps = w.dumps) : v = w := by
  cases v with
  | null =>
      cases w with
      | null => rfl
      | bool b => cases b <;> exact absurd h (by decide)
      | int n => exact absurd h (word_ne_int n).1
      | float text => exact absurd h.symm hfw.notWord.1
      | _ => cases hw
  | bool b =>
      cases w with
      | null => cases b <;> exact absurd h (by decide)
      | bool b' =>
          cases b <;> cases b' <;> first | rfl | exact absurd h (by decide)
      | int n => exact absurd h ((word_ne_int n).2 b)
      | float text => exact absurd h.symm (hfw.notWord.2 b)
      | _ => cases hw
  | int n =>
      cases w with
      | null => exact absurd h.symm (word_ne_int n).1
      | bool b => exact absurd h.symm ((word_ne_int n).2 b)
      | int n' => exact congrArg int (toString_int_injective h)
      | float text => exact absurd h.symm (ne_toString_int hfw.notInt n)
      | _ => cases hw
  | float text =>
      cases w with
      | null => exact absurd h hfv.notWord.1
      | bool b => exact absurd h (hfv.notWord.2 b)
      | int n => exact absurd h (ne_toString_int hfv.notInt n)
      | float text' => exact congrArg float (String.toList_injective h)
      | _ => cases hw
  | _ => cases hv

/-! ## Whole values -/

/-- What a value that is no atom begins with. -/
theorem dumps_eq_cons_of_not_isAtom {v : Json} (h : v.isAtom = false) :
    ∃ c tail, v.dumps = c :: tail ∧ isBare c = false ∧ ¬ Delimited (c :: tail) := by
  cases v with
  | str s => exact ⟨_, _, rfl, by decide, fun h => absurd (h _ _ rfl) (by decide)⟩
  | arr items =>
      cases items <;> exact ⟨_, _, rfl, by decide, fun h => absurd (h _ _ rfl) (by decide)⟩
  | obj members =>
      cases members <;> exact ⟨_, _, rfl, by decide, fun h => absurd (h _ _ rfl) (by decide)⟩
  | _ => cases h

/-- An atom is not written as the beginning of any other value, nor the other
way round. -/
theorem atom_ne_append {v w : Json} (hv : v.isAtom = true) (hw : w.isAtom = false)
    (hfv : v.Floats Distinct) (rest rest' : List Char) : v.dumps ++ rest ≠ w.dumps ++ rest' := by
  obtain ⟨hbare, hne⟩ := bare_dumps hv hfv
  obtain ⟨c, tail, hcons, hc, -⟩ := dumps_eq_cons_of_not_isAtom hw
  obtain ⟨d, tail', hd⟩ := List.exists_cons_of_ne_nil hne
  rw [hcons, hd]
  intro h
  obtain ⟨rfl, -⟩ := List.cons.inj h
  rw [hbare d (hd ▸ List.mem_cons_self)] at hc
  cases hc

/-- No value begins like the end of an array. -/
theorem dumps_not_close {v : Json} (hfv : v.Floats Distinct) (rest rest' : List Char) :
    v.dumps ++ rest ≠ ']' :: rest' := by
  intro h
  cases hatom : v.isAtom with
  | true =>
      obtain ⟨hbare, hne⟩ := bare_dumps hatom hfv
      obtain ⟨d, tail, hd⟩ := List.exists_cons_of_ne_nil hne
      rw [hd] at h
      obtain ⟨rfl, -⟩ := List.cons.inj h
      exact absurd (hbare ']' (hd ▸ List.mem_cons_self)) (by decide)
  | false =>
      obtain ⟨c, tail, hcons, -, hopen⟩ := dumps_eq_cons_of_not_isAtom hatom
      rw [hcons] at h
      obtain ⟨rfl, -⟩ := List.cons.inj h
      exact hopen (delimited_cons (.inr (.inl rfl)) tail)

theorem atom_append_inj {v w : Json} (hv : v.isAtom = true) (hfv : v.Floats Distinct)
    (hfw : w.Floats Distinct) {rest rest' : List Char} (hrest : Delimited rest)
    (hrest' : Delimited rest') (h : v.dumps ++ rest = w.dumps ++ rest') : v = w ∧ rest = rest' := by
  cases hw : w.isAtom with
  | true =>
      obtain ⟨heq, hrests⟩ :=
        bare_append_inj (bare_dumps hv hfv).1 (bare_dumps hw hfw).1 hrest hrest' h
      exact ⟨atom_dumps_inj hv hw hfv hfw heq, hrests⟩
  | false => exact absurd h (atom_ne_append hv hw hfv rest rest')

/-- The kinds of values other than atoms begin differently. -/
inductive Opens : Json → Char → Prop
  | str (s : String) : Opens (.str s) quoteMark
  | arr (items : List Json) : Opens (.arr items) '['
  | obj (members : List (String × Json)) : Opens (.obj members) '\x7b'

theorem Opens.dumps {v : Json} {c : Char} (h : Opens v c) : v.dumps.head? = some c := by
  cases h with
  | str s => rfl
  | arr items => cases items <;> rfl
  | obj members => cases members <;> rfl

/-- A value that is written like one that is no atom opens like it. -/
theorem Opens.of_append {v w : Json} {c : Char} (hv : Opens v c) (hfw : w.Floats Distinct)
    {rest rest' : List Char} (h : v.dumps ++ rest = w.dumps ++ rest') : Opens w c := by
  have hatom : v.isAtom = false := by cases hv <;> rfl
  have hother {d : Char} (hw : Opens w d) : Opens w c := by
    have hhead := congrArg List.head? h
    rw [List.head?_append, List.head?_append, hv.dumps, hw.dumps] at hhead
    rwa [show c = d from Option.some.inj hhead]
  cases w with
  | str s => exact hother (.str s)
  | arr items => exact hother (.arr items)
  | obj members => exact hother (.obj members)
  | _ => exact absurd h.symm (atom_ne_append rfl hatom hfw rest' rest)

theorem dumps_arr_append (v : Json) (items : List Json) (rest : List Char) :
    (arr (v :: items)).dumps ++ rest = '[' :: (v.dumps ++ (dumpsItems items ++ rest)) := by
  rw [dumps, List.cons_append, List.append_assoc]

theorem dumpsItems_cons_append (v : Json) (items : List Json) (rest : List Char) :
    dumpsItems (v :: items) ++ rest = ',' :: (v.dumps ++ (dumpsItems items ++ rest)) := by
  rw [dumpsItems, List.cons_append, List.append_assoc]

theorem dumps_obj_append (name : String) (v : Json) (members : List (String × Json))
    (rest : List Char) : (obj ((name, v) :: members)).dumps ++ rest =
      '\x7b' :: (quote name ++ ':' :: (v.dumps ++ (dumpsMembers members ++ rest))) := by
  rw [dumps, List.cons_append, List.append_assoc, List.cons_append, List.append_assoc]

theorem dumpsMembers_cons_append (name : String) (v : Json) (members : List (String × Json))
    (rest : List Char) : dumpsMembers ((name, v) :: members) ++ rest =
      ',' :: (quote name ++ ':' :: (v.dumps ++ (dumpsMembers members ++ rest))) := by
  rw [dumpsMembers, List.cons_append, List.append_assoc, List.cons_append, List.append_assoc]

mutual

theorem dumps_append_inj : ∀ (v w : Json) (rest rest' : List Char), v.Floats Distinct →
    w.Floats Distinct → Delimited rest → Delimited rest' →
    v.dumps ++ rest = w.dumps ++ rest' → v = w ∧ rest = rest'
  | .null, _, _, _, hfv, hfw, hrest, hrest', h => atom_append_inj rfl hfv hfw hrest hrest' h
  | .bool _, _, _, _, hfv, hfw, hrest, hrest', h => atom_append_inj rfl hfv hfw hrest hrest' h
  | .int _, _, _, _, hfv, hfw, hrest, hrest', h => atom_append_inj rfl hfv hfw hrest hrest' h
  | .float _, _, _, _, hfv, hfw, hrest, hrest', h => atom_append_inj rfl hfv hfw hrest hrest' h
  | .str s, w, _, _, _, hfw, _, _, h => by
      cases (Opens.str s).of_append hfw h with
      | str s' =>
          obtain ⟨rfl, hrests⟩ := quote_append_inj h
          exact ⟨rfl, hrests⟩
  | .arr [], w, _, rest', _, hfw, _, _, h => by
      cases (Opens.arr []).of_append hfw h with
      | arr items =>
          cases items with
          | nil => exact ⟨rfl, (List.cons.inj (List.cons.inj h).2).2⟩
          | cons x xs =>
              rw [dumps_arr_append] at h
              exact absurd (List.cons.inj h).2.symm (dumps_not_close hfw.1 _ _)
  | .arr (v :: items), w, rest, rest', hfv, hfw, _, _, h => by
      cases (Opens.arr (v :: items)).of_append hfw h with
      | arr items' =>
          rw [dumps_arr_append] at h
          cases items' with
          | nil => exact absurd (List.cons.inj h).2 (dumps_not_close hfv.1 _ _)
          | cons x xs =>
              rw [dumps_arr_append] at h
              obtain ⟨rfl, hitems⟩ := dumps_append_inj v x _ _ hfv.1 hfw.1
                (dumpsItems_delimited items rest) (dumpsItems_delimited xs rest')
                (List.cons.inj h).2
              obtain ⟨rfl, hrests⟩ := dumpsItems_append_inj items xs rest rest' hfv.2 hfw.2 hitems
              exact ⟨rfl, hrests⟩
  | .obj [], w, _, _, _, hfw, _, _, h => by
      cases (Opens.obj []).of_append hfw h with
      | obj members =>
          cases members with
          | nil => exact ⟨rfl, (List.cons.inj (List.cons.inj h).2).2⟩
          | cons member members =>
              exact absurd (List.cons.inj (List.cons.inj h).2).1 (by decide)
  | .obj ((name, v) :: members), w, rest, rest', hfv, hfw, _, _, h => by
      cases (Opens.obj ((name, v) :: members)).of_append hfw h with
      | obj members' =>
          rw [dumps_obj_append] at h
          cases members' with
          | nil => exact absurd (List.cons.inj (List.cons.inj h).2).1 (by decide)
          | cons member members' =>
              obtain ⟨name', x⟩ := member
              rw [dumps_obj_append] at h
              obtain ⟨rfl, hvalue⟩ := quote_append_inj (List.cons.inj h).2
              obtain ⟨rfl, hmembers⟩ := dumps_append_inj v x _ _ hfv.1 hfw.1
                (dumpsMembers_delimited members rest) (dumpsMembers_delimited members' rest')
                (List.cons.inj hvalue).2
              obtain ⟨rfl, hrests⟩ :=
                dumpsMembers_append_inj members members' rest rest' hfv.2 hfw.2 hmembers
              exact ⟨rfl, hrests⟩

theorem dumpsItems_append_inj : ∀ (items items' : List Json) (rest rest' : List Char),
    FloatsItems Distinct items → FloatsItems Distinct items' →
    dumpsItems items ++ rest = dumpsItems items' ++ rest' → items = items' ∧ rest = rest'
  | [], [], _, _, _, _, h => ⟨rfl, (List.cons.inj h).2⟩
  | [], _ :: _, _, _, _, _, h => absurd (List.cons.inj h).1 (by decide)
  | _ :: _, [], _, _, _, _, h => absurd (List.cons.inj h).1 (by decide)
  | v :: items, w :: items', rest, rest', hfv, hfw, h => by
      rw [dumpsItems_cons_append, dumpsItems_cons_append] at h
      obtain ⟨rfl, hitems⟩ := dumps_append_inj v w _ _ hfv.1 hfw.1
        (dumpsItems_delimited items rest) (dumpsItems_delimited items' rest') (List.cons.inj h).2
      obtain ⟨rfl, hrests⟩ := dumpsItems_append_inj items items' rest rest' hfv.2 hfw.2 hitems
      exact ⟨rfl, hrests⟩

theorem dumpsMembers_append_inj : ∀ (members members' : List (String × Json))
    (rest rest' : List Char), FloatsMembers Distinct members → FloatsMembers Distinct members' →
    dumpsMembers members ++ rest = dumpsMembers members' ++ rest' →
    members = members' ∧ rest = rest'
  | [], [], _, _, _, _, h => ⟨rfl, (List.cons.inj h).2⟩
  | [], _ :: _, _, _, _, _, h => absurd (List.cons.inj h).1 (by decide)
  | _ :: _, [], _, _, _, _, h => absurd (List.cons.inj h).1 (by decide)
  | (name, v) :: members, (name', w) :: members', rest, rest', hfv, hfw, h => by
      rw [dumpsMembers_cons_append, dumpsMembers_cons_append] at h
      obtain ⟨rfl, hvalue⟩ := quote_append_inj (List.cons.inj h).2
      obtain ⟨rfl, hmembers⟩ := dumps_append_inj v w _ _ hfv.1 hfw.1
        (dumpsMembers_delimited members rest) (dumpsMembers_delimited members' rest')
        (List.cons.inj hvalue).2
      obtain ⟨rfl, hrests⟩ :=
        dumpsMembers_append_inj members members' rest rest' hfv.2 hfw.2 hmembers
      exact ⟨rfl, hrests⟩

end

theorem dumps_injective {v w : Json} (hv : v.Floats Distinct) (hw : w.Floats Distinct)
    (h : v.dumps = w.dumps) : v = w :=
  (dumps_append_inj v w [] [] hv hw delimited_nil delimited_nil (congrArg (· ++ []) h)).1

/-! ## Canonical texts -/

variable {ok : String → Prop}

theorem floatsMembers_iff {members : List (String × Json)} :
    FloatsMembers ok members ↔ ∀ member ∈ members, member.2.Floats ok := by
  induction members with
  | nil => exact iff_of_true trivial (List.forall_mem_nil _)
  | cons member rest ih =>
      obtain ⟨name, v⟩ := member
      rw [FloatsMembers, ih, List.forall_mem_cons]

mutual

theorem floats_sortKeys : ∀ v : Json, v.Floats ok → v.sortKeys.Floats ok
  | .null, h | .bool _, h | .int _, h | .float _, h | .str _, h => h
  | .arr items, h => floats_sortItems items h
  | .obj members, h => by
      rw [sortKeys_obj]
      refine floatsMembers_iff.mpr fun member hmember => ?_
      exact floatsMembers_iff.mp (floats_sortMembers members h) member
        ((sortedMembers_perm members).mem_iff.mp hmember)

theorem floats_sortItems : ∀ items : List Json, FloatsItems ok items →
    FloatsItems ok (sortItems items)
  | [], _ => trivial
  | v :: rest, h => ⟨floats_sortKeys v h.1, floats_sortItems rest h.2⟩

theorem floats_sortMembers : ∀ members : List (String × Json), FloatsMembers ok members →
    FloatsMembers ok (sortMembers members)
  | [], _ => trivial
  | (_, v) :: rest, h => ⟨floats_sortKeys v h.1, floats_sortMembers rest h.2⟩

end

/-- Values with the same canonical text are the same up to the order of
members. -/
theorem sortKeys_of_canonical {v w : Json} (hv : v.Floats Distinct) (hw : w.Floats Distinct)
    (h : v.canonical = w.canonical) : v.sortKeys = w.sortKeys :=
  dumps_injective (floats_sortKeys v hv) (floats_sortKeys w hw) h

end Json

/-! ## Printed numbers -/

/-- The characters of a number with a fraction or an exponent. -/
def isNumberChar (c : Char) : Bool := c.isDigit || decide (c ∈ ['.', 'e', 'E', '+', '-'])

theorem isBare_of_isNumberChar {c : Char} (h : isNumberChar c = true) : isBare c = true := by
  obtain h | h := Bool.or_eq_true _ _ |>.mp h
  · exact isBare_of_isDigit h
  · have hmem := of_decide_eq_true h
    simp only [List.mem_cons, List.not_mem_nil, or_false] at hmem
    obtain rfl | rfl | rfl | rfl | rfl := hmem <;> rfl

theorem Digits.isNumberChar {digits : List Char} (h : Digits digits) :
    ∀ c ∈ digits, Lib.isNumberChar c = true := fun c hc => by
  rw [Lib.isNumberChar, h.isDigit c hc, Bool.true_or]

theorem WholeText.isNumberChar {whole : List Char} (h : WholeText whole) :
    ∀ c ∈ whole, Lib.isNumberChar c = true := by
  cases h with
  | zero => exact List.forall_mem_singleton.mpr rfl
  | digits hc h => exact h.isNumberChar

theorem FractionText.isNumberChar {fraction digits : List Char} (h : FractionText fraction digits) :
    (∀ c ∈ fraction, Lib.isNumberChar c = true) ∧ (digits ≠ [] → '.' ∈ fraction) := by
  cases h with
  | none => exact ⟨nofun, fun h => absurd rfl h⟩
  | some h => exact ⟨List.forall_mem_cons.mpr ⟨rfl, h.isNumberChar⟩, fun _ => List.mem_cons_self⟩

theorem ExponentText.isNumberChar {exponent : List Char} {power : Option Int}
    (h : ExponentText exponent power) :
    (∀ c ∈ exponent, Lib.isNumberChar c = true) ∧
      (power ≠ Option.none → 'e' ∈ exponent ∨ 'E' ∈ exponent) := by
  have hmark {c : Char} (hc : c = 'e' ∨ c = 'E') (rest : List Char) :
      Lib.isNumberChar c = true ∧ ('e' ∈ c :: rest ∨ 'E' ∈ c :: rest) := by
    obtain rfl | rfl := hc
    · exact ⟨rfl, .inl List.mem_cons_self⟩
    · exact ⟨rfl, .inr List.mem_cons_self⟩
  cases h with
  | none => exact ⟨nofun, fun h => absurd rfl h⟩
  | plain hc h =>
      exact ⟨List.forall_mem_cons.mpr ⟨(hmark hc []).1, h.isNumberChar⟩, fun _ => (hmark hc _).2⟩
  | plus hc h | minus hc h =>
      exact ⟨List.forall_mem_cons.mpr ⟨(hmark hc []).1, List.forall_mem_cons.mpr
        ⟨rfl, h.isNumberChar⟩⟩, fun _ => (hmark hc _).2⟩

theorem FloatText.isNumberChar {negative : Bool} {text : List Char} (h : FloatText negative text) :
    (∀ c ∈ text, Lib.isNumberChar c = true) ∧ ∃ c ∈ text, c.isDigit = false ∧ c ≠ '-' := by
  obtain ⟨_, _, h⟩ := h
  cases h with
  | float hsign hwhole hfraction hexponent hpart =>
      constructor
      · intro c hc
        rw [List.mem_append, List.mem_append, List.mem_append] at hc
        obtain hc | hc | hc | hc := hc
        · cases hsign with
          | none => cases hc
          | minus => rw [List.mem_singleton.mp hc]; rfl
        · exact hwhole.isNumberChar c hc
        · exact hfraction.isNumberChar.1 c hc
        · exact hexponent.isNumberChar.1 c hc
      · obtain hdigits | hpower := not_and_or.mp hpart
        · refine ⟨'.', ?_, by decide⟩
          rw [List.mem_append, List.mem_append, List.mem_append]
          exact .inr (.inr (.inl (hfraction.isNumberChar.2 hdigits)))
        · obtain hmark | hmark := hexponent.isNumberChar.2 hpower
          · refine ⟨'e', ?_, by decide⟩
            rw [List.mem_append, List.mem_append, List.mem_append]
            exact .inr (.inr (.inr hmark))
          · refine ⟨'E', ?_, by decide⟩
            rw [List.mem_append, List.mem_append, List.mem_append]
            exact .inr (.inr (.inr hmark))

theorem FloatText.distinct {negative : Bool} {text : String} (h : FloatText negative text.toList) :
    Json.Distinct text := by
  obtain ⟨hchars, hpart⟩ := h.isNumberChar
  have hword {word : List Char} (hword : ∃ c ∈ word, Lib.isNumberChar c = false) :
      text.toList ≠ word := by
    rintro rfl
    obtain ⟨c, hc, hnot⟩ := hword
    rw [hchars c hc] at hnot
    cases hnot
  refine ⟨fun c hc => isBare_of_isNumberChar (hchars c hc), ⟨hword ⟨'n', by decide⟩, ?_⟩, hpart⟩
  intro b
  cases b with
  | false => exact hword ⟨'f', by decide⟩
  | true => exact hword ⟨'t', by decide⟩

/-- A number is printed as no other value is. -/
theorem distinct_printLiteral (negative : Bool) (digits : Nat) (e : Int) :
    Json.Distinct (printLiteral negative digits e) := by
  obtain ⟨-, htext⟩ | ⟨-, htext⟩ := printLiteral_cases negative digits e
  · have hconstant (text : String) (h : text = "Infinity" ∨ text = "-Infinity") :
        Json.Distinct text := by
      obtain rfl | rfl := h
      · exact ⟨List.all_eq_true.mp (by decide), ⟨by decide, by decide⟩, 'I', by decide⟩
      · exact ⟨List.all_eq_true.mp (by decide), ⟨by decide, by decide⟩, 'I', by decide⟩
    refine hconstant _ ?_
    rw [htext]
    cases negative
    · exact .inl rfl
    · exact .inr rfl
  · exact htext.distinct

end Lib
