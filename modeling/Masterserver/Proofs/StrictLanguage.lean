import Masterserver.Lib.JsonComplete
import Masterserver.Proofs.BadFrames

/-!
# The language of the strict decoder

`_check_nesting` runs over a text before anything is known of it, so what it
does is said piece by piece: over a piece of JSON it comes back to the depth
it started from, and it fails exactly if the piece is nested deeper than what
is left. With the decoder's grammar and the walk over the tree that gives the
texts `loads_strict` accepts.
-/

namespace Lib

/-! ## Nesting -/

namespace Decoded

mutual

/-- How many arrays and objects stand around each other at most. -/
def depth : Decoded → Nat
  | arr items => depthItems items + 1
  | obj members => depthMembers members + 1
  | _ => 0

def depthItems : List Decoded → Nat
  | [] => 0
  | v :: rest => max (depth v) (depthItems rest)

def depthMembers : List (CodePoints × Decoded) → Nat
  | [] => 0
  | (_, v) :: rest => max (depth v) (depthMembers rest)

end

end Decoded

theorem NumberText.depth {text : List Char} {v : Decoded} (h : NumberText text v) :
    v.depth = 0 := by
  cases h with
  | int => rfl
  | float => rfl

end Lib

namespace Masterserver

open Lib

/-- A character outside of strings that `_check_nesting` passes over. -/
def Plain (c : Char) : Prop :=
  c ≠ quoteMark ∧ ¬(c = '[' ∨ c = '\x7b') ∧ ¬(c = ']' ∨ c = '\x7d')

instance (c : Char) : Decidable (Plain c) :=
  inferInstanceAs (Decidable (_ ∧ _ ∧ _))

theorem plain_of_toNat {c : Char} (hquote : c.toNat ≠ 34) (hbracket : c.toNat ≠ 91)
    (hbracket' : c.toNat ≠ 93) (hbrace : c.toNat ≠ 123) (hbrace' : c.toNat ≠ 125) : Plain c := by
  refine ⟨?_, ?_, ?_⟩
  · rintro rfl
    exact hquote rfl
  · rintro (rfl | rfl)
    · exact hbracket rfl
    · exact hbrace rfl
  · rintro (rfl | rfl)
    · exact hbracket' rfl
    · exact hbrace' rfl

theorem plain_of_isBlank {c : Char} (h : isBlank c = true) : Plain c := by
  have hcode := isBlank_cases h
  exact plain_of_toNat (by omega) (by omega) (by omega) (by omega) (by omega)

theorem plain_of_isDigit {c : Char} (h : c.isDigit = true) : Plain c := by
  have hrange : 48 ≤ c.toNat ∧ c.toNat ≤ 57 := by
    simp only [Char.isDigit, Bool.and_eq_true, decide_eq_true_eq] at h
    exact ⟨h.1, h.2⟩
  exact plain_of_toNat (by omega) (by omega) (by omega) (by omega) (by omega)

theorem plain_of_digits {digits : List Char} (h : Digits digits) : ∀ c ∈ digits, Plain c :=
  fun c hc => plain_of_isDigit (h.isDigit c hc)

theorem plain_of_blanks {blanks : List Char} (h : Blanks blanks) : ∀ c ∈ blanks, Plain c :=
  fun c hc => plain_of_isBlank (h c hc)

theorem plain_of_all {text : List Char} (h : (text.all fun c => decide (Plain c)) = true) :
    ∀ c ∈ text, Plain c := fun c hc => of_decide_eq_true (List.all_eq_true.mp h c hc)

theorem plain_append {text text' : List Char} (h : ∀ c ∈ text, Plain c) (h' : ∀ c ∈ text', Plain c) :
    ∀ c ∈ text ++ text', Plain c := by
  intro c hc
  rcases List.mem_append.mp hc with hc | hc
  · exact h c hc
  · exact h' c hc

theorem plain_cons {c : Char} {text : List Char} (hc : Plain c) (h : ∀ c ∈ text, Plain c) :
    ∀ d ∈ c :: text, Plain d := List.forall_mem_cons.mpr ⟨hc, h⟩

theorem plain_whole {whole : List Char} (h : WholeText whole) : ∀ c ∈ whole, Plain c := by
  cases h with
  | zero => exact plain_cons (plain_of_isDigit rfl) nofun
  | digits _ h => exact plain_of_digits h

theorem plain_sign {sign : List Char} {negative : Bool} (h : SignText sign negative) :
    ∀ c ∈ sign, Plain c := by
  cases h with
  | none => exact nofun
  | minus => exact plain_cons (by decide) nofun

theorem plain_fraction {text digits : List Char} (h : FractionText text digits) :
    ∀ c ∈ text, Plain c := by
  cases h with
  | none => exact nofun
  | some h =>
      exact plain_cons (by decide)
        (plain_of_digits h)

theorem plain_exponent {text : List Char} {power : Option Int} (h : ExponentText text power) :
    ∀ c ∈ text, Plain c := by
  have hletter : ∀ {c : Char}, c = 'e' ∨ c = 'E' → Plain c := by
    rintro c (rfl | rfl)
    · decide
    · decide
  cases h with
  | none => exact nofun
  | plain hc h => exact plain_cons (hletter hc) (plain_of_digits h)
  | plus hc h =>
      exact plain_cons (hletter hc) (plain_cons
        (by decide)
        (plain_of_digits h))
  | minus hc h =>
      exact plain_cons (hletter hc) (plain_cons
        (by decide)
        (plain_of_digits h))

theorem plain_number {text : List Char} {v : Decoded} (h : NumberText text v) :
    ∀ c ∈ text, Plain c := by
  cases h with
  | int hsign hwhole => exact plain_append (plain_sign hsign) (plain_whole hwhole)
  | float hsign hwhole hfraction hexponent =>
      exact plain_append (plain_sign hsign) (plain_append (plain_whole hwhole)
        (plain_append (plain_fraction hfraction) (plain_exponent hexponent)))

section Nesting

/-- The outcome, unless this depth is beyond the limit. -/
def within (maximum deepest : Nat) (outcome : Except DecodeError Unit) : Except DecodeError Unit :=
  if maximum < deepest then .error (.strict "JSON nesting exceeds the limit") else outcome

variable {maximum depth : Nat} {rest : List Char}

theorem within_of_le {deepest : Nat} (h : deepest ≤ maximum) (outcome : Except DecodeError Unit) :
    within maximum deepest outcome = outcome := if_neg (not_lt.mpr h)

theorem within_congr {deepest : Nat} {outcome outcome' : Except DecodeError Unit}
    (h : deepest ≤ maximum → outcome = outcome') :
    within maximum deepest outcome = within maximum deepest outcome' := by
  unfold within
  split
  · rfl
  · next hle => exact h (not_lt.mp hle)

theorem within_within (deepest deepest' : Nat) (outcome : Except DecodeError Unit) :
    within maximum deepest (within maximum deepest' outcome) =
      within maximum (max deepest deepest') outcome := by
  unfold within
  split
  · rw [if_pos (by omega)]
  split
  · rw [if_pos (by omega)]
  · rw [if_neg (by omega)]

theorem checkNestingFrom_cons {c : Char} (h : Plain c) :
    checkNestingFrom maximum (c :: rest) depth .outside =
      checkNestingFrom maximum rest depth .outside := by
  rw [checkNestingFrom, if_neg h.1, if_neg h.2.1, if_neg h.2.2]

theorem checkNestingFrom_plain {text : List Char} (h : ∀ c ∈ text, Plain c) :
    checkNestingFrom maximum (text ++ rest) depth .outside =
      checkNestingFrom maximum rest depth .outside := by
  induction text with
  | nil => rfl
  | cons c text ih =>
      obtain ⟨hc, htext⟩ := List.forall_mem_cons.mp h
      rw [List.cons_append, checkNestingFrom_cons hc, ih htext]

/-- A character of a string that is neither a quotation mark nor a backslash. -/
theorem checkNestingFrom_inString {c : Char} (hquote : c ≠ quoteMark) (hslash : c ≠ backslash) :
    checkNestingFrom maximum (c :: rest) depth .inString =
      checkNestingFrom maximum rest depth .inString := by
  rw [checkNestingFrom, if_neg hslash, if_neg hquote]

theorem checkNestingFrom_escape {e : Char} :
    checkNestingFrom maximum (backslash :: e :: rest) depth .inString =
      checkNestingFrom maximum rest depth .inString := by
  rw [checkNestingFrom, if_pos rfl, checkNestingFrom]

theorem hexValue?_ne {c : Char} {n : Nat} (h : hexValue? c = some n) :
    c ≠ quoteMark ∧ c ≠ backslash := by
  constructor
  · rintro rfl
    cases h
  · rintro rfl
    cases h

/-- Brackets, quotation marks and backslashes in a string do not count. -/
theorem checkNestingFrom_string {body : List Char} {codes : CodePoints}
    (h : StringText body codes) :
    checkNestingFrom maximum (body ++ quoteMark :: rest) depth .inString =
      checkNestingFrom maximum rest depth .outside := by
  induction h with
  | nil =>
      have hslash : quoteMark ≠ backslash := by decide
      rw [List.nil_append, checkNestingFrom, if_neg hslash, if_pos rfl]
  | plain hquote hslash _ _ ih => rw [List.cons_append, checkNestingFrom_inString hquote hslash, ih]
  | escape _ _ ih => rw [List.cons_append, List.cons_append, checkNestingFrom_escape, ih]
  | @unicode h₁ h₂ h₃ h₄ code text codes hcode _ ih =>
      simp only [hex4?, Option.bind_eq_bind, Option.bind_eq_some_iff] at hcode
      obtain ⟨_, h₁, _, h₂, _, h₃, _, h₄, -⟩ := hcode
      simp only [List.cons_append]
      rw [checkNestingFrom_escape, checkNestingFrom_inString (hexValue?_ne h₁).1 (hexValue?_ne h₁).2,
        checkNestingFrom_inString (hexValue?_ne h₂).1 (hexValue?_ne h₂).2,
        checkNestingFrom_inString (hexValue?_ne h₃).1 (hexValue?_ne h₃).2,
        checkNestingFrom_inString (hexValue?_ne h₄).1 (hexValue?_ne h₄).2, ih]

theorem checkNestingFrom_quote :
    checkNestingFrom maximum (quoteMark :: rest) depth .outside =
      checkNestingFrom maximum rest depth .inString := by
  rw [checkNestingFrom, if_pos rfl]

theorem checkNestingFrom_name {text : List Char} {codes : CodePoints} (h : NameText text codes) :
    checkNestingFrom maximum (text ++ rest) depth .outside =
      checkNestingFrom maximum rest depth .outside := by
  obtain ⟨body, blanks, raw, hbody, hb, -, rfl⟩ := h
  simp only [List.cons_append, List.append_assoc, List.nil_append]
  rw [checkNestingFrom_quote, checkNestingFrom_string hbody,
    checkNestingFrom_plain (plain_of_blanks hb)]
  exact checkNestingFrom_cons (by decide)

theorem checkNestingFrom_open {c : Char} (hc : c = '[' ∨ c = '\x7b') :
    checkNestingFrom maximum (c :: rest) depth .outside =
      within maximum (depth + 1) (checkNestingFrom maximum rest (depth + 1) .outside) := by
  have hquote : c ≠ quoteMark := by
    rintro rfl
    revert hc
    decide
  rw [checkNestingFrom, if_neg hquote, if_pos hc]
  rfl

theorem checkNestingFrom_close {c : Char} (hc : c = ']' ∨ c = '\x7d') :
    checkNestingFrom maximum (c :: rest) (depth + 1) .outside =
      checkNestingFrom maximum rest depth .outside := by
  have hquote : c ≠ quoteMark := by
    rintro rfl
    revert hc
    decide
  have hopen : ¬(c = '[' ∨ c = '\x7b') := by
    rcases hc with rfl | rfl
    · decide
    · decide
  rw [checkNestingFrom, if_neg hquote, if_neg hopen, if_pos hc, if_neg (Nat.succ_ne_zero _)]
  rfl

/-- Over a piece of the grammar the check comes back to the depth outside of
it, or the piece is nested too deep. -/
def Nests (maximum : Nat) (text : List Char) : Part → Prop
  | .value v => ∀ depth rest, depth ≤ maximum →
      checkNestingFrom maximum (text ++ rest) depth .outside =
        within maximum (depth + v.depth) (checkNestingFrom maximum rest depth .outside)
  | .items vs => ∀ depth rest, depth + 1 ≤ maximum →
      checkNestingFrom maximum (text ++ rest) (depth + 1) .outside =
        within maximum (depth + 1 + Decoded.depthItems vs)
          (checkNestingFrom maximum rest depth .outside)
  | .members ms => ∀ depth rest, depth + 1 ≤ maximum →
      checkNestingFrom maximum (text ++ rest) (depth + 1) .outside =
        within maximum (depth + 1 + Decoded.depthMembers ms)
          (checkNestingFrom maximum rest depth .outside)

/-- A value that is neither an array nor an object. -/
theorem nests_flat {text : List Char} {v : Decoded} (hv : v.depth = 0)
    (h : ∀ depth rest, checkNestingFrom maximum (text ++ rest) depth .outside =
      checkNestingFrom maximum rest depth .outside) : Nests maximum text (.value v) := by
  intro depth rest hdepth
  rw [h, hv, Nat.add_zero, within_of_le hdepth]

/-- By induction on the derivation. -/
theorem nests_of_partText {part : Part} {text : List Char} (h : PartText part text) :
    Nests maximum text part := by
  induction h with
  | null => exact nests_flat rfl fun _ _ => checkNestingFrom_plain (plain_of_all (by decide))
  | true => exact nests_flat rfl fun _ _ => checkNestingFrom_plain (plain_of_all (by decide))
  | false => exact nests_flat rfl fun _ _ => checkNestingFrom_plain (plain_of_all (by decide))
  | number h => exact nests_flat h.depth fun _ _ => checkNestingFrom_plain (plain_number h)
  | str h =>
      refine nests_flat rfl fun depth rest => ?_
      simp only [List.cons_append, List.append_assoc, List.nil_append]
      rw [checkNestingFrom_quote, checkNestingFrom_string h]
  | emptyArr hb =>
      intro depth rest hdepth
      simp only [List.cons_append, List.append_assoc, List.nil_append]
      rw [checkNestingFrom_open (.inl rfl), checkNestingFrom_plain (plain_of_blanks hb),
        checkNestingFrom_close (.inl rfl)]
      rfl
  | @arr blanks first more v items hb _ _ ihfirst ihmore =>
      intro depth rest hdepth
      have hdeepest : max (depth + 1) (max (depth + 1 + v.depth) (depth + 1 + Decoded.depthItems items)) =
          depth + (Decoded.arr (v :: items)).depth := by
        simp only [Decoded.depth, Decoded.depthItems]
        omega
      simp only [List.cons_append, List.append_assoc]
      rw [checkNestingFrom_open (.inl rfl), checkNestingFrom_plain (plain_of_blanks hb), ← hdeepest,
        ← within_within, ← within_within]
      refine within_congr fun hopen => ?_
      rw [ihfirst (depth + 1) (more ++ rest) hopen, ihmore depth rest hopen]
  | emptyObj hb =>
      intro depth rest hdepth
      simp only [List.cons_append, List.append_assoc, List.nil_append]
      rw [checkNestingFrom_open (.inr rfl), checkNestingFrom_plain (plain_of_blanks hb),
        checkNestingFrom_close (.inr rfl)]
      rfl
  | @obj blanks name blanks' first more codes v members hb hname hb' _ _ ihfirst ihmore =>
      intro depth rest hdepth
      have hdeepest : max (depth + 1)
          (max (depth + 1 + v.depth) (depth + 1 + Decoded.depthMembers members)) =
          depth + (Decoded.obj ((codes, v) :: members)).depth := by
        simp only [Decoded.depth, Decoded.depthMembers]
        omega
      simp only [List.cons_append, List.append_assoc]
      rw [checkNestingFrom_open (.inr rfl), checkNestingFrom_plain (plain_of_blanks hb),
        checkNestingFrom_name hname, checkNestingFrom_plain (plain_of_blanks hb'), ← hdeepest,
        ← within_within, ← within_within]
      refine within_congr fun hopen => ?_
      rw [ihfirst (depth + 1) (more ++ rest) hopen, ihmore depth rest hopen]
  | lastItem hb =>
      intro depth rest hopen
      rw [List.append_assoc, checkNestingFrom_plain (plain_of_blanks hb), List.singleton_append,
        checkNestingFrom_close (.inl rfl)]
      exact (within_of_le hopen _).symm
  | @item blanks blanks' first more v items hb hb' _ _ ihfirst ihmore =>
      intro depth rest hopen
      have hdeepest : max (depth + 1 + v.depth) (depth + 1 + Decoded.depthItems items) =
          depth + 1 + Decoded.depthItems (v :: items) := by
        simp only [Decoded.depthItems]
        omega
      have hcomma : Plain ',' := by decide
      simp only [List.cons_append, List.append_assoc]
      rw [checkNestingFrom_plain (plain_of_blanks hb), checkNestingFrom_cons hcomma,
        checkNestingFrom_plain (plain_of_blanks hb'), ihfirst (depth + 1) (more ++ rest) hopen,
        ihmore depth rest hopen, within_within, hdeepest]
  | lastMember hb =>
      intro depth rest hopen
      rw [List.append_assoc, checkNestingFrom_plain (plain_of_blanks hb), List.singleton_append,
        checkNestingFrom_close (.inr rfl)]
      exact (within_of_le hopen _).symm
  | @member blanks blanks' name blanks'' first more codes v members hb hb' hname hb'' _ _ ihfirst
      ihmore =>
      intro depth rest hopen
      have hdeepest : max (depth + 1 + v.depth) (depth + 1 + Decoded.depthMembers members) =
          depth + 1 + Decoded.depthMembers ((codes, v) :: members) := by
        simp only [Decoded.depthMembers]
        omega
      have hcomma : Plain ',' := by decide
      simp only [List.cons_append, List.append_assoc]
      rw [checkNestingFrom_plain (plain_of_blanks hb), checkNestingFrom_cons hcomma,
        checkNestingFrom_plain (plain_of_blanks hb'), checkNestingFrom_name hname,
        checkNestingFrom_plain (plain_of_blanks hb''), ihfirst (depth + 1) (more ++ rest) hopen,
        ihmore depth rest hopen, within_within, hdeepest]

/-- What is JSON passes the check exactly if it is not nested too deep. -/
theorem checkNesting_json {text : List Char} {v : Decoded} (h : JsonText text v) :
    checkNesting text maximum = .ok () ↔ v.depth ≤ maximum := by
  obtain ⟨blanks, body, blanks', hb, hbody, hb', rfl⟩ := h
  have hnests : Nests maximum body (.value v) := nests_of_partText hbody
  have hend : checkNestingFrom maximum blanks' 0 .outside = .ok () := by
    rw [← List.append_nil blanks', checkNestingFrom_plain (plain_of_blanks hb')]
    rfl
  rw [checkNesting, checkNestingFrom_plain (plain_of_blanks hb), hnests 0 blanks' (Nat.zero_le _),
    hend, Nat.zero_add, within]
  split
  · next h => exact ⟨nofun, fun h' => absurd h (not_lt.mpr h')⟩
  · next h => exact ⟨fun _ => not_lt.mp h, fun _ => rfl⟩

end Nesting

/-! ## Names -/

/-- No two members have the same name. -/
def UniqueNames (members : List (CodePoints × Decoded)) : Prop :=
  (members.map Prod.fst).Nodup

theorem uniqueObject_ok {seen : List CodePoints} {members : List (CodePoints × Decoded)} :
    uniqueObject seen members = .ok () ↔
      UniqueNames members ∧ ∀ key ∈ members.map Prod.fst, key ∉ seen := by
  unfold UniqueNames
  induction members generalizing seen with
  | nil => simp [uniqueObject]
  | cons member rest ih =>
      obtain ⟨key, v⟩ := member
      rw [uniqueObject]
      simp only [List.map_cons, List.nodup_cons, List.forall_mem_cons]
      split
      · next hseen => exact ⟨(fun h => by cases h), fun h => absurd hseen h.2.1⟩
      · next hseen =>
          rw [ih]
          simp only [List.mem_cons, not_or]
          constructor
          · rintro ⟨hnodup, hrest⟩
            have hkey : key ∉ rest.map Prod.fst := fun hmem => (hrest key hmem).1 rfl
            exact ⟨⟨hkey, hnodup⟩, hseen, fun k hk => (hrest k hk).2⟩
          · rintro ⟨⟨hkey, hnodup⟩, -, hrest⟩
            exact ⟨hnodup, fun k hk => ⟨fun heq => hkey (heq ▸ hk), hrest k hk⟩⟩

theorem lets_strictHooks : strictHooks.Lets = UniqueNames := by
  funext members
  show (uniqueObject [] members = .ok ()) = UniqueNames members
  rw [uniqueObject_ok]
  simp

theorem decodeJson_strictHooks {text : List Char} {v : Decoded} :
    decodeJson strictHooks text = .ok v ↔ JsonText text v ∧ v.Objects UniqueNames := by
  rw [← lets_strictHooks]
  refine decodeJson_iff fun token v h => ?_
  cases h

/-! ## The language -/

/-- Whatever value the text stands for, all its texts encode. -/
def NoLoneSurrogate (text : List Char) : Prop :=
  ∀ v, JsonText text v → ∀ u ∈ v.visits, ∀ codes ∈ u.texts, ∀ code ∈ codes,
    isSurrogate code = false

/-- The text is JSON within the limits and stands for the value. -/
structure StrictText (limits : JsonLimits) (text : List Char) (v : Decoded) : Prop where
  bytes : String.utf8Len text ≤ limits.maxBytes
  json : JsonText text v
  nesting : v.depth ≤ limits.maxDepth
  unique : v.Objects UniqueNames
  nodes : v.visits.length ≤ limits.maxNodes
  strings : ∀ u ∈ v.visits, ∀ codes ∈ u.texts,
    String.utf8Len (codes.map Char.ofNat) ≤ limits.maxStringBytes

/-- It stands for one value only. -/
theorem noLoneSurrogate_of_json {text : List Char} {v : Decoded} (h : JsonText text v)
    (hv : ∀ u ∈ v.visits, ∀ codes ∈ u.texts, ∀ code ∈ codes, isSurrogate code = false) :
    NoLoneSurrogate text := by
  intro v' h'
  rw [← h.unique h']
  exact hv

theorem utf8Size_encodes {codes : CodePoints} (h : ∀ code ∈ codes, isSurrogate code = false) :
    utf8Size codes = some (String.utf8Len (codes.map Char.ofNat)) := by
  have hany : codes.any isSurrogate = false := by
    rw [List.any_eq_false]
    intro code hcode
    rw [h code hcode]
    exact Bool.false_ne_true
  rw [utf8Size, hany, if_neg Bool.false_ne_true]

theorem fits_iff {maxStringBytes : Nat} {codes : CodePoints}
    (h : ∀ code ∈ codes, isSurrogate code = false) :
    Fits maxStringBytes codes ↔ String.utf8Len (codes.map Char.ofNat) ≤ maxStringBytes := by
  unfold Fits
  rw [utf8Size_encodes h]
  simp

theorem SurrogateFirst.exists_none {maxStringBytes : Nat} {texts : List CodePoints}
    (h : SurrogateFirst maxStringBytes texts) : ∃ codes ∈ texts, utf8Size codes = none := by
  induction h with
  | here h => exact ⟨_, List.mem_cons_self, h⟩
  | later _ _ ih =>
      obtain ⟨codes, hmem, h⟩ := ih
      exact ⟨codes, List.mem_cons_of_mem _ hmem, h⟩

section Language

variable {limits : JsonLimits} {text : List Char}

/-- Without a lone surrogate nothing is raised but the decoder's own error. -/
theorem NoLoneSurrogate.not_first (h : NoLoneSurrogate text) :
    ¬LoneSurrogateFirst limits text := by
  rintro ⟨-, -, v, hdecode, hfirst⟩
  obtain ⟨codes, hcodes, hnone⟩ := hfirst.exists_none
  obtain ⟨u, hu, hcodes⟩ := List.mem_flatMap.mp hcodes
  have hencodes := h v (decodeJson_strictHooks.mp hdecode).1 u (List.mem_of_mem_take hu) codes hcodes
  rw [utf8Size_encodes hencodes] at hnone
  cases hnone

theorem loadsStrict_ok {value : Json} :
    loadsStrict limits text = .ok value ↔
      String.utf8Len text ≤ limits.maxBytes ∧ checkNesting text limits.maxDepth = .ok () ∧
        ∃ v, decodeJson strictHooks text = .ok v ∧
          checkTree v limits.maxNodes limits.maxStringBytes = .ok () ∧ value = v.toJson := by
  rw [loadsStrict_eq]
  split
  · next h => exact ⟨nofun, fun h' => absurd h'.1 (not_le.mpr h)⟩
  · next h =>
      unfold decodeChecked
      rw [bind_eq_ok]
      constructor
      · rintro ⟨_, hnesting, hrest⟩
        obtain ⟨v, hdecode, hrest⟩ := bind_eq_ok.mp hrest
        obtain ⟨_, htree, hrest⟩ := bind_eq_ok.mp hrest
        cases hrest
        exact ⟨not_lt.mp h, hnesting, v, hdecode, htree, rfl⟩
      · rintro ⟨-, hnesting, v, hdecode, htree, rfl⟩
        exact ⟨(), hnesting, bind_eq_ok.mpr ⟨v, hdecode, bind_eq_ok.mpr ⟨(), htree, rfl⟩⟩⟩

theorem NoLoneSurrogate.strictText_iff (h : NoLoneSurrogate text) {v : Decoded} :
    StrictText limits text v ↔
      String.utf8Len text ≤ limits.maxBytes ∧ checkNesting text limits.maxDepth = .ok () ∧
        decodeJson strictHooks text = .ok v ∧
          checkTree v limits.maxNodes limits.maxStringBytes = .ok () := by
  rw [decodeJson_strictHooks, checkTree_ok]
  constructor
  · intro hstrict
    refine ⟨hstrict.bytes, (checkNesting_json hstrict.json).mpr hstrict.nesting,
      ⟨hstrict.json, hstrict.unique⟩, hstrict.nodes, ?_⟩
    intro u hu codes hcodes
    exact (fits_iff (h v hstrict.json u hu codes hcodes)).mpr (hstrict.strings u hu codes hcodes)
  · rintro ⟨hbytes, hnesting, ⟨hjson, hunique⟩, hnodes, hfits⟩
    refine ⟨hbytes, hjson, (checkNesting_json hjson).mp hnesting, hunique, hnodes, ?_⟩
    intro u hu codes hcodes
    exact (fits_iff (h v hjson u hu codes hcodes)).mp (hfits u hu codes hcodes)

/-- For a text without lone surrogates `loads_strict` returns the value of a
JSON text within the limits, and raises its own error for every other. -/
theorem loadsStrict_language (limits : JsonLimits) {text : List Char} (h : NoLoneSurrogate text) :
    (∀ value, loadsStrict limits text = .ok value ↔
      ∃ v, StrictText limits text v ∧ value = v.toJson) ∧
    ((∀ v, ¬StrictText limits text v) →
      ∃ message, loadsStrict limits text = .error (.strict message)) := by
  have hok : ∀ value, loadsStrict limits text = .ok value ↔
      ∃ v, StrictText limits text v ∧ value = v.toJson := by
    intro value
    rw [loadsStrict_ok]
    simp only [h.strictText_iff, and_assoc, exists_and_left]
  refine ⟨hok, fun hnone => ?_⟩
  have hclosed : FailsClosed (loadsStrict limits text) := by
    rw [failsClosed_iff, Ne, loadsStrict_unicodeEncode]
    exact h.not_first
  obtain ⟨value, hvalue⟩ | hmessage := hclosed
  · obtain ⟨v, hstrict, -⟩ := (hok value).mp hvalue
    exact absurd hstrict (hnone v)
  · exact hmessage

/-- An array of a string that is a bracket. -/
def bracketText : List Char := ['[', quoteMark, ']', quoteMark, ']']

theorem bracketText_json : JsonText bracketText (.arr [.str [93]]) := by
  have hstring : StringText [']'] [93] := .plain (by decide) (by decide) (by decide) .nil
  have hmore : PartText (.items []) [']'] := .lastItem (nofun : Blanks [])
  have hbody : PartText (.value (.arr [.str [93]])) bracketText :=
    .arr (nofun : Blanks []) (.str hstring) hmore
  exact ⟨[], bracketText, [], nofun, hbody, nofun, rfl⟩

/-- It is one level deep. -/
theorem loadsStrict_language_bracket :
    loadsStrict { maxBytes := 5, maxDepth := 1 } bracketText =
      .ok (Decoded.arr [.str [93]]).toJson := by
  have hencodes : NoLoneSurrogate bracketText :=
    noLoneSurrogate_of_json bracketText_json (by decide)
  have hstrict : StrictText { maxBytes := 5, maxDepth := 1 } bracketText (.arr [.str [93]]) :=
    ⟨by decide, bracketText_json, by decide, ⟨trivial, trivial⟩, by decide, by decide⟩
  exact ((loadsStrict_language _ hencodes).1 _).mpr ⟨_, hstrict, rfl⟩

end Language

end Masterserver
