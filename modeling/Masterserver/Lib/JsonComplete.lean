import Masterserver.Lib.JsonGrammar
import Masterserver.Lib.JsonRoundTrip

/-!
# The decoder reads the whole grammar

The other direction of `scan_sound`: a piece of the grammar is taken off a
text whole, whatever comes after it. Only a number has to be told where it
ends, and what can follow a value tells it.
-/

namespace Lib

open Json

/-- What can stand after a value. -/
def Follows (rest : List Char) : Prop :=
  ∀ c tail, rest = c :: tail → isBlank c = true ∨ c = ',' ∨ c = ']' ∨ c = '\x7d'

theorem follows_nil : Follows [] := nofun

theorem follows_cons {c : Char} (h : isBlank c = true ∨ c = ',' ∨ c = ']' ∨ c = '\x7d')
    (tail : List Char) : Follows (c :: tail) := by
  intro c' tail' heq
  cases heq
  exact h

theorem Blanks.follows {blanks rest : List Char} (h : Blanks blanks) (hrest : Follows rest) :
    Follows (blanks ++ rest) := by
  cases blanks with
  | nil => exact hrest
  | cons c blanks => exact follows_cons (.inl (h c List.mem_cons_self)) _

theorem PartText.follows_items {more : List Char} {vs : List Decoded}
    (h : PartText (.items vs) more) (rest : List Char) : Follows (more ++ rest) := by
  cases h with
  | lastItem hb =>
      rw [List.append_assoc]
      exact hb.follows (follows_cons (.inr (.inr (.inl rfl))) _)
  | item hb =>
      rw [List.append_assoc]
      exact hb.follows (follows_cons (.inr (.inl rfl)) _)

theorem PartText.follows_members {more : List Char} {ms : List (CodePoints × Decoded)}
    (h : PartText (.members ms) more) (rest : List Char) : Follows (more ++ rest) := by
  cases h with
  | lastMember hb =>
      rw [List.append_assoc]
      exact hb.follows (follows_cons (.inr (.inr (.inr rfl))) _)
  | member hb =>
      rw [List.append_assoc]
      exact hb.follows (follows_cons (.inr (.inl rfl)) _)

/-! ## Tokens -/

theorem isBlank_cases {c : Char} (h : isBlank c = true) :
    c.toNat = 32 ∨ c.toNat = 9 ∨ c.toNat = 10 ∨ c.toNat = 13 := by
  unfold isBlank at h
  simp only [Bool.or_eq_true, decide_eq_true_eq] at h
  tauto

/-- A character that follows a value is no part of a number. -/
theorem Follows.no_number {c : Char} {tail : List Char} (h : Follows (c :: tail)) :
    c.isDigit = false ∧ c ≠ '.' ∧ c ≠ 'e' ∧ c ≠ 'E' := by
  obtain hblank | rfl | rfl | rfl := h c tail rfl
  · have hcode := isBlank_cases hblank
    refine ⟨?_, ?_, ?_, ?_⟩
    · cases hdigit : c.isDigit with
      | false => rfl
      | true =>
          rw [isBlank_of_isDigit hdigit] at hblank
          cases hblank
    all_goals
      rintro rfl
      revert hcode
      decide
  · decide
  · decide
  · decide

theorem Follows.noDigit {rest : List Char} (h : Follows rest) : NoDigit rest := by
  rintro c tail rfl
  exact h.no_number.1

theorem skipBlank_append {blanks : List Char} (h : Blanks blanks) (rest : List Char) :
    skipBlank (blanks ++ rest) = skipBlank rest := by
  induction blanks with
  | nil => rfl
  | cons c blanks ih =>
      obtain ⟨hc, hb⟩ := List.forall_mem_cons.mp h
      rw [List.cons_append, skipBlank, if_pos hc, ih hb]

theorem scanString_complete {body : List Char} {codes : CodePoints} (h : StringText body codes)
    (rest : List Char) : scanString (body ++ quoteMark :: rest) = some (codes, rest) := by
  induction h with
  | nil => exact scanString_quoteMark rest
  | plain hquote hslash hcontrol _ ih =>
      rw [List.cons_append, scanString_plain hquote hslash (not_lt.mpr hcontrol), ih]
      rfl
  | @escape e code text codes hcode _ ih =>
      have hne : e ≠ 'u' := by
        rintro rfl
        cases hcode
      rw [List.cons_append, List.cons_append, scanString_escape hne hcode, ih]
      rfl
  | unicode hcode _ ih =>
      simp only [List.cons_append]
      rw [scanString_hex hcode, ih]
      rfl

theorem scanWhole_complete {whole rest : List Char} (h : WholeText whole) (hrest : NoDigit rest) :
    scanWhole (whole ++ rest) = (whole, rest) := by
  cases h with
  | zero => rfl
  | @digits c text hc h =>
      have htake := takeDigits_append h.isDigit hrest
      rw [List.cons_append] at htake ⊢
      unfold scanWhole
      split
      · next heq => exact absurd (List.cons.inj heq).1 hc
      · exact htake

theorem scanFraction_complete {text digits rest : List Char} (h : FractionText text digits)
    (hrest : NoDigit rest) (hpoint : ∀ tail, rest ≠ '.' :: tail) :
    scanFraction (text ++ rest) = (digits, rest) := by
  cases h with
  | none =>
      unfold scanFraction
      split
      · next tail heq => exact absurd heq (hpoint tail)
      · rfl
  | some h =>
      have htake := takeDigits_append h.isDigit hrest
      rw [List.cons_append]
      unfold scanFraction
      simp only [htake, if_neg h.ne_nil]

/-- Digits do not begin with a sign. -/
theorem Digits.ne_sign {digits : List Char} (h : Digits digits) {c : Char} (hc : c.isDigit = false)
    (rest tail : List Char) : digits ++ rest ≠ c :: tail := by
  intro heq
  cases digits with
  | nil => exact h.ne_nil rfl
  | cons d digits =>
      have hd := h.isDigit d List.mem_cons_self
      rw [(List.cons.inj heq).1, hc] at hd
      cases hd

theorem scanExponent_complete {text rest : List Char} {power : Option Int}
    (h : ExponentText text power) (hrest : Follows rest) :
    scanExponent (text ++ rest) = (power, rest) := by
  cases h with
  | none =>
      cases rest with
      | nil => rfl
      | cons c tail =>
          have hno : ¬(c = 'e' ∨ c = 'E') := by
            rintro (hc | hc)
            · exact hrest.no_number.2.2.1 hc
            · exact hrest.no_number.2.2.2 hc
          simp [scanExponent, hno]
  | @plain c digits hc h =>
      have htake := takeDigits_append h.isDigit hrest.noDigit
      rw [List.cons_append]
      unfold scanExponent
      simp only
      split
      · next hsign => exact absurd hsign (h.ne_sign rfl rest _)
      · next hsign => exact absurd hsign (h.ne_sign rfl rest _)
      · simp [htake, hc, h.ne_nil]
  | @plus c digits hc h =>
      have htake := takeDigits_append h.isDigit hrest.noDigit
      simp [scanExponent, htake, hc, h.ne_nil]
  | @minus c digits hc h =>
      have htake := takeDigits_append h.isDigit hrest.noDigit
      simp [scanExponent, htake, hc, h.ne_nil]

/-- After the digits before the point comes no digit, and after a fraction no
second point. -/
theorem ExponentText.noDigit {text rest : List Char} {power : Option Int}
    (h : ExponentText text power) (hrest : Follows rest) :
    NoDigit (text ++ rest) ∧ ∀ tail, text ++ rest ≠ '.' :: tail := by
  have hletter : ∀ {c : Char}, c = 'e' ∨ c = 'E' → c.isDigit = false ∧ c ≠ '.' := by
    rintro c (rfl | rfl)
    · decide
    · decide
  have hhead : ∀ c body, text ++ rest = c :: body → c.isDigit = false ∧ c ≠ '.' := by
    intro c body heq
    cases h with
    | none =>
        have hrest' : Follows (c :: body) := heq ▸ hrest
        exact ⟨hrest'.no_number.1, hrest'.no_number.2.1⟩
    | plain hc =>
        cases heq
        exact hletter hc
    | plus hc =>
        cases heq
        exact hletter hc
    | minus hc =>
        cases heq
        exact hletter hc
  exact ⟨fun c body heq => (hhead c body heq).1, fun tail heq => (hhead '.' tail heq).2 rfl⟩

theorem FractionText.noDigit {text digits rest : List Char} (h : FractionText text digits)
    (hrest : NoDigit rest) : NoDigit (text ++ rest) := by
  cases h with
  | none => exact hrest
  | some h =>
      intro c tail heq
      cases heq
      rfl

theorem scanNumber_complete {whole fraction digits exponent rest : List Char}
    {power : Option Int} (negative : Bool) (hwhole : WholeText whole)
    (hfraction : FractionText fraction digits) (hexponent : ExponentText exponent power)
    (hrest : Follows rest) :
    scanNumber negative (whole ++ (fraction ++ (exponent ++ rest))) =
      if digits = [] ∧ power = none then
        if whole.length ≤ maxStrDigits then
          some (.int (if negative then -(digitsValue whole : Int) else digitsValue whole), rest)
        else none
      else
        some (.float negative (digitsValue (whole ++ digits)) (power.getD 0 - digits.length),
          rest) := by
  obtain ⟨hexponentDigit, hpoint⟩ := hexponent.noDigit hrest
  have hne : whole ≠ [] := by
    cases hwhole with
    | zero => nofun
    | digits _ h => exact h.ne_nil
  unfold scanNumber
  rw [scanWhole_complete hwhole (hfraction.noDigit hexponentDigit)]
  simp only [if_neg hne, scanFraction_complete hfraction hexponentDigit hpoint,
    scanExponent_complete hexponent hrest]

theorem WholeText.head {whole : List Char} (h : WholeText whole) :
    ∃ c tail, whole = c :: tail ∧ c.isDigit = true := by
  cases h with
  | zero => exact ⟨'0', [], rfl, rfl⟩
  | @digits c text _ h => exact ⟨c, text, rfl, h.isDigit c List.mem_cons_self⟩

section Complete

variable {ε : Type} {hooks : DecodeHooks ε}

theorem scanAtom_sign {sign body : List Char} {negative : Bool} (h : SignText sign negative)
    (hbody : ∃ c tail, body = c :: tail ∧ c.isDigit = true) {result : Decoded × List Char}
    (hnumber : scanNumber negative body = some result) :
    scanAtom hooks (sign ++ body) = .ok result := by
  cases h with
  | minus =>
      unfold scanAtom
      simp only [List.cons_append, List.nil_append, hnumber]
  | none =>
      obtain ⟨c, tail, rfl, hc⟩ := hbody
      rw [List.nil_append]
      unfold scanAtom
      split
      · next heq =>
          rw [(List.cons.inj heq).1] at hc
          cases hc
      · rw [hnumber]

theorem scanAtom_number {text rest : List Char} {v : Decoded} (h : NumberText text v)
    (hrest : Follows rest) : scanAtom hooks (text ++ rest) = .ok (v, rest) := by
  have hhead : ∀ {whole tail : List Char}, WholeText whole →
      ∃ c tail', whole ++ tail = c :: tail' ∧ c.isDigit = true := by
    intro whole tail hwhole
    obtain ⟨c, body, rfl, hc⟩ := hwhole.head
    exact ⟨c, body ++ tail, rfl, hc⟩
  cases h with
  | @int sign whole negative hsign hwhole hlength =>
      have hnumber := scanNumber_complete negative hwhole .none .none hrest
      rw [if_pos ⟨rfl, rfl⟩, if_pos hlength] at hnumber
      rw [List.append_assoc]
      exact scanAtom_sign hsign (hhead hwhole) hnumber
  | @float sign whole fraction digits exponent negative power hsign hwhole hfraction hexponent
      hpart =>
      have hnumber := scanNumber_complete negative hwhole hfraction hexponent hrest
      rw [if_neg hpart] at hnumber
      simp only [List.append_assoc]
      exact scanAtom_sign hsign (hhead hwhole) hnumber

theorem scanName_complete {text : List Char} {codes : CodePoints} (h : NameText text codes)
    (rest : List Char) : scanName hooks (text ++ rest) = .ok (codes, rest) := by
  obtain ⟨body, blanks, raw, hbody, hb, rfl, rfl⟩ := h
  have hscan := scanString_complete hbody (blanks ++ ':' :: rest)
  simp only [List.cons_append, List.append_assoc, List.nil_append]
  rw [scanName, if_pos rfl, hscan]
  simp only [skipBlank_append hb, skipBlank_cons (show isBlank ':' = false from rfl)]

/-! ## Values -/

theorem NumberText.head {text : List Char} {v : Decoded} (h : NumberText text v) :
    ∃ c tail, text = c :: tail ∧ AtomStart c := by
  have hhead : ∀ {sign whole tail : List Char} {negative : Bool}, SignText sign negative →
      WholeText whole → ∃ c tail', sign ++ (whole ++ tail) = c :: tail' ∧ AtomStart c := by
    intro sign whole tail negative hsign hwhole
    obtain ⟨c, body, rfl, hc⟩ := hwhole.head
    cases hsign with
    | none => exact ⟨c, _, rfl, atomStart_of_isDigit hc⟩
    | minus => exact ⟨'-', _, rfl, ⟨by decide, by decide, by decide, by decide, by decide⟩⟩
  cases h with
  | @int sign whole negative hsign hwhole =>
      rw [← List.append_nil whole]
      exact hhead hsign hwhole
  | float hsign hwhole => exact hhead hsign hwhole

/-- A value's first character is no blank and closes nothing. -/
theorem PartText.head {text : List Char} {v : Decoded} (h : PartText (.value v) text) :
    ∃ c tail, text = c :: tail ∧ isBlank c = Bool.false ∧ c ≠ ']' := by
  cases h with
  | number h =>
      obtain ⟨c, tail, heq, hstart⟩ := h.head
      exact ⟨c, tail, heq, hstart.notBlank, hstart.notClose⟩
  | _ => exact ⟨_, _, rfl, by decide, by decide⟩

theorem PartText.noBlank {text : List Char} {v : Decoded} (h : PartText (.value v) text)
    (rest : List Char) : skipBlank (text ++ rest) = text ++ rest := by
  obtain ⟨c, tail, rfl, hblank, -⟩ := h.head
  exact skipBlank_cons hblank _

theorem NameText.noBlank {text : List Char} {codes : CodePoints} (h : NameText text codes)
    (rest : List Char) : skipBlank (text ++ rest) = text ++ rest := by
  obtain ⟨body, blanks, raw, -, -, -, rfl⟩ := h
  exact skipBlank_cons (by decide) _

/-- Blanks after an opening bracket are passed over. -/
theorem scanValue_arr_blanks {blanks : List Char} (hb : Blanks blanks) (fuel : Nat)
    (input : List Char) :
    scanValue hooks (fuel + 1) ('[' :: (blanks ++ input)) =
      scanValue hooks (fuel + 1) ('[' :: input) := by
  have hquote : '[' ≠ quoteMark := by decide
  simp only [scanValue, skipBlank_append hb, if_neg hquote, if_true]

theorem scanValue_obj_blanks {blanks : List Char} (hb : Blanks blanks) (fuel : Nat)
    (input : List Char) :
    scanValue hooks (fuel + 1) ('\x7b' :: (blanks ++ input)) =
      scanValue hooks (fuel + 1) ('\x7b' :: input) := by
  have hquote : '\x7b' ≠ quoteMark := by decide
  have hbracket : '\x7b' ≠ '[' := by decide
  simp only [scanValue, skipBlank_append hb, if_neg hquote, if_neg hbracket, if_true]

/-- The decoder takes the piece off every text, with its length for fuel. -/
def Part.Reads (hooks : DecodeHooks ε) (text : List Char) : Part → Prop
  | .value v => ∀ fuel rest, text.length ≤ fuel → Follows rest →
      scanValue hooks fuel (text ++ rest) = .ok (v, rest)
  | .items vs => ∀ fuel rest, text.length ≤ fuel →
      scanItems hooks fuel (skipBlank (text ++ rest)) = .ok (vs, rest)
  | .members ms => ∀ fuel rest, text.length ≤ fuel →
      scanMembers hooks fuel (skipBlank (text ++ rest)) = .ok (ms, rest)

/-- By induction on the derivation. -/
theorem scan_complete {part : Part} {text : List Char} (h : PartText part text)
    (hok : part.Objects hooks.Lets) : part.Reads hooks text := by
  induction h with
  | null =>
      intro fuel rest hfuel _
      obtain ⟨f, rfl, -⟩ := exists_fuel (by decide) hfuel
      exact scanValue_atom ⟨by decide, by decide, by decide, by decide, by decide⟩ f _
  | true =>
      intro fuel rest hfuel _
      obtain ⟨f, rfl, -⟩ := exists_fuel (by decide) hfuel
      exact scanValue_atom ⟨by decide, by decide, by decide, by decide, by decide⟩ f _
  | false =>
      intro fuel rest hfuel _
      obtain ⟨f, rfl, -⟩ := exists_fuel (by decide) hfuel
      exact scanValue_atom ⟨by decide, by decide, by decide, by decide, by decide⟩ f _
  | number h =>
      intro fuel rest hfuel hrest
      have hatom : scanAtom hooks _ = _ := scanAtom_number h hrest
      obtain ⟨c, tail, rfl, hstart⟩ := h.head
      obtain ⟨f, rfl, -⟩ := exists_fuel (Nat.succ_pos _) hfuel
      rw [List.cons_append] at hatom ⊢
      rw [scanValue_atom hstart, hatom]
  | str h =>
      intro fuel rest hfuel _
      obtain ⟨f, rfl, -⟩ := exists_fuel (Nat.succ_pos _) hfuel
      have hscan := scanString_complete h rest
      simp only [List.cons_append, List.append_assoc, List.nil_append]
      rw [scanValue, if_pos rfl, hscan]
  | emptyArr hb =>
      intro fuel rest hfuel _
      obtain ⟨f, rfl, -⟩ := exists_fuel (Nat.succ_pos _) hfuel
      simp only [List.cons_append, List.append_assoc, List.nil_append]
      rw [scanValue_arr_blanks hb]
      rfl
  | @arr blanks first more v items hb hfirst hmore ihfirst ihmore =>
      intro fuel rest hfuel _
      simp only [List.length_cons, List.length_append] at hfuel
      obtain ⟨f, rfl, hf⟩ := exists_fuel (Nat.succ_pos _) hfuel
      have hv := ihfirst hok.1 f (more ++ rest) (by omega) (hmore.follows_items rest)
      have hitems := ihmore hok.2 f rest (by omega)
      obtain ⟨c, tail, rfl, hblank, hclose⟩ := hfirst.head
      simp only [List.cons_append, List.append_assoc] at hv ⊢
      rw [scanValue_arr_blanks hb, scanValue_arr hblank hclose, hv]
      simp only [bind, Except.bind, hitems]
      rfl
  | emptyObj hb =>
      intro fuel rest hfuel _
      obtain ⟨f, rfl, -⟩ := exists_fuel (Nat.succ_pos _) hfuel
      have hpairs : hooks.pairs [] = .ok () := hok.1
      simp only [List.cons_append, List.append_assoc, List.nil_append]
      rw [scanValue_obj_blanks hb, scanValue, if_neg (by decide), if_neg (by decide), if_pos rfl,
        skipBlank_cons (by decide)]
      simp only [hpairs]
      rfl
  | @obj blanks name blanks' first more codes v members hb hname hb' hfirst hmore ihfirst
      ihmore =>
      intro fuel rest hfuel _
      simp only [List.length_cons, List.length_append] at hfuel
      obtain ⟨f, rfl, hf⟩ := exists_fuel (Nat.succ_pos _) hfuel
      have hv := ihfirst hok.2.1 f (more ++ rest) (by omega) (hmore.follows_members rest)
      have hmembers := ihmore hok.2.2 f rest (by omega)
      have hpairs : hooks.pairs _ = .ok () := hok.1
      have hscan : scanName hooks _ = _ := scanName_complete hname (blanks' ++ (first ++ (more ++ rest)))
      obtain ⟨body, blanks'', raw, -, -, -, rfl⟩ := hname
      simp only [List.cons_append, List.append_assoc] at hscan ⊢
      rw [scanValue_obj_blanks hb, scanValue_obj, hscan]
      simp only [bind, Except.bind, skipBlank_append hb', hfirst.noBlank, hv, hmembers, hpairs]
      rfl
  | lastItem hb =>
      intro fuel rest hfuel
      obtain ⟨f, rfl, -⟩ := exists_fuel (by simp) hfuel
      rw [List.append_assoc, skipBlank_append hb]
      rfl
  | @item blanks blanks' first more v items hb hb' hfirst hmore ihfirst ihmore =>
      intro fuel rest hfuel
      simp only [List.length_cons, List.length_append] at hfuel
      obtain ⟨f, rfl, hf⟩ := exists_fuel (by omega) hfuel
      have hv := ihfirst hok.1 f (more ++ rest) (by omega) (hmore.follows_items rest)
      have hitems := ihmore hok.2 f rest (by omega)
      simp only [List.cons_append, List.append_assoc]
      rw [skipBlank_append hb, skipBlank_cons (by decide), scanItems, skipBlank_append hb',
        hfirst.noBlank, hv]
      simp only [bind, Except.bind, hitems]
      rfl
  | lastMember hb =>
      intro fuel rest hfuel
      obtain ⟨f, rfl, -⟩ := exists_fuel (by simp) hfuel
      rw [List.append_assoc, skipBlank_append hb]
      rfl
  | @member blanks blanks' name blanks'' first more codes v members hb hb' hname hb'' hfirst hmore
      ihfirst ihmore =>
      intro fuel rest hfuel
      simp only [List.length_cons, List.length_append] at hfuel
      obtain ⟨f, rfl, hf⟩ := exists_fuel (by omega) hfuel
      have hv := ihfirst hok.1 f (more ++ rest) (by omega) (hmore.follows_members rest)
      have hmembers := ihmore hok.2 f rest (by omega)
      have hscan : scanName hooks _ = _ :=
        scanName_complete hname (blanks'' ++ (first ++ (more ++ rest)))
      simp only [List.cons_append, List.append_assoc]
      rw [skipBlank_append hb, skipBlank_cons (by decide), scanMembers, skipBlank_append hb',
        hname.noBlank, hscan]
      simp only [bind, Except.bind, skipBlank_append hb'', hfirst.noBlank, hv, hmembers]
      rfl

theorem skipBlank_blanks {blanks : List Char} (h : Blanks blanks) : skipBlank blanks = [] := by
  have happend := skipBlank_append h []
  rwa [List.append_nil] at happend

/-- A text that is JSON is read, if the caller lets its objects through. -/
theorem decodeJson_complete {text : List Char} {v : Decoded} (h : JsonText text v)
    (hok : v.Objects hooks.Lets) : decodeJson hooks text = .ok v := by
  obtain ⟨blanks, body, blanks', hb, hbody, hb', rfl⟩ := h
  have hvalue : (Part.value v).Reads hooks body := scan_complete hbody hok
  have hfollows : Follows blanks' := by
    have happend := hb'.follows follows_nil
    rwa [List.append_nil] at happend
  have hscan := hvalue ((blanks ++ (body ++ blanks')).length + 1) blanks'
    (by simp only [List.length_append]; omega) hfollows
  unfold decodeJson
  rw [skipBlank_append hb, hbody.noBlank, hscan]
  simp only [bind, Except.bind, skipBlank_blanks hb', if_pos]
  rfl

/-- The decoder reads exactly the texts that are JSON and whose objects the
caller lets through. -/
theorem decodeJson_iff (hconstant : ∀ token v, hooks.constant token ≠ .ok v) {text : List Char}
    {v : Decoded} :
    decodeJson hooks text = .ok v ↔ JsonText text v ∧ v.Objects hooks.Lets :=
  ⟨decodeJson_sound hconstant, fun ⟨h, hok⟩ => decodeJson_complete h hok⟩

end Complete

/-! ## One reading -/

namespace Decoded

variable {ok : List (CodePoints × Decoded) → Prop}

mutual

theorem objects_of_forall (h : ∀ members, ok members) : ∀ v : Decoded, v.Objects ok
  | .null | .bool _ | .int _ | .float _ _ _ | .str _ => trivial
  | .arr items => objectsItems_of_forall h items
  | .obj members => ⟨h members, objectsMembers_of_forall h members⟩

theorem objectsItems_of_forall (h : ∀ members, ok members) :
    ∀ items : List Decoded, ObjectsItems ok items
  | [] => trivial
  | v :: rest => ⟨objects_of_forall h v, objectsItems_of_forall h rest⟩

theorem objectsMembers_of_forall (h : ∀ members, ok members) :
    ∀ members : List (CodePoints × Decoded), ObjectsMembers ok members
  | [] => trivial
  | (_, v) :: rest => ⟨objects_of_forall h v, objectsMembers_of_forall h rest⟩

end

end Decoded

/-- A caller that lets every object through. -/
def lenientHooks : DecodeHooks Unit where
  constant _ := .error ()
  pairs _ := .ok ()
  invalid := ()

/-- A text stands for one value at most: the one the decoder reads. -/
theorem JsonText.unique {text : List Char} {v v' : Decoded} (h : JsonText text v)
    (h' : JsonText text v') : v = v' := by
  have hread : ∀ {u}, JsonText text u → decodeJson lenientHooks text = .ok u := fun hu =>
    decodeJson_complete hu (Decoded.objects_of_forall (fun _ => rfl) _)
  have heq := (hread h).symm.trans (hread h')
  cases heq
  rfl

end Lib
