import Masterserver.Lib.JsonDecode
import Masterserver.Lib.Outcome

/-!
# The grammar of JSON texts

RFC 8259, with what each production stands for: a value, and inside an array
or an object what follows an item or a member through the closing bracket. A
blank belongs to what comes after it. `scan_sound` says that whatever the
decoder takes off a text is such a piece of it; the caller's hook has seen
every object, and no constant, if it refuses them.
-/

namespace Lib

/-! ## What a decoder raises -/

section Raises

variable {ε : Type} {P : ε → Prop} {hooks : DecodeHooks ε}

/-- Every error a decoder can meet is of this kind. -/
structure DecodeHooks.Raises (P : ε → Prop) (hooks : DecodeHooks ε) : Prop where
  constant : ∀ token, Lib.Raises P (hooks.constant token)
  pairs : ∀ members, Lib.Raises P (hooks.pairs members)
  invalid : P hooks.invalid

theorem raises_scanWord (h : hooks.Raises P) (input : List Char) :
    Raises P (scanWord hooks input) := by
  unfold scanWord
  split
  · exact raises_ok _
  · exact raises_ok _
  · exact raises_ok _
  · split
    · exact (h.constant _).bind fun _ => raises_pure _
    · exact (h.constant _).bind fun _ => raises_pure _
    · exact (h.constant _).bind fun _ => raises_pure _
    · exact raises_error h.invalid

theorem raises_scanAtom (h : hooks.Raises P) (input : List Char) :
    Raises P (scanAtom hooks input) := by
  unfold scanAtom
  simp only
  split
  · exact raises_ok _
  · exact raises_scanWord h input

theorem raises_scanName (h : hooks.Raises P) (input : List Char) :
    Raises P (scanName hooks input) := by
  unfold scanName
  split
  · exact raises_error h.invalid
  · split
    · split
      · exact raises_error h.invalid
      · split
        · exact raises_ok _
        · exact raises_error h.invalid
    · exact raises_error h.invalid

/-- By induction on the fuel, for the three functions together. -/
theorem raises_scan (h : hooks.Raises P) (fuel : Nat) :
    (∀ input, Raises P (scanValue hooks fuel input)) ∧
      (∀ input, Raises P (scanItems hooks fuel input)) ∧
      ∀ input, Raises P (scanMembers hooks fuel input) := by
  induction fuel with
  | zero =>
      refine ⟨fun input => ?_, fun input => ?_, fun input => ?_⟩
      · rw [scanValue]
        exact raises_error h.invalid
      · rw [scanItems]
        · exact raises_error h.invalid
        all_goals
          intros
          contradiction
      · rw [scanMembers]
        · exact raises_error h.invalid
        all_goals
          intros
          contradiction
  | succ fuel ih =>
      obtain ⟨hvalue, hitems, hmembers⟩ := ih
      refine ⟨fun input => ?_, fun input => ?_, fun input => ?_⟩
      · cases input with
        | nil =>
            rw [scanValue]
            exact raises_error h.invalid
        | cons c rest =>
            rw [scanValue]
            split
            · split
              · exact raises_ok _
              · exact raises_error h.invalid
            split
            · split
              · exact raises_ok _
              · exact (hvalue _).bindPair fun _ _ => (hitems _).bindPair fun _ _ => raises_pure _
            split
            · split
              · exact (h.pairs _).bind fun _ => raises_pure _
              · exact (raises_scanName h _).bindPair fun _ _ => (hvalue _).bindPair fun _ _ =>
                  (hmembers _).bindPair fun _ _ => (h.pairs _).bind fun _ => raises_pure _
            · exact raises_scanAtom h _
      · unfold scanItems
        split
        · next heq =>
            cases heq
            exact (hvalue _).bindPair fun _ _ => (hitems _).bindPair fun _ _ => raises_pure _
        · exact raises_ok _
        · exact raises_error h.invalid
      · unfold scanMembers
        split
        · next heq =>
            cases heq
            exact (raises_scanName h _).bindPair fun _ _ => (hvalue _).bindPair fun _ _ =>
              (hmembers _).bindPair fun _ _ => raises_pure _
        · exact raises_ok _
        · exact raises_error h.invalid

/-- A decoder raises what its hooks raise. -/
theorem raises_decodeJson (h : hooks.Raises P) (text : List Char) :
    Raises P (decodeJson hooks text) := by
  refine ((raises_scan h _).1 _).bind fun ⟨v, rest⟩ => ?_
  show Raises P (if skipBlank rest = [] then pure v else .error hooks.invalid)
  split
  · exact raises_pure _
  · exact raises_error h.invalid

end Raises

/-! ## The grammar -/

def Blanks (text : List Char) : Prop := ∀ c ∈ text, isBlank c = true

/-- What stands between two quotation marks, and the code points it names. -/
inductive StringText : List Char → CodePoints → Prop
  | nil : StringText [] []
  | plain {c : Char} {text : List Char} {codes : CodePoints} (hquote : c ≠ quoteMark)
      (hslash : c ≠ backslash) (hcontrol : 32 ≤ c.toNat) (h : StringText text codes) :
      StringText (c :: text) (c.toNat :: codes)
  | escape {e : Char} {code : Nat} {text : List Char} {codes : CodePoints}
      (hcode : escaped? e = some code) (h : StringText text codes) :
      StringText (backslash :: e :: text) (code :: codes)
  | unicode {h₁ h₂ h₃ h₄ : Char} {code : Nat} {text : List Char} {codes : CodePoints}
      (hcode : hex4? h₁ h₂ h₃ h₄ = some code) (h : StringText text codes) :
      StringText (backslash :: 'u' :: h₁ :: h₂ :: h₃ :: h₄ :: text) (code :: codes)

structure Digits (text : List Char) : Prop where
  ne_nil : text ≠ []
  isDigit : ∀ c ∈ text, c.isDigit = true

inductive SignText : List Char → Bool → Prop
  | none : SignText [] false
  | minus : SignText ['-'] true

/-- The digits before the point: a zero stands alone. -/
inductive WholeText : List Char → Prop
  | zero : WholeText ['0']
  | digits {c : Char} {text : List Char} (hc : c ≠ '0') (h : Digits (c :: text)) :
      WholeText (c :: text)

/-- The text of a fraction and its digits. -/
inductive FractionText : List Char → List Char → Prop
  | none : FractionText [] []
  | some {digits : List Char} (h : Digits digits) : FractionText ('.' :: digits) digits

inductive ExponentText : List Char → Option Int → Prop
  | none : ExponentText [] none
  | plain {c : Char} {digits : List Char} (hc : c = 'e' ∨ c = 'E') (h : Digits digits) :
      ExponentText (c :: digits) (some (digitsValue digits))
  | plus {c : Char} {digits : List Char} (hc : c = 'e' ∨ c = 'E') (h : Digits digits) :
      ExponentText (c :: '+' :: digits) (some (digitsValue digits))
  | minus {c : Char} {digits : List Char} (hc : c = 'e' ∨ c = 'E') (h : Digits digits) :
      ExponentText (c :: '-' :: digits) (some (-(digitsValue digits : Int)))

/-- A number is an integer unless it has a fraction or an exponent; an integer
is read if it is not too long. -/
inductive NumberText : List Char → Decoded → Prop
  | int {sign whole : List Char} {negative : Bool} (hsign : SignText sign negative)
      (hwhole : WholeText whole) (hlength : whole.length ≤ maxStrDigits) :
      NumberText (sign ++ whole)
        (.int (if negative then -(digitsValue whole : Int) else digitsValue whole))
  | float {sign whole fraction digits exponent : List Char} {negative : Bool} {power : Option Int}
      (hsign : SignText sign negative) (hwhole : WholeText whole)
      (hfraction : FractionText fraction digits) (hexponent : ExponentText exponent power)
      (hpart : ¬(digits = [] ∧ power = none)) :
      NumberText (sign ++ (whole ++ (fraction ++ exponent)))
        (.float negative (digitsValue (whole ++ digits)) (power.getD 0 - digits.length))

/-- A member's name through the colon after it. -/
def NameText (text : List Char) (codes : CodePoints) : Prop :=
  ∃ body blanks raw, StringText body raw ∧ Blanks blanks ∧ codes = joinSurrogates raw ∧
    text = quoteMark :: (body ++ quoteMark :: (blanks ++ [':']))

/-- What a piece of a text stands for: a value, or the items or the members
after one, through the closing bracket. -/
inductive Part
  | value (v : Decoded)
  | items (items : List Decoded)
  | members (members : List (CodePoints × Decoded))

inductive PartText : Part → List Char → Prop
  | null : PartText (.value .null) ['n', 'u', 'l', 'l']
  | true : PartText (.value (.bool true)) ['t', 'r', 'u', 'e']
  | false : PartText (.value (.bool false)) ['f', 'a', 'l', 's', 'e']
  | number {text : List Char} {v : Decoded} (h : NumberText text v) : PartText (.value v) text
  | str {body : List Char} {codes : CodePoints} (h : StringText body codes) :
      PartText (.value (.str (joinSurrogates codes))) (quoteMark :: (body ++ [quoteMark]))
  | emptyArr {blanks : List Char} (hb : Blanks blanks) :
      PartText (.value (.arr [])) ('[' :: (blanks ++ [']']))
  | arr {blanks first more : List Char} {v : Decoded} {items : List Decoded}
      (hb : Blanks blanks) (hfirst : PartText (.value v) first)
      (hmore : PartText (.items items) more) :
      PartText (.value (.arr (v :: items))) ('[' :: (blanks ++ (first ++ more)))
  | emptyObj {blanks : List Char} (hb : Blanks blanks) :
      PartText (.value (.obj [])) ('\x7b' :: (blanks ++ ['\x7d']))
  | obj {blanks name blanks' first more : List Char} {codes : CodePoints} {v : Decoded}
      {members : List (CodePoints × Decoded)} (hb : Blanks blanks) (hname : NameText name codes)
      (hb' : Blanks blanks') (hfirst : PartText (.value v) first)
      (hmore : PartText (.members members) more) :
      PartText (.value (.obj ((codes, v) :: members)))
        ('\x7b' :: (blanks ++ (name ++ (blanks' ++ (first ++ more)))))
  | lastItem {blanks : List Char} (hb : Blanks blanks) : PartText (.items []) (blanks ++ [']'])
  | item {blanks blanks' first more : List Char} {v : Decoded} {items : List Decoded}
      (hb : Blanks blanks) (hb' : Blanks blanks') (hfirst : PartText (.value v) first)
      (hmore : PartText (.items items) more) :
      PartText (.items (v :: items)) (blanks ++ ',' :: (blanks' ++ (first ++ more)))
  | lastMember {blanks : List Char} (hb : Blanks blanks) :
      PartText (.members []) (blanks ++ ['\x7d'])
  | member {blanks blanks' name blanks'' first more : List Char} {codes : CodePoints} {v : Decoded}
      {members : List (CodePoints × Decoded)} (hb : Blanks blanks) (hb' : Blanks blanks')
      (hname : NameText name codes) (hb'' : Blanks blanks'') (hfirst : PartText (.value v) first)
      (hmore : PartText (.members members) more) :
      PartText (.members ((codes, v) :: members))
        (blanks ++ ',' :: (blanks' ++ (name ++ (blanks'' ++ (first ++ more)))))

/-- The text is JSON and stands for the value. -/
def JsonText (text : List Char) (v : Decoded) : Prop :=
  ∃ blanks body blanks', Blanks blanks ∧ PartText (.value v) body ∧ Blanks blanks' ∧
    text = blanks ++ (body ++ blanks')

/-! ## Objects -/

namespace Decoded

variable (ok : List (CodePoints × Decoded) → Prop)

mutual

/-- Every object in the value has members that meet the condition. -/
def Objects : Decoded → Prop
  | arr items => ObjectsItems items
  | obj members => ok members ∧ ObjectsMembers members
  | _ => True

def ObjectsItems : List Decoded → Prop
  | [] => True
  | v :: rest => Objects v ∧ ObjectsItems rest

def ObjectsMembers : List (CodePoints × Decoded) → Prop
  | [] => True
  | (_, v) :: rest => Objects v ∧ ObjectsMembers rest

end

end Decoded

def Part.Objects (ok : List (CodePoints × Decoded) → Prop) : Part → Prop
  | .value v => v.Objects ok
  | .items vs => Decoded.ObjectsItems ok vs
  | .members ms => Decoded.ObjectsMembers ok ms

/-! ## What the decoder takes is in the grammar -/

theorem skipBlank_spec (input : List Char) :
    ∃ blanks, Blanks blanks ∧ input = blanks ++ skipBlank input := by
  induction input with
  | nil => exact ⟨[], nofun, rfl⟩
  | cons c rest ih =>
      rw [skipBlank]
      split
      · next hc =>
          obtain ⟨blanks, hb, heq⟩ := ih
          exact ⟨c :: blanks, List.forall_mem_cons.mpr ⟨hc, hb⟩, congrArg (c :: ·) heq⟩
      · exact ⟨[], nofun, rfl⟩

theorem afterWord_eq_some {word input rest : List Char} (h : afterWord word input = some rest) :
    input = word ++ rest := by
  induction word generalizing input with
  | nil =>
      cases h
      rfl
  | cons w word ih =>
      cases input with
      | nil => cases h
      | cons c input =>
          rw [afterWord] at h
          split at h
          · next heq => rw [heq, ih h, List.cons_append]
          · cases h

/-- Case by case of what a string's next character is. -/
theorem scanString_sound {input : List Char} {codes : CodePoints} {rest : List Char}
    (h : scanString input = some (codes, rest)) :
    ∃ body, StringText body codes ∧ input = body ++ quoteMark :: rest := by
  fun_induction scanString input generalizing codes rest with
  | case1 => cases h
  | case2 =>
      cases h
      exact ⟨[], .nil, rfl⟩
  | case3 => cases h
  | case4 h₁ h₂ h₃ h₄ input _ ih =>
      simp only [Option.bind_eq_bind, Option.bind_eq_some_iff, Option.pure_def, Option.some.injEq,
        Prod.exists, Prod.mk.injEq] at h
      obtain ⟨code, hcode, codes', rest', hscan, rfl, rfl⟩ := h
      obtain ⟨body, hbody, rfl⟩ := ih hscan
      exact ⟨_, .unicode hcode hbody, rfl⟩
  | case5 => cases h
  | case6 c input hne _ ih =>
      simp only [Option.bind_eq_bind, Option.bind_eq_some_iff, Option.pure_def, Option.some.injEq,
        Prod.exists, Prod.mk.injEq] at h
      obtain ⟨code, hcode, codes', rest', hscan, rfl, rfl⟩ := h
      obtain ⟨body, hbody, rfl⟩ := ih hscan
      exact ⟨_, .escape hcode hbody, rfl⟩
  | case7 => cases h
  | case8 c input hquote hslash hcontrol ih =>
      simp only [Option.bind_eq_bind, Option.bind_eq_some_iff, Option.pure_def, Option.some.injEq,
        Prod.exists, Prod.mk.injEq] at h
      obtain ⟨codes', rest', hscan, rfl, rfl⟩ := h
      obtain ⟨body, hbody, rfl⟩ := ih hscan
      exact ⟨_, .plain hquote hslash (not_lt.mp hcontrol) hbody, rfl⟩

theorem takeDigits_sound {input digits rest : List Char} (h : takeDigits input = (digits, rest)) :
    input = digits ++ rest ∧ ∀ c ∈ digits, c.isDigit = true := by
  unfold takeDigits at h
  cases h
  exact ⟨List.takeWhile_append_dropWhile.symm, List.all_eq_true.mp List.all_takeWhile⟩

theorem scanWhole_sound {input whole rest : List Char} (h : scanWhole input = (whole, rest))
    (hne : whole ≠ []) : WholeText whole ∧ input = whole ++ rest := by
  unfold scanWhole at h
  split at h
  · cases h
    exact ⟨.zero, rfl⟩
  · next hzero =>
      obtain ⟨heq, hdigits⟩ := takeDigits_sound h
      cases whole with
      | nil => exact absurd rfl hne
      | cons c text =>
          have hc : c ≠ '0' := fun hc => hzero (text ++ rest) (hc ▸ heq)
          exact ⟨.digits hc ⟨hne, hdigits⟩, heq⟩

theorem scanFraction_sound {input digits rest : List Char}
    (h : scanFraction input = (digits, rest)) :
    ∃ text, FractionText text digits ∧ input = text ++ rest := by
  unfold scanFraction at h
  split at h
  · next input =>
      cases htake : takeDigits input with
      | mk taken after =>
          rw [htake] at h
          simp only at h
          split at h
          · cases h
            exact ⟨[], .none, rfl⟩
          · next hne =>
              cases h
              obtain ⟨rfl, hdigits⟩ := takeDigits_sound htake
              exact ⟨_, .some ⟨hne, hdigits⟩, rfl⟩
  · cases h
    exact ⟨[], .none, rfl⟩

theorem scanExponent_sound {input rest : List Char} {power : Option Int}
    (h : scanExponent input = (power, rest)) :
    ∃ text, ExponentText text power ∧ input = text ++ rest := by
  unfold scanExponent at h
  split at h
  · cases h
    exact ⟨[], .none, rfl⟩
  next c input =>
  split at h
  next negative body hsign =>
  cases htake : takeDigits body with
  | mk digits after =>
  rw [htake] at h
  simp only at h
  split at h
  · next hok =>
      cases h
      obtain ⟨rfl, hdigits⟩ := takeDigits_sound htake
      split at hsign
      · cases hsign
        exact ⟨_, .minus hok.1 ⟨hok.2, hdigits⟩, rfl⟩
      · cases hsign
        exact ⟨_, .plus hok.1 ⟨hok.2, hdigits⟩, rfl⟩
      · cases hsign
        exact ⟨_, .plain hok.1 ⟨hok.2, hdigits⟩, rfl⟩
  · cases h
    exact ⟨[], .none, rfl⟩

theorem scanNumber_sound {negative : Bool} {input sign : List Char} {v : Decoded}
    {rest : List Char} (hsign : SignText sign negative)
    (h : scanNumber negative input = some (v, rest)) :
    ∃ text, NumberText (sign ++ text) v ∧ input = text ++ rest := by
  unfold scanNumber at h
  cases hwhole : scanWhole input with
  | mk whole afterWhole =>
  rw [hwhole] at h
  simp only at h
  split at h
  · cases h
  next hne =>
  obtain ⟨hwholeText, rfl⟩ := scanWhole_sound hwhole hne
  cases hfraction : scanFraction afterWhole with
  | mk digits afterFraction =>
  cases hexponent : scanExponent afterFraction with
  | mk power afterExponent =>
  rw [hfraction] at h
  simp only [hexponent] at h
  obtain ⟨fraction, hfractionText, rfl⟩ := scanFraction_sound hfraction
  obtain ⟨exponent, hexponentText, rfl⟩ := scanExponent_sound hexponent
  split at h
  · next hinteger =>
      obtain ⟨rfl, rfl⟩ := hinteger
      split at h
      · next hlength =>
          cases hexponentText
          cases hfractionText with
          | none =>
              cases h
              exact ⟨whole, .int hsign hwholeText hlength, rfl⟩
          | some hdigits => exact absurd rfl hdigits.ne_nil
      · cases h
  · next hpart =>
      cases h
      refine ⟨_, .float hsign hwholeText hfractionText hexponentText hpart, ?_⟩
      simp only [List.append_assoc]

theorem NumberText.objects {text : List Char} {v : Decoded} (h : NumberText text v)
    (ok : List (CodePoints × Decoded) → Prop) : v.Objects ok := by
  cases h with
  | int => trivial
  | float => trivial

section Sound

variable {ε : Type} {hooks : DecodeHooks ε}

/-- A word, if no constant is let through. -/
theorem scanWord_sound (hconstant : ∀ token v, hooks.constant token ≠ .ok v) {input : List Char}
    {v : Decoded} {rest : List Char} (h : scanWord hooks input = .ok (v, rest)) :
    ∃ text, PartText (.value v) text ∧ input = text ++ rest ∧ ∀ ok, v.Objects ok := by
  unfold scanWord at h
  split at h
  · next hword =>
      cases h
      exact ⟨_, .null, afterWord_eq_some hword, fun _ => trivial⟩
  · next hword _ =>
      cases h
      exact ⟨_, .true, afterWord_eq_some hword, fun _ => trivial⟩
  · next hword _ _ =>
      cases h
      exact ⟨_, .false, afterWord_eq_some hword, fun _ => trivial⟩
  · have hrefused : ∀ token rest', ¬(do pure (← hooks.constant token, rest')) =
        (.ok (v, rest) : Except ε (Decoded × List Char)) := by
      intro token rest' heq
      obtain ⟨v', hv', -⟩ := bind_eq_ok.mp heq
      exact hconstant token v' hv'
    split at h
    · exact absurd h (hrefused _ _)
    · exact absurd h (hrefused _ _)
    · exact absurd h (hrefused _ _)
    · cases h

theorem scanAtom_sound (hconstant : ∀ token v, hooks.constant token ≠ .ok v) {input : List Char}
    {v : Decoded} {rest : List Char} (h : scanAtom hooks input = .ok (v, rest)) :
    ∃ text, PartText (.value v) text ∧ input = text ++ rest ∧ ∀ ok, v.Objects ok := by
  unfold scanAtom at h
  simp only at h
  split at h
  · next result hnumber =>
      cases h
      split at hnumber
      · obtain ⟨text, hnum, rfl⟩ := scanNumber_sound .minus hnumber
        exact ⟨_, .number hnum, rfl, hnum.objects⟩
      · obtain ⟨text, hnum, rfl⟩ := scanNumber_sound .none hnumber
        exact ⟨_, .number hnum, rfl, hnum.objects⟩
  · exact scanWord_sound hconstant h

theorem scanName_sound {input : List Char} {codes : CodePoints} {rest : List Char}
    (h : scanName hooks input = .ok (codes, rest)) :
    ∃ text, NameText text codes ∧ input = text ++ rest := by
  unfold scanName at h
  split at h
  · cases h
  next c input =>
  split at h
  · next hquote =>
      split at h
      · cases h
      · next raw after hscan =>
          obtain ⟨body, hbody, rfl⟩ := scanString_sound hscan
          obtain ⟨blanks, hb, heq⟩ := skipBlank_spec after
          split at h
          · next rest' hcolon =>
              cases h
              rw [hcolon] at heq
              refine ⟨_, ⟨body, blanks, raw, hbody, hb, rfl, rfl⟩, ?_⟩
              rw [hquote, heq]
              simp
          · cases h
  · cases h

/-- The members an object may have. -/
def DecodeHooks.Lets (hooks : DecodeHooks ε) (members : List (CodePoints × Decoded)) : Prop :=
  hooks.pairs members = .ok ()

/-- With this fuel, what each of the three functions takes off a text is a
piece of the grammar. -/
structure ScanSound (hooks : DecodeHooks ε) (fuel : Nat) : Prop where
  value : ∀ {input v rest}, scanValue hooks fuel input = .ok (v, rest) →
    ∃ text, PartText (.value v) text ∧ input = text ++ rest ∧ v.Objects hooks.Lets
  items : ∀ {input items rest}, scanItems hooks fuel (skipBlank input) = .ok (items, rest) →
    ∃ text, PartText (.items items) text ∧ input = text ++ rest ∧
      Decoded.ObjectsItems hooks.Lets items
  members : ∀ {input members rest},
    scanMembers hooks fuel (skipBlank input) = .ok (members, rest) →
    ∃ text, PartText (.members members) text ∧ input = text ++ rest ∧
      Decoded.ObjectsMembers hooks.Lets members

variable {fuel : Nat} {input rest : List Char}

theorem ScanSound.scanValue (ih : ScanSound hooks fuel)
    (hconstant : ∀ token v, hooks.constant token ≠ .ok v) {v : Decoded}
    (h : scanValue hooks (fuel + 1) input = .ok (v, rest)) :
    ∃ text, PartText (.value v) text ∧ input = text ++ rest ∧ v.Objects hooks.Lets := by
  cases input with
  | nil =>
      rw [Lib.scanValue] at h
      cases h
  | cons c input =>
      rw [Lib.scanValue] at h
      split at h
      · next hquote =>
          split at h
          · next codes after hscan =>
              cases h
              obtain ⟨body, hbody, rfl⟩ := scanString_sound hscan
              exact ⟨_, .str hbody, by rw [hquote]; simp, trivial⟩
          · cases h
      split at h
      · next hopen =>
          subst hopen
          obtain ⟨blanks, hb, heq⟩ := skipBlank_spec input
          split at h
          · next after hclose =>
              cases h
              rw [hclose] at heq
              exact ⟨_, .emptyArr hb, by rw [heq]; simp, trivial⟩
          · obtain ⟨⟨v₁, after⟩, hv, h⟩ := bind_eq_ok.mp h
            obtain ⟨⟨items, after'⟩, hi, h⟩ := bind_eq_ok.mp h
            cases h
            obtain ⟨first, hfirst, hrest, hok⟩ := ih.value hv
            obtain ⟨more, hmore, rfl, hoks⟩ := ih.items hi
            rw [hrest] at heq
            exact ⟨_, .arr hb hfirst hmore, by rw [heq]; simp, hok, hoks⟩
      split at h
      · next hopen =>
          subst hopen
          obtain ⟨blanks, hb, heq⟩ := skipBlank_spec input
          split at h
          · next after hclose =>
              obtain ⟨⟨⟩, hpairs, h⟩ := bind_eq_ok.mp h
              cases h
              rw [hclose] at heq
              exact ⟨_, .emptyObj hb, by rw [heq]; simp, hpairs, trivial⟩
          · obtain ⟨⟨codes, after⟩, hn, h⟩ := bind_eq_ok.mp h
            obtain ⟨⟨v₁, after'⟩, hv, h⟩ := bind_eq_ok.mp h
            obtain ⟨⟨members, after''⟩, hm, h⟩ := bind_eq_ok.mp h
            obtain ⟨⟨⟩, hpairs, h⟩ := bind_eq_ok.mp h
            cases h
            obtain ⟨name, hname, hrest⟩ := scanName_sound hn
            obtain ⟨blanks', hb', heq'⟩ := skipBlank_spec after
            obtain ⟨first, hfirst, hrest', hok⟩ := ih.value hv
            obtain ⟨more, hmore, rfl, hoks⟩ := ih.members hm
            rw [hrest'] at heq'
            rw [hrest, heq'] at heq
            exact ⟨_, .obj hb hname hb' hfirst hmore, by rw [heq]; simp, hpairs, hok, hoks⟩
      · obtain ⟨text, htext, heq, hok⟩ := scanAtom_sound hconstant h
        exact ⟨text, htext, heq, hok _⟩

theorem ScanSound.scanItems (ih : ScanSound hooks fuel) {items : List Decoded}
    (h : scanItems hooks (fuel + 1) (skipBlank input) = .ok (items, rest)) :
    ∃ text, PartText (.items items) text ∧ input = text ++ rest ∧
      Decoded.ObjectsItems hooks.Lets items := by
  obtain ⟨blanks, hb, heq⟩ := skipBlank_spec input
  unfold Lib.scanItems at h
  split at h
  · next fuel' after hfuel hcomma =>
      cases hfuel
      rw [hcomma] at heq
      obtain ⟨⟨v₁, after'⟩, hv, h⟩ := bind_eq_ok.mp h
      obtain ⟨⟨items', after''⟩, hi, h⟩ := bind_eq_ok.mp h
      cases h
      obtain ⟨blanks', hb', heq'⟩ := skipBlank_spec after
      obtain ⟨first, hfirst, hrest, hok⟩ := ih.value hv
      obtain ⟨more, hmore, rfl, hoks⟩ := ih.items hi
      rw [hrest] at heq'
      rw [heq'] at heq
      exact ⟨_, .item hb hb' hfirst hmore, by rw [heq]; simp, hok, hoks⟩
  · next hfuel hclose =>
      cases h
      rw [hclose] at heq
      exact ⟨_, .lastItem hb, by rw [heq]; simp, trivial⟩
  · cases h

theorem ScanSound.scanMembers (ih : ScanSound hooks fuel)
    {members : List (CodePoints × Decoded)}
    (h : scanMembers hooks (fuel + 1) (skipBlank input) = .ok (members, rest)) :
    ∃ text, PartText (.members members) text ∧ input = text ++ rest ∧
      Decoded.ObjectsMembers hooks.Lets members := by
  obtain ⟨blanks, hb, heq⟩ := skipBlank_spec input
  unfold Lib.scanMembers at h
  split at h
  · next fuel' after hfuel hcomma =>
      cases hfuel
      rw [hcomma] at heq
      obtain ⟨⟨codes, after'⟩, hn, h⟩ := bind_eq_ok.mp h
      obtain ⟨⟨v₁, after''⟩, hv, h⟩ := bind_eq_ok.mp h
      obtain ⟨⟨members', afterLast⟩, hm, h⟩ := bind_eq_ok.mp h
      cases h
      obtain ⟨blanks', hb', heq'⟩ := skipBlank_spec after
      obtain ⟨name, hname, hrest⟩ := scanName_sound hn
      obtain ⟨blanks'', hb'', heq''⟩ := skipBlank_spec after'
      obtain ⟨first, hfirst, hrest', hok⟩ := ih.value hv
      obtain ⟨more, hmore, rfl, hoks⟩ := ih.members hm
      rw [hrest'] at heq''
      rw [hrest, heq''] at heq'
      rw [heq'] at heq
      exact ⟨_, .member hb hb' hname hb'' hfirst hmore, by rw [heq]; simp, hok, hoks⟩
  · next hfuel hclose =>
      cases h
      rw [hclose] at heq
      exact ⟨_, .lastMember hb, by rw [heq]; simp, trivial⟩
  · cases h

theorem scan_sound (hconstant : ∀ token v, hooks.constant token ≠ .ok v) (fuel : Nat) :
    ScanSound hooks fuel := by
  induction fuel with
  | zero =>
      refine ⟨fun h => ?_, fun h => ?_, fun h => ?_⟩
      · rw [Lib.scanValue] at h
        cases h
      · unfold Lib.scanItems at h
        cases h
      · unfold Lib.scanMembers at h
        cases h
  | succ fuel ih => exact ⟨ih.scanValue hconstant, ih.scanItems, ih.scanMembers⟩

theorem skipBlank_eq_nil {input : List Char} (h : skipBlank input = []) : Blanks input := by
  obtain ⟨blanks, hb, heq⟩ := skipBlank_spec input
  rw [h, List.append_nil] at heq
  exact heq ▸ hb

/-- What the decoder reads is JSON. -/
theorem decodeJson_sound (hconstant : ∀ token v, hooks.constant token ≠ .ok v)
    {text : List Char} {v : Decoded} (h : decodeJson hooks text = .ok v) :
    JsonText text v ∧ v.Objects hooks.Lets := by
  obtain ⟨⟨v', rest⟩, hscan, h⟩ := bind_eq_ok.mp h
  obtain ⟨blanks, hb, heq⟩ := skipBlank_spec text
  obtain ⟨body, hbody, hrest, hok⟩ := (scan_sound hconstant _).value hscan
  simp only at h
  split at h
  · next hend =>
      cases h
      exact ⟨⟨blanks, body, rest, hb, hbody, skipBlank_eq_nil hend, heq.trans (by rw [hrest])⟩, hok⟩
  · cases h

end Sound

end Lib
