import Masterserver.Lib.JsonPrinted

/-!
# What the encoder writes is JSON

A value is written as a text of the grammar if its floating-point numbers are
written as numbers and its integers are not too long; texts are escaped, so
they can be any.
-/

namespace Lib

namespace Json

variable (ok : String → Prop)

mutual

/-- The text of every floating-point number in the value meets the condition. -/
def Floats : Json → Prop
  | .float text => ok text
  | .arr items => FloatsItems items
  | .obj members => FloatsMembers members
  | _ => True

def FloatsItems : List Json → Prop
  | [] => True
  | v :: rest => Floats v ∧ FloatsItems rest

def FloatsMembers : List (String × Json) → Prop
  | [] => True
  | (_, v) :: rest => Floats v ∧ FloatsMembers rest

end

end Json

/-- A text that is a number with a fraction or an exponent. -/
def IsFloatText (text : String) : Prop := ∃ negative, FloatText negative text.toList

theorem blanks_nil : Blanks [] := nofun

theorem stringText_escapeChar (c : Char) {text : List Char} {codes : CodePoints}
    (h : StringText text codes) : ∃ codes', StringText (escapeChar c ++ text) codes' := by
  unfold escapeChar
  split
  · exact ⟨_, .escape (show escaped? _ = some 34 from rfl) h⟩
  next hquote =>
  split
  · exact ⟨_, .escape (show escaped? _ = some 92 from rfl) h⟩
  next hslash =>
  split
  · exact ⟨_, .escape (show escaped? _ = some 10 from rfl) h⟩
  split
  · exact ⟨_, .escape (show escaped? _ = some 13 from rfl) h⟩
  split
  · exact ⟨_, .escape (show escaped? _ = some 9 from rfl) h⟩
  split
  · exact ⟨_, .escape (show escaped? _ = some 12 from rfl) h⟩
  split
  · exact ⟨_, .escape (show escaped? _ = some 8 from rfl) h⟩
  split
  · next hcontrol =>
      have hhigh := hexValue?_hexDigit (c.toNat / 16) (by omega)
      have hlow := hexValue?_hexDigit (c.toNat % 16) (by omega)
      have hzero : hexValue? '0' = some 0 := by decide
      have hcode : ∃ code, hex4? '0' '0' (hexDigit (c.toNat / 16)) (hexDigit (c.toNat % 16)) =
          some code := by
        unfold hex4?
        rw [hhigh, hlow, hzero]
        exact ⟨_, rfl⟩
      obtain ⟨code, hcode⟩ := hcode
      exact ⟨_, .unicode hcode h⟩
  · next hcontrol => exact ⟨_, .plain hquote hslash (not_lt.mp hcontrol) h⟩

theorem stringText_escaped (cs : List Char) :
    ∃ codes, StringText (cs.flatMap escapeChar) codes := by
  induction cs with
  | nil => exact ⟨[], .nil⟩
  | cons c rest ih =>
      obtain ⟨codes, h⟩ := ih
      exact stringText_escapeChar c h

theorem nameText_quote (name : String) : ∃ codes, NameText (quote name ++ [':']) codes := by
  obtain ⟨raw, hraw⟩ := stringText_escaped name.toList
  refine ⟨_, _, [], raw, hraw, blanks_nil, rfl, ?_⟩
  simp [quote]

theorem numberText_int (n : Int) (h : (Nat.toDigits 10 n.natAbs).length ≤ maxStrDigits) :
    ∃ v, NumberText (toString n).toList v := by
  have hwhole := wholeText_toDigits n.natAbs
  rw [toList_toString_int]
  split
  · exact ⟨_, .int .minus hwhole h⟩
  · exact ⟨_, .int .none hwhole h⟩

mutual

theorem partText_dumps : ∀ v : Json, v.Short → v.Floats IsFloatText →
    ∃ d, PartText (.value d) v.dumps
  | .null, _, _ => ⟨_, .null⟩
  | .bool true, _, _ => ⟨_, .true⟩
  | .bool false, _, _ => ⟨_, .false⟩
  | .int n, hshort, _ => by
      obtain ⟨v, hv⟩ := numberText_int n hshort
      exact ⟨v, .number hv⟩
  | .float text, _, hfloat => by
      obtain ⟨negative, digits, exponent, h⟩ := hfloat
      exact ⟨_, .number h⟩
  | .str s, _, _ => by
      obtain ⟨codes, h⟩ := stringText_escaped s.toList
      exact ⟨_, .str h⟩
  | .arr [], _, _ => ⟨_, .emptyArr blanks_nil⟩
  | .arr (v :: rest), hshort, hfloat => by
      obtain ⟨d, hd⟩ := partText_dumps v hshort.1 hfloat.1
      obtain ⟨ds, hds⟩ := partText_dumpsItems rest hshort.2 hfloat.2
      exact ⟨_, .arr blanks_nil hd hds⟩
  | .obj [], _, _ => ⟨_, .emptyObj blanks_nil⟩
  | .obj ((name, v) :: rest), hshort, hfloat => by
      obtain ⟨d, hd⟩ := partText_dumps v hshort.1 hfloat.1
      obtain ⟨ds, hds⟩ := partText_dumpsMembers rest hshort.2 hfloat.2
      obtain ⟨codes, hname⟩ := nameText_quote name
      have h := PartText.obj blanks_nil hname blanks_nil hd hds
      rw [List.append_assoc] at h
      exact ⟨_, h⟩

theorem partText_dumpsItems : ∀ items : List Json, Json.ShortItems items →
    Json.FloatsItems IsFloatText items → ∃ ds, PartText (.items ds) (Json.dumpsItems items)
  | [], _, _ => ⟨_, .lastItem blanks_nil⟩
  | v :: rest, hshort, hfloat => by
      obtain ⟨d, hd⟩ := partText_dumps v hshort.1 hfloat.1
      obtain ⟨ds, hds⟩ := partText_dumpsItems rest hshort.2 hfloat.2
      exact ⟨_, .item blanks_nil blanks_nil hd hds⟩

theorem partText_dumpsMembers : ∀ members : List (String × Json), Json.ShortMembers members →
    Json.FloatsMembers IsFloatText members →
      ∃ ds, PartText (.members ds) (Json.dumpsMembers members)
  | [], _, _ => ⟨_, .lastMember blanks_nil⟩
  | (name, v) :: rest, hshort, hfloat => by
      obtain ⟨d, hd⟩ := partText_dumps v hshort.1 hfloat.1
      obtain ⟨ds, hds⟩ := partText_dumpsMembers rest hshort.2 hfloat.2
      obtain ⟨codes, hname⟩ := nameText_quote name
      have h := PartText.member blanks_nil blanks_nil hname blanks_nil hd hds
      rw [List.append_assoc] at h
      exact ⟨_, h⟩

end

/-- What is written of such a value is JSON. -/
theorem jsonText_dumps {v : Json} (hshort : v.Short) (hfloat : v.Floats IsFloatText) :
    ∃ d, JsonText v.dumps d := by
  obtain ⟨d, hd⟩ := partText_dumps v hshort hfloat
  exact ⟨d, [], _, [], blanks_nil, hd, blanks_nil, by simp⟩

end Lib
