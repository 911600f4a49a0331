import GpsTracker.Library.Json.Objects

/-!
# Texts put together from a template

A template writes `"name":"`, then something for a text it was given, then a
quotation mark and what the template goes on with. If what it writes takes no more
room than the text, the text is read back as this field exactly when it is plain and
was written as it is (`lex_inserted_iff`), provided that the rest of the template is
no text any more when it is read from inside a string (`Stray`): a text that ends in
a backslash makes the reader do that.
-/

namespace GpsTracker.Json

/-- `"name":"`, and what follows. -/
def member (name rest : Text) : Text := quote :: name ++ quote :: 0x3a :: quote :: rest

theorem lex_member {name : Text} (h : Plain name) (rest : Text) : lex (member name rest) =
    (scanString rest).bind fun x => (lex x.2).map fun ts => Token.string name :: .colon :: .string x.1 :: ts := by
  rw [member, lex_plain h, lex_punctuation (t := .colon) ⟨by decide, by decide, by decide⟩, lex_quote]
  cases scanString rest with
  | none => rfl
  | some x =>
    simp only [Option.bind_some]
    cases lex x.2 with
    | none => rfl
    | some ts => rfl

/-- A member whose value is plain. -/
theorem lex_member_plain {name s : Text} (hname : Plain name) (hs : Plain s) (tail : Text) :
    lex (member name (s ++ quote :: tail)) =
      (lex tail).map fun ts => Token.string name :: .colon :: .string s :: ts := by
  rw [lex_member hname, scanString_plain hs]
  rfl

/-- Read from inside a string, the text has no tokens after the string's end. -/
def Stray (tail : Text) : Prop := ∀ v r, scanString tail = some (v, r) → lex r = none

/-- A brace ends no string. -/
theorem stray_rbrace : Stray [0x7d] := by
  intro v r h
  rw [scanString_of_unit (scanUnit_plain (by decide) []), scanString_of_none rfl] at h
  cases h

/-- The quotation mark before the next name ends the string, and the name itself is no token. -/
theorem stray_member {separator name : Text} (h : Plain separator)
    (hname : ∀ r, lex (name ++ r) = none) (rest : Text) :
    Stray (separator ++ member name rest) := by
  intro v r hscan
  rw [member, List.cons_append, scanString_plain h] at hscan
  cases hscan
  exact hname _

/-- **What was inserted for a text is read back as the text exactly when it is the text and
plain**, if it takes no more room. -/
theorem lex_inserted_iff {name tail : Text} (hname : Plain name) (htail : Stray tail) {d s : Text}
    (hwidth : width d ≤ width s) (ts : List Token) :
    lex (member name (d ++ quote :: tail)) = some (.string name :: .colon :: .string s :: ts) ↔
      (Plain s ∧ d = s) ∧ lex tail = some ts := by
  constructor
  · intro h
    rw [lex_member hname] at h
    obtain ⟨x, hscan, h⟩ := Option.bind_eq_some_iff.mp h
    obtain ⟨us, hlex, heq⟩ := Option.map_eq_some_iff.mp h
    simp only [List.cons.injEq, Token.string.injEq, true_and] at heq
    obtain ⟨rfl, rfl⟩ := heq
    rcases scanString_cases d.length (Nat.le_refl _) hscan with ⟨hplain, hx, hr⟩ | hlt | ⟨v', hgo⟩
    · exact ⟨⟨hx ▸ hplain, hx.symm⟩, hr ▸ hlex⟩
    · omega
    · rw [htail v' x.2 hgo] at hlex
      cases hlex
  · rintro ⟨⟨hplain, rfl⟩, hlex⟩
    rw [lex_member_plain hname hplain, hlex]
    rfl

/-- What is cut off inside the value is not read back. -/
theorem lex_cut_ne {name d s : Text} (hname : Plain name) (hwidth : width d ≤ width s) (ts : List Token) :
    lex (member name d) ≠ some (.string name :: .colon :: .string s :: ts) := by
  intro hlex
  rw [lex_member hname] at hlex
  obtain ⟨x, hscan, hlex⟩ := Option.bind_eq_some_iff.mp hlex
  obtain ⟨us, -, heq⟩ := Option.map_eq_some_iff.mp hlex
  simp only [List.cons.injEq, Token.string.injEq, true_and] at heq
  obtain ⟨front, hd, hlt⟩ := scanString_front hscan
  rw [hd, width_append] at hwidth
  rw [heq.1] at hlt
  omega

end GpsTracker.Json
