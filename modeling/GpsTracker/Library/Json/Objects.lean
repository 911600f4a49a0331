import GpsTracker.Library.Json.Strings

/-!
# Values of JSON

A reader of JSON texts: `lex` makes tokens of a text and `parse` makes a value of
the tokens, both after the grammar of JSON, with its white space and its numbers.
An object keeps all its fields, in their order and with repeated names.

An object whose fields are all strings has one list of tokens
(`parse_eq_stringObject_iff`), so whether a text is read as that object is a
question about its tokens.
-/

namespace GpsTracker.Json

/-- A token. -/
inductive Token where
  /-- An opening brace. -/
  | lbrace
  /-- A closing brace. -/
  | rbrace
  /-- An opening bracket. -/
  | lbracket
  /-- A closing bracket. -/
  | rbracket
  /-- A colon. -/
  | colon
  /-- A comma. -/
  | comma
  /-- `null`. -/
  | null
  /-- `true` or `false`. -/
  | bool (b : Bool)
  /-- A number, as it is written. -/
  | number (digits : Text)
  /-- A string, by its contents. -/
  | string (contents : Text)
  deriving DecidableEq, Repr

/-- A value. The fields of an object are kept in their order, and all of them. -/
inductive Value where
  /-- `null`. -/
  | null
  /-- `true` or `false`. -/
  | bool (b : Bool)
  /-- A number, as it is written. -/
  | number (digits : Text)
  /-- A string. -/
  | string (contents : Text)
  /-- An array. -/
  | array (elements : List Value)
  /-- An object. -/
  | object (fields : List (Text × Value))

/-! ### Tokens -/

/-- A decimal digit. -/
def isDigit (c : UInt16) : Bool := decide (0x30 ≤ c ∧ c ≤ 0x39)

/-- White space. -/
def isSpace (c : UInt16) : Bool := decide (c = 0x20 ∨ c = 0x09 ∨ c = 0x0a ∨ c = 0x0d)

/-- Digits, one at least, and what follows. -/
def scanDigits (s : Text) : Option (Text × Text) :=
  if s.takeWhile isDigit = [] then none else some (s.takeWhile isDigit, s.dropWhile isDigit)

/-- The digits before the point: no zero before others. -/
def scanInteger : Text → Option (Text × Text)
  | [] => none
  | c :: s => if c = 0x30 then some ([c], s) else scanDigits (c :: s)

/-- The digits after the point, if there is one. -/
def scanFraction : Text → Option (Text × Text)
  | [] => some ([], [])
  | c :: s => if c = 0x2e then (scanDigits s).map fun x => (c :: x.1, x.2) else some ([], c :: s)

/-- The sign of an exponent, if it has one. -/
def scanSign : Text → Text × Text
  | [] => ([], [])
  | c :: s => if c = 0x2b ∨ c = 0x2d then ([c], s) else ([], c :: s)

/-- The exponent, if there is one. -/
def scanExponent : Text → Option (Text × Text)
  | [] => some ([], [])
  | c :: s =>
    if c = 0x65 ∨ c = 0x45 then (scanDigits (scanSign s).2).map fun x => (c :: (scanSign s).1 ++ x.1, x.2)
    else some ([], c :: s)

/-- A number after its minus sign, and what follows. -/
def scanUnsigned (s : Text) : Option (Text × Text) := do
  let (integer, s) ← scanInteger s
  let (fraction, s) ← scanFraction s
  let (exponent, s) ← scanExponent s
  return (integer ++ fraction ++ exponent, s)

/-- A number, and what follows. -/
def scanNumber : Text → Option (Text × Text)
  | [] => none
  | c :: s => if c = 0x2d then (scanUnsigned s).map fun x => (c :: x.1, x.2) else scanUnsigned (c :: s)

/-- The token of a punctuation mark. -/
def punctuation (c : UInt16) : Option Token :=
  if c = 0x7b then some .lbrace
  else if c = 0x7d then some .rbrace
  else if c = 0x5b then some .lbracket
  else if c = 0x5d then some .rbracket
  else if c = 0x3a then some .colon
  else if c = 0x2c then some .comma
  else none

/-- The rest of the word that begins with a letter, and its token. -/
def word (c : UInt16) : Option (Text × Token) :=
  if c = 0x6e then some ([0x75, 0x6c, 0x6c], .null)
  else if c = 0x74 then some ([0x72, 0x75, 0x65], .bool true)
  else if c = 0x66 then some ([0x61, 0x6c, 0x73, 0x65], .bool false)
  else none

/-- The token that begins with `c`, and what follows. -/
def scanToken (c : UInt16) (s : Text) : Option (Token × Text) :=
  if c = quote then (scanString s).map fun x => (.string x.1, x.2)
  else
    match punctuation c, word c with
    | some t, _ => some (t, s)
    | none, some (w, t) => if w <+: s then some (t, s.drop w.length) else none
    | none, none => (scanNumber (c :: s)).map fun x => (.number x.1, x.2)

theorem length_scanDigits {s d rest : Text} (h : scanDigits s = some (d, rest)) : rest.length < s.length := by
  rw [scanDigits] at h
  split_ifs at h with hd
  cases h
  have hpos := List.length_pos_iff.mpr hd
  have hlen := congrArg List.length (List.takeWhile_append_dropWhile (p := isDigit) (l := s))
  rw [List.length_append] at hlen
  omega

theorem length_scanInteger {s d rest : Text} (h : scanInteger s = some (d, rest)) : rest.length < s.length := by
  cases s with
  | nil => cases h
  | cons c s =>
    rw [scanInteger] at h
    split_ifs at h
    · cases h
      exact Nat.lt_succ_self _
    · exact length_scanDigits h

theorem length_scanFraction {s d rest : Text} (h : scanFraction s = some (d, rest)) :
    rest.length ≤ s.length := by
  cases s with
  | nil => cases h; exact Nat.le_refl _
  | cons c s =>
    rw [scanFraction] at h
    split_ifs at h
    · obtain ⟨x, hx, heq⟩ := Option.map_eq_some_iff.mp h
      cases heq
      have := length_scanDigits hx
      rw [List.length_cons]
      omega
    · cases h
      exact Nat.le_refl _

theorem length_scanSign (s : Text) : (scanSign s).2.length ≤ s.length := by
  cases s with
  | nil => exact Nat.le_refl _
  | cons c s =>
    rw [scanSign]
    split_ifs
    · exact Nat.le_succ _
    · exact Nat.le_refl _

theorem length_scanExponent {s d rest : Text} (h : scanExponent s = some (d, rest)) :
    rest.length ≤ s.length := by
  cases s with
  | nil => cases h; exact Nat.le_refl _
  | cons c s =>
    rw [scanExponent] at h
    split_ifs at h
    · obtain ⟨x, hx, heq⟩ := Option.map_eq_some_iff.mp h
      cases heq
      have h1 := length_scanDigits hx
      have h2 := length_scanSign s
      rw [List.length_cons]
      omega
    · cases h
      exact Nat.le_refl _

theorem length_scanUnsigned {s d rest : Text} (h : scanUnsigned s = some (d, rest)) :
    rest.length < s.length := by
  obtain ⟨⟨integer, s1⟩, h1, h⟩ := Option.bind_eq_some_iff.mp h
  obtain ⟨⟨fraction, s2⟩, h2, h⟩ := Option.bind_eq_some_iff.mp h
  obtain ⟨⟨exponent, s3⟩, h3, h⟩ := Option.bind_eq_some_iff.mp h
  cases h
  have := length_scanInteger h1
  have := length_scanFraction h2
  have := length_scanExponent h3
  omega

theorem length_scanNumber {s d rest : Text} (h : scanNumber s = some (d, rest)) : rest.length < s.length := by
  cases s with
  | nil => cases h
  | cons c s =>
    rw [scanNumber] at h
    split_ifs at h
    · obtain ⟨x, hx, heq⟩ := Option.map_eq_some_iff.mp h
      cases heq
      have := length_scanUnsigned hx
      rw [List.length_cons]
      omega
    · exact length_scanUnsigned h

/-- A token is read from what is there. -/
theorem length_scanToken {c : UInt16} {s rest : Text} {t : Token} (h : scanToken c s = some (t, rest)) :
    rest.length ≤ s.length := by
  rw [scanToken] at h
  by_cases hquote : c = quote
  · rw [if_pos hquote] at h
    obtain ⟨x, hx, heq⟩ := Option.map_eq_some_iff.mp h
    cases heq
    have := length_scanString hx
    omega
  · rw [if_neg hquote] at h
    split at h
    · cases h
      exact Nat.le_refl _
    · split_ifs at h
      cases h
      rw [List.length_drop]
      omega
    · obtain ⟨x, hx, heq⟩ := Option.map_eq_some_iff.mp h
      cases heq
      have := length_scanNumber hx
      rw [List.length_cons] at this
      omega

/-- The tokens of a text. -/
def lex (text : Text) : Option (List Token) :=
  match text with
  | [] => some []
  | c :: s =>
    if isSpace c then lex s
    else
      match _ : scanToken c s with
      | none => none
      | some (t, rest) => (lex rest).map fun ts => t :: ts
termination_by text.length
decreasing_by
  · exact Nat.lt_succ_self _
  · exact Nat.lt_succ_of_le (length_scanToken ‹_›)

@[simp] theorem lex_nil : lex [] = some [] := by
  rw [lex]

theorem lex_of_space {c : UInt16} (h : isSpace c = true) (s : Text) : lex (c :: s) = lex s := by
  rw [lex, if_pos h]

theorem lex_of_token {c : UInt16} (hc : isSpace c = false) {s rest : Text} {t : Token}
    (h : scanToken c s = some (t, rest)) : lex (c :: s) = (lex rest).map fun ts => t :: ts := by
  rw [lex, if_neg (by simp [hc])]
  split <;> simp_all

theorem lex_of_none {c : UInt16} (hc : isSpace c = false) {s : Text} (h : scanToken c s = none) :
    lex (c :: s) = none := by
  rw [lex, if_neg (by simp [hc])]
  split <;> simp_all

/-- A punctuation mark is a token of its own. -/
theorem lex_punctuation {c : UInt16} {t : Token} (hc : isSpace c = false ∧ c ≠ quote ∧ punctuation c = some t)
    (s : Text) : lex (c :: s) = (lex s).map fun ts => t :: ts := by
  refine lex_of_token hc.1 ?_
  rw [scanToken, if_neg hc.2.1, hc.2.2]

/-- A quotation mark begins a string. -/
theorem lex_quote (s : Text) : lex (quote :: s) =
    (scanString s).bind fun x => (lex x.2).map fun ts => Token.string x.1 :: ts := by
  have htoken : scanToken quote s = (scanString s).map fun x => (.string x.1, x.2) := by
    rw [scanToken, if_pos rfl]
  cases hs : scanString s with
  | none =>
    rw [hs] at htoken
    exact lex_of_none (by decide) htoken
  | some x =>
    rw [hs] at htoken
    exact lex_of_token (by decide) htoken

/-- A plain text between quotation marks is one token. -/
theorem lex_plain {s : Text} (h : Plain s) (rest : Text) :
    lex (quote :: s ++ quote :: rest) = (lex rest).map fun ts => Token.string s :: ts := by
  rw [List.cons_append, lex_quote, scanString_plain h]
  rfl

/-- A letter that begins neither a word nor a number. -/
theorem lex_letter {c : UInt16} (hc : isSpace c = false ∧ c ≠ quote ∧ punctuation c = none ∧ word c = none ∧
    c ≠ 0x2d ∧ c ≠ 0x30 ∧ isDigit c = false) (s : Text) : lex (c :: s) = none := by
  obtain ⟨hspace, hquote, hpunct, hword, hminus, hzero, hdigit⟩ := hc
  refine lex_of_none hspace ?_
  have hnumber : scanNumber (c :: s) = none := by
    rw [scanNumber, if_neg hminus, scanUnsigned, scanInteger, if_neg hzero, scanDigits,
      List.takeWhile_cons, hdigit]
    rfl
  rw [scanToken, if_neg hquote, hpunct, hword, hnumber]
  rfl

/-! ### Values -/

mutual

/-- The value that tokens begin with, and the tokens that follow. -/
def parseValue : ℕ → List Token → Option (Value × List Token)
  | _ + 1, .null :: ts => some (.null, ts)
  | _ + 1, .bool b :: ts => some (.bool b, ts)
  | _ + 1, .number d :: ts => some (.number d, ts)
  | _ + 1, .string s :: ts => some (.string s, ts)
  | _ + 1, .lbracket :: .rbracket :: ts => some (.array [], ts)
  | n + 1, .lbracket :: ts => (parseElements n ts).map fun x => (.array x.1, x.2)
  | _ + 1, .lbrace :: .rbrace :: ts => some (.object [], ts)
  | n + 1, .lbrace :: ts => (parseMembers n ts).map fun x => (.object x.1, x.2)
  | _, _ => none

/-- The elements of an array up to its closing bracket. -/
def parseElements : ℕ → List Token → Option (List Value × List Token)
  | 0, _ => none
  | n + 1, ts =>
    match parseValue n ts with
    | some (v, .rbracket :: ts) => some ([v], ts)
    | some (v, .comma :: ts) => (parseElements n ts).map fun x => (v :: x.1, x.2)
    | _ => none

/-- The fields of an object up to its closing brace. -/
def parseMembers : ℕ → List Token → Option (List (Text × Value) × List Token)
  | n + 1, .string name :: .colon :: ts =>
    match parseValue n ts with
    | some (v, .rbrace :: ts) => some ([(name, v)], ts)
    | some (v, .comma :: ts) => (parseMembers n ts).map fun x => ((name, v) :: x.1, x.2)
    | _ => none
  | _, _ => none

end

/-- The value of a text that is one. Every call goes past a token, so there are enough of them. -/
def parse (text : Text) : Option Value :=
  match lex text with
  | none => none
  | some ts =>
    match parseValue (ts.length + 1) ts with
    | some (v, []) => some v
    | _ => none

/-! ### Objects of strings -/

/-- The object with these fields, all strings. -/
def stringObject (fields : List (Text × Text)) : Value := .object (fields.map fun f => (f.1, .string f.2))

/-- The tokens of such fields, up to the closing brace. -/
def fieldTokens : List (Text × Text) → List Token
  | [] => [.rbrace]
  | [f] => [.string f.1, .colon, .string f.2, .rbrace]
  | f :: g :: fs => .string f.1 :: .colon :: .string f.2 :: .comma :: fieldTokens (g :: fs)

/-- A string is one token. -/
theorem parseValue_eq_string {n : ℕ} {ts rest : List Token} {s : Text}
    (h : parseValue n ts = some (.string s, rest)) :
    ts = .string s :: rest := by
  unfold parseValue at h
  split at h
  case h_4 =>
    cases h
    rfl
  all_goals simp at h

/-- A field, its value a string, and what ends it. -/
theorem parseMembers_cases {n : ℕ} {ts rest : List Token} {name s : Text} {fields : List (Text × Value)}
    (h : parseMembers n ts = some ((name, .string s) :: fields, rest)) :
    (fields = [] ∧ ts = .string name :: .colon :: .string s :: .rbrace :: rest) ∨
      ∃ m us, parseMembers m us = some (fields, rest) ∧ ts = .string name :: .colon :: .string s :: .comma :: us := by
  unfold parseMembers at h
  split at h
  · split at h
    · rename_i hvalue
      cases h
      exact Or.inl ⟨rfl, by rw [parseValue_eq_string hvalue]⟩
    · rename_i us hvalue
      obtain ⟨x, hx, heq⟩ := Option.map_eq_some_iff.mp h
      cases heq
      exact Or.inr ⟨_, us, hx, by rw [parseValue_eq_string hvalue]⟩
    · cases h
  · cases h

/-- An object has a field if it has members at all. -/
theorem parseMembers_ne_nil {n : ℕ} {ts rest : List Token} : parseMembers n ts ≠ some ([], rest) := by
  intro h
  unfold parseMembers at h
  split at h
  · split at h
    · cases h
    · obtain ⟨x, -, heq⟩ := Option.map_eq_some_iff.mp h
      cases heq
    · cases h
  · cases h

theorem parseMembers_eq_strings (fields : List (Text × Text)) : ∀ {n : ℕ} {ts rest : List Token},
    parseMembers n ts = some (fields.map fun f => (f.1, .string f.2), rest) → ts = fieldTokens fields ++ rest := by
  induction fields with
  | nil => exact fun h => absurd h parseMembers_ne_nil
  | cons f fields ih =>
    intro n ts rest h
    rcases parseMembers_cases h with ⟨hnil, hts⟩ | ⟨m, us, hus, hts⟩
    · obtain rfl := List.map_eq_nil_iff.mp hnil
      exact hts
    · cases fields with
      | nil => exact absurd hus parseMembers_ne_nil
      | cons g fields =>
        rw [hts, ih hus]
        rfl

theorem parseMembers_fieldTokens (fields : List (Text × Text)) (hne : fields ≠ []) :
    ∀ {n : ℕ}, fields.length < n →
    ∀ rest, parseMembers n (fieldTokens fields ++ rest) = some (fields.map fun f => (f.1, .string f.2), rest) := by
  induction fields with
  | nil => exact absurd rfl hne
  | cons f fields ih =>
    intro n hn rest
    obtain ⟨n, rfl⟩ : ∃ m, n = m + 2 := ⟨n - 2, by rw [List.length_cons] at hn; omega⟩
    cases fields with
    | nil => rfl
    | cons g fields =>
      rw [fieldTokens, List.cons_append, List.cons_append, List.cons_append, List.cons_append, parseMembers]
      simp only [parseValue]
      rw [ih (List.cons_ne_nil _ _) (Nat.lt_of_succ_lt_succ hn)]
      rfl

theorem length_fieldTokens (fields : List (Text × Text)) (hne : fields ≠ []) :
    (fieldTokens fields).length = 4 * fields.length := by
  induction fields with
  | nil => exact absurd rfl hne
  | cons f fields ih =>
    cases fields with
    | nil => rfl
    | cons g fields =>
      have hrest := ih (List.cons_ne_nil g fields)
      simp only [fieldTokens, List.length_cons] at hrest ⊢
      omega

/-- An object with fields is its brace and its members. -/
theorem parseValue_eq_object {n : ℕ} {ts rest : List Token} {fields : List (Text × Value)} (hne : fields ≠ [])
    (h : parseValue n ts = some (.object fields, rest)) :
    ∃ m us, ts = .lbrace :: us ∧ parseMembers m us = some (fields, rest) := by
  unfold parseValue at h
  split at h
  case h_7 =>
    cases h
    exact absurd rfl hne
  case h_8 m us _ =>
    obtain ⟨x, hx, heq⟩ := Option.map_eq_some_iff.mp h
    cases heq
    exact ⟨m, us, rfl, hx⟩
  all_goals simp at h

theorem exists_fieldTokens (fields : List (Text × Text)) (hne : fields ≠ []) :
    ∃ name ts, fieldTokens fields = .string name :: ts := by
  rcases fields with _ | ⟨f, _ | ⟨g, fields⟩⟩
  · exact absurd rfl hne
  · exact ⟨_, _, rfl⟩
  · exact ⟨_, _, rfl⟩

theorem parseValue_fieldTokens (fields : List (Text × Text)) (hne : fields ≠ []) {n : ℕ}
    (hn : fields.length < n) :
    parseValue (n + 1) (.lbrace :: fieldTokens fields) = some (stringObject fields, []) := by
  have hmembers := parseMembers_fieldTokens fields hne hn []
  rw [List.append_nil] at hmembers
  obtain ⟨name, ts, hts⟩ := exists_fieldTokens fields hne
  rw [hts] at hmembers ⊢
  simp [parseValue, hmembers, stringObject]

/-- **An object of strings is read from its tokens and from no others.** -/
theorem parse_eq_stringObject_iff (text : Text) {fields : List (Text × Text)} (hne : fields ≠ []) :
    parse text = some (stringObject fields) ↔ lex text = some (.lbrace :: fieldTokens fields) := by
  have hmap : fields.map (fun f => (f.1, Value.string f.2)) ≠ [] := fun h => hne (List.map_eq_nil_iff.mp h)
  rw [parse]
  cases hlex : lex text with
  | none => simp
  | some ts =>
    simp only [Option.some.injEq]
    constructor
    · intro h
      split at h
      · rename_i v hvalue
        cases h
        obtain ⟨m, us, rfl, hmembers⟩ := parseValue_eq_object hmap hvalue
        rw [parseMembers_eq_strings fields hmembers, List.append_nil]
      · cases h
    · rintro rfl
      have hlength := length_fieldTokens fields hne
      have hpos := List.length_pos_iff.mpr hne
      rw [List.length_cons, parseValue_fieldTokens fields hne (by omega)]

end GpsTracker.Json
