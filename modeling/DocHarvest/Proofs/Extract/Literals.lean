import Mathlib.Data.Nat.Digits.Defs
import DocHarvest.Extract.Literal
import DocHarvest.Proofs.Text.Phrases

/-!
String literals and the values they spell.

Each character of a value can be written in several ways: as itself, by a one-letter escape, or by
its code in two, four or eight hexadecimal digits; and a line of the literal may be continued on the
next one at any place.  However a value is written between two delimiters, it is read back.
-/

namespace DocHarvest.Extract

/-! ### Writing a value -/

/-- What stands at both ends of a literal. -/
inductive Delimiter where
  | quote
  | apostrophe
  | tripleQuote
  | tripleApostrophe

/-- The character that a delimiter is made of. -/
def Delimiter.mark : Delimiter → Char
  | .quote | .tripleQuote => '"'
  | .apostrophe | .tripleApostrophe => '\''

def Delimiter.text : Delimiter → List Char
  | .quote => ['"']
  | .apostrophe => ['\'']
  | .tripleQuote => ['"', '"', '"']
  | .tripleApostrophe => ['\'', '\'', '\'']

/-- A literal with some flags in front. -/
def Delimiter.literal (delimiter : Delimiter) (flags body : List Char) : List Char :=
  flags ++ (delimiter.text ++ body ++ delimiter.text)

/-- The letters of one-letter escapes, with what they stand for. -/
def letterEscapes : List (Char × Char) :=
  [('n', '\n'), ('t', '\t'), ('r', '\r'), ('\\', '\\'), ('\'', '\''), ('"', '"'),
    ('a', '\x07'), ('b', '\x08'), ('f', '\x0c'), ('v', '\x0b')]

/-- The letters of numeric escapes, with the number of digits that follow. -/
def numericEscapes : List (Char × Nat) :=
  [('x', 2), ('u', 4), ('U', 8)]

/-- The hexadecimal digits with their values, in small and in capital letters. -/
def hexadecimalDigits : List (Char × Nat) :=
  "0123456789abcdef".toList.zipIdx ++ "0123456789ABCDEF".toList.zipIdx

/-- The ways to write a character in a literal whose delimiter is made of a mark. -/
inductive Spells (mark : Char) : Char → List Char → Prop where
  | plain {character : Char} : character ≠ '\\' → character ≠ mark →
      Spells mark character [character]
  | letter {character letter : Char} : (letter, character) ∈ letterEscapes →
      Spells mark character ['\\', letter]
  | code {character letter : Char} {digits : List Char} (values : List Nat) :
      (letter, digits.length) ∈ numericEscapes →
      List.Forall₂ (fun digit value => (digit, value) ∈ hexadecimalDigits) digits values →
      Nat.ofDigits 16 values.reverse = character.toNat →
      Spells mark character ('\\' :: letter :: digits)

/-- The ways to write a value, one character after the other. -/
inductive Writing (mark : Char) : List Char → List Char → Prop where
  | done : Writing mark [] []
  | continued {value written : List Char} : Writing mark value written →
      Writing mark value ('\\' :: '\n' :: written)
  | next {character : Char} {spelled value written : List Char} :
      Spells mark character spelled → Writing mark value written →
      Writing mark (character :: value) (spelled ++ written)

/-! ### Reading characters -/

theorem unescapeFrom_skip (count : Nat) (text : List Char) :
    unescapeFrom count text = unescape (text.drop count) := by
  induction text generalizing count with
  | nil =>
      rw [List.drop_nil]
      cases count with
      | zero => rfl
      | succ count => rfl
  | cons character rest ih =>
      cases count with
      | zero => rfl
      | succ count =>
          rw [unescapeFrom, ih, List.drop_succ_cons]

theorem unescape_plain {character : Char} (other : character ≠ '\\') (rest : List Char) :
    unescape (character :: rest) = character :: unescape rest := by
  unfold unescape
  rw [unescapeFrom]
  exact other

theorem unescape_letter {letter character : Char} (listed : (letter, character) ∈ letterEscapes)
    (rest : List Char) : unescape ('\\' :: letter :: rest) = character :: unescape rest := by
  have table : ∀ pair ∈ letterEscapes,
      escapeWidth? pair.1 = none ∧ escapedCharacter? pair.1 = some pair.2 := by decide
  obtain ⟨single, stands⟩ := table _ listed
  rw [unescape, unescapeFrom, single, stands]
  exact congrArg (character :: ·) (unescapeFrom_skip 1 _)

theorem unescape_continued (rest : List Char) :
    unescape ('\\' :: '\n' :: rest) = unescape rest :=
  unescapeFrom_skip 1 _

theorem hexadecimalDigits_values {digits : List Char} {values : List Nat}
    (spelled : List.Forall₂ (fun digit value => (digit, value) ∈ hexadecimalDigits) digits values) :
    (∀ digit ∈ digits, isHexadecimal digit = true) ∧ digits.map hexadecimalValue = values := by
  have table : ∀ pair ∈ hexadecimalDigits,
      isHexadecimal pair.1 = true ∧ hexadecimalValue pair.1 = pair.2 := by decide
  induction spelled with
  | nil => exact ⟨fun digit member => absurd member List.not_mem_nil, rfl⟩
  | cons listed _later ih =>
      obtain ⟨hexadecimal, value⟩ := table _ listed
      refine ⟨List.forall_mem_cons.mpr ⟨hexadecimal, ih.1⟩, ?_⟩
      rw [List.map_cons, value, ih.2]

theorem hexadecimal_eq_ofDigits (digits : List Char) :
    hexadecimal digits = Nat.ofDigits 16 (digits.map hexadecimalValue).reverse := by
  rw [Nat.ofDigits_eq_foldr, List.foldr_reverse, List.foldl_map]
  unfold hexadecimal
  congr
  funext value digit
  exact Nat.add_comm _ _

theorem characterOfCode?_toNat (character : Char) :
    characterOfCode? character.toNat = some character := by
  have valid : character.toNat.isValidChar := character.valid
  unfold characterOfCode?
  rw [if_pos valid, Char.ofNat_toNat]

/-- Just the digits of a numeric escape are read, whatever stands behind them. -/
theorem unescape_code {letter character : Char} {digits : List Char}
    (listed : (letter, digits.length) ∈ numericEscapes)
    (hexadecimals : ∀ digit ∈ digits, isHexadecimal digit = true)
    (code : hexadecimal digits = character.toNat) (rest : List Char) :
    unescape ('\\' :: letter :: digits ++ rest) = character :: unescape rest := by
  have table : ∀ pair ∈ numericEscapes, escapeWidth? pair.1 = some pair.2 := by decide
  have found : ((digits ++ rest).take digits.length).takeWhile isHexadecimal = digits := by
    rw [List.take_left, List.takeWhile_eq_self_iff]
    exact hexadecimals
  have decoded : numericEscape letter digits.length digits = [character] := by
    unfold numericEscape
    rw [if_pos rfl, code, characterOfCode?_toNat]
  have after : (letter :: (digits ++ rest)).drop (1 + digits.length) = rest := by
    rw [Nat.add_comm, List.drop_succ_cons, List.drop_left]
  rw [List.cons_append, List.cons_append, unescape, unescapeFrom, table _ listed]
  show numericEscape letter digits.length _ ++ unescapeFrom _ _ = _
  rw [found, decoded, unescapeFrom_skip, after, List.singleton_append, unescape]

theorem Spells.unescape_append {mark character : Char} {spelled : List Char}
    (spells : Spells mark character spelled) (rest : List Char) :
    unescape (spelled ++ rest) = character :: unescape rest := by
  cases spells with
  | plain other _apart => exact unescape_plain other rest
  | letter listed => exact unescape_letter listed rest
  | code values listed digits code =>
      obtain ⟨hexadecimals, same⟩ := hexadecimalDigits_values digits
      rw [← same, ← hexadecimal_eq_ofDigits] at code
      exact unescape_code listed hexadecimals code rest

theorem Writing.unescape_eq {mark : Char} {value written : List Char}
    (writing : Writing mark value written) : unescape written = value := by
  induction writing with
  | done => rfl
  | continued _writing ih => rw [unescape_continued, ih]
  | next spells _writing ih => rw [spells.unescape_append, ih]

theorem Writing.head?_ne {mark : Char} (other : mark ≠ '\\') {value written : List Char}
    (writing : Writing mark value written) : written.head? ≠ some mark := by
  have escaped : some '\\' ≠ some mark := fun same => other (Option.some.inj same).symm
  cases writing with
  | done => exact nofun
  | continued _writing => exact escaped
  | next spells _writing =>
      cases spells with
      | plain _other apart => exact fun same => apart (Option.some.inj same)
      | letter _listed => exact escaped
      | code _values _listed _digits _code => exact escaped

/-! ### Finding the delimiter -/

theorem between?_of_other {quoted delimiter : List Char} (other : ¬ delimiter <+: quoted) :
    between? quoted delimiter = none := by
  have differs : delimiter.isPrefixOf quoted = false := by
    rw [← Bool.not_eq_true, List.isPrefixOf_iff_prefix]
    exact other
  unfold between?
  rw [differs, Bool.and_false, Bool.false_and, if_neg Bool.false_ne_true]

theorem between?_self {delimiter : List Char} (symmetric : delimiter.reverse = delimiter)
    (body : List Char) : between? (delimiter ++ body ++ delimiter) delimiter = some body := by
  have front : delimiter.isPrefixOf (delimiter ++ body ++ delimiter) = true := by
    rw [ List.isPrefixOf_iff_prefix, List.append_assoc]
    exact List.prefix_append _ _
  have back : delimiter.isPrefixOf (delimiter ++ body ++ delimiter).reverse = true := by
    rw [ List.isPrefixOf_iff_prefix, List.reverse_append, symmetric]
    exact List.prefix_append _ _
  have size : (delimiter ++ body ++ delimiter).length = body.length + 2 * delimiter.length := by
    rw [List.length_append, List.length_append]
    omega
  unfold between?
  rw [front, back, size, decide_eq_true (Nat.le_add_left _ _), if_pos (by rfl), Nat.add_sub_cancel,
    List.append_assoc, List.drop_left, List.take_left]

theorem not_triple_of_apart {mark : Char} {body : List Char} (apart : body.head? ≠ some mark) :
    ¬ [mark, mark, mark] <+: [mark] ++ body ++ [mark] := by
  cases body with
  | nil => simp
  | cons character rest =>
      have other : mark ≠ character := fun same => apart (congrArg some same.symm)
      simp [other]

/-- The longer delimiters are tried first; a body that does not begin with the mark does not make
one of them out of a shorter one. -/
theorem Delimiter.findSome?_between? (delimiter : Delimiter) {body : List Char}
    (apart : body.head? ≠ some delimiter.mark) :
    delimiters.findSome? (between? (delimiter.text ++ body ++ delimiter.text)) = some body := by
  have symmetric : delimiter.text.reverse = delimiter.text := by cases delimiter <;> rfl
  have found := between?_self symmetric body
  have first (before after : List (List Char))
      (order : delimiters = before ++ delimiter.text :: after)
      (others : ∀ other ∈ before, ¬ other <+: delimiter.text ++ body ++ delimiter.text) :
      delimiters.findSome? (between? (delimiter.text ++ body ++ delimiter.text)) = some body := by
    have passed : before.findSome? (between? (delimiter.text ++ body ++ delimiter.text)) = none :=
      List.findSome?_eq_none_iff.mpr fun other member => between?_of_other (others other member)
    rw [order, List.findSome?_append, passed, List.findSome?_cons, found]
    rfl
  cases delimiter with
  | tripleQuote => exact first [] _ rfl nofun
  | tripleApostrophe => exact first [['"', '"', '"']] _ rfl (by simp [text])
  | quote =>
      refine first [['"', '"', '"'], ['\'', '\'', '\'']] _ rfl ?_
      rw [List.forall_mem_cons]
      exact ⟨not_triple_of_apart apart, by simp [text]⟩
  | apostrophe =>
      refine first [['"', '"', '"'], ['\'', '\'', '\''], ['"']] _ rfl ?_
      rw [List.forall_mem_cons, List.forall_mem_cons]
      exact ⟨by simp [text], not_triple_of_apart apart, by simp [text]⟩

/-! ### Flags -/

theorem Delimiter.text_eq (delimiter : Delimiter) :
    ∃ marks, delimiter.text = delimiter.mark :: marks ∧
      delimiter.text.getLast? = some delimiter.mark := by
  cases delimiter <;> exact ⟨_, rfl, rfl⟩

theorem Delimiter.mark_cases (delimiter : Delimiter) :
    delimiter.mark = '"' ∨ delimiter.mark = '\'' := by
  cases delimiter with
  | quote | tripleQuote => exact Or.inl rfl
  | apostrophe | tripleApostrophe => exact Or.inr rfl

theorem Delimiter.mark_solid (delimiter : Delimiter) : Text.isBlank delimiter.mark = false := by
  cases delimiter <;> decide

/-- Flags hold neither of the characters that open a literal. -/
def Unquoted (flags : List Char) : Prop :=
  ∀ character ∈ flags, character ≠ '"' ∧ character ≠ '\''

instance (flags : List Char) : Decidable (Unquoted flags) :=
  List.decidableBAll _ flags

section Flags

variable (delimiter : Delimiter) (flags body : List Char)

/-- Only blanks in front of the flags are trimmed. -/
theorem Delimiter.trim_literal :
    Text.trim (delimiter.literal flags body) = delimiter.literal (Text.trimStart flags) body := by
  obtain ⟨marks, opening, closing⟩ := delimiter.text_eq
  have trimmed : Text.Trimmed (delimiter.literal (Text.trimStart flags) body) :=
    { first := by
        intro character found
        unfold literal at found
        rw [List.head?_append] at found
        cases kept : (Text.trimStart flags).head? with
        | none =>
            rw [kept, opening] at found
            cases found
            exact delimiter.mark_solid
        | some start =>
            rw [kept] at found
            cases found
            exact Text.first_trimStart flags character kept
      last := by
        intro character found
        unfold literal at found
        rw [List.getLast?_append, List.getLast?_append, closing] at found
        cases found
        exact delimiter.mark_solid }
  have frame : delimiter.literal flags body =
      flags.takeWhile Text.isBlank ++ delimiter.literal (Text.trimStart flags) body := by
    unfold literal Text.trimStart
    rw [← List.append_assoc (flags.takeWhile _), List.takeWhile_append_dropWhile]
  rw [frame]
  exact trimmed.trim_behind List.all_takeWhile

variable {flags}

theorem Delimiter.splitLiteral?_literal (unquoted : Unquoted flags) :
    splitLiteral? (delimiter.literal flags body) =
      (delimiters.findSome? (between? (delimiter.text ++ body ++ delimiter.text))).map
        fun body => (flags.map Char.toLower, body) := by
  have cut : (delimiter.literal flags body).takeWhile
      (fun character => !(character == '"' || character == '\'')) = flags := by
    obtain ⟨marks, opening, _closing⟩ := delimiter.text_eq
    unfold literal
    rw [List.takeWhile_append_of_pos, opening, List.cons_append, List.cons_append,
      List.takeWhile_cons_of_neg, List.append_nil]
    · rcases delimiter.mark_cases with quote | apostrophe
      · simp [quote]
      · simp [apostrophe]
    · intro character member
      simp [unquoted character member]
  dsimp only [splitLiteral?]
  rw [cut]
  unfold literal
  rw [List.drop_left]

theorem Unquoted.trimStart (unquoted : Unquoted flags) : Unquoted (Text.trimStart flags) :=
  fun character member => unquoted character ((List.dropWhile_sublist _).subset member)

theorem mem_trimStart {character : Char} (member : character ∈ flags)
    (solid : Text.isBlank character = false) : character ∈ Text.trimStart flags := by
  rw [← List.takeWhile_append_dropWhile (p := Text.isBlank) (l := flags), List.mem_append] at member
  rcases member with blank | kept
  · rw [List.all_eq_true.mp List.all_takeWhile character blank] at solid
    cases solid
  · exact kept

end Flags

/-- The value of a literal whose body does not begin with the mark of its delimiter. -/
theorem Delimiter.literalValue?_literal (delimiter : Delimiter) {flags body : List Char}
    (unquoted : Unquoted flags) (started : Text.trimStart flags = flags)
    (apart : body.head? ≠ some delimiter.mark) :
    literalValue? (delimiter.literal flags body) =
      if (flags.map Char.toLower).contains 'b' || (flags.map Char.toLower).contains 'f' then none
      else if (flags.map Char.toLower).contains 'r' then some body
      else some (unescape body) := by
  unfold literalValue?
  rw [delimiter.trim_literal, started, delimiter.splitLiteral?_literal body unquoted,
    delimiter.findSome?_between? apart]
  rfl

theorem Delimiter.literalValue?_bytes (delimiter : Delimiter) {flags : List Char}
    (body : List Char) (unquoted : Unquoted flags) {flag : Char} (member : flag ∈ flags)
    (kind : flag.toLower = 'b' ∨ flag.toLower = 'f') (solid : Text.isBlank flag = false) :
    literalValue? (delimiter.literal flags body) = none := by
  have kept : flag.toLower ∈ (Text.trimStart flags).map Char.toLower :=
    List.mem_map_of_mem (mem_trimStart member solid)
  have flagged : (((Text.trimStart flags).map Char.toLower).contains 'b' ||
      ((Text.trimStart flags).map Char.toLower).contains 'f') = true := by
    rw [Bool.or_eq_true, List.contains_iff_mem, List.contains_iff_mem]
    rcases kind with bytes | format
    · exact Or.inl (bytes ▸ kept)
    · exact Or.inr (format ▸ kept)
  unfold literalValue?
  rw [delimiter.trim_literal, delimiter.splitLiteral?_literal body unquoted.trimStart]
  cases delimiters.findSome? (between? (delimiter.text ++ body ++ delimiter.text)) with
  | none => rfl
  | some inner =>
      show (if _ then _ else _) = _
      rw [if_pos flagged]

/-! ### Values -/

/-- A literal has the value that is written in it, in any mixture of spellings.  In a raw literal
the body stands for itself, and bytes and format strings have no value. -/
theorem literalValue?_spelled (delimiter : Delimiter) :
    (∀ flags ∈ [[], ['u'], ['U']], ∀ value written, Writing delimiter.mark value written →
      literalValue? (delimiter.literal flags written) = some value) ∧
    (∀ flags ∈ [['r'], ['R']], ∀ body, delimiter.mark ∉ body →
      literalValue? (delimiter.literal flags body) = some body) ∧
    (∀ flags body, Unquoted flags → (∃ flag ∈ flags, flag ∈ ['b', 'B', 'f', 'F']) →
      literalValue? (delimiter.literal flags body) = none) := by
  refine ⟨?_, ?_, ?_⟩
  · intro flags listed value written writing
    have escape : delimiter.mark ≠ '\\' := by cases delimiter <;> decide
    have table : ∀ flags ∈ [[], ['u'], ['U']], Unquoted flags ∧ Text.trimStart flags = flags ∧
        (flags.map Char.toLower).contains 'b' = false ∧
        (flags.map Char.toLower).contains 'f' = false ∧
        (flags.map Char.toLower).contains 'r' = false := by decide
    obtain ⟨unquoted, started, bytes, format, raw⟩ := table flags listed
    rw [delimiter.literalValue?_literal unquoted started (writing.head?_ne escape), bytes, format,
      raw, writing.unescape_eq]
    rfl
  · intro flags listed body absent
    have table : ∀ flags ∈ [['r'], ['R']], Unquoted flags ∧ Text.trimStart flags = flags ∧
        (flags.map Char.toLower).contains 'b' = false ∧
        (flags.map Char.toLower).contains 'f' = false ∧
        (flags.map Char.toLower).contains 'r' = true := by decide
    obtain ⟨unquoted, started, bytes, format, raw⟩ := table flags listed
    have apart : body.head? ≠ some delimiter.mark :=
      fun first => absent (List.mem_of_head? first)
    rw [delimiter.literalValue?_literal unquoted started apart, bytes, format, raw]
    rfl
  · rintro flags body unquoted ⟨flag, member, listed⟩
    have table : ∀ flag ∈ ['b', 'B', 'f', 'F'],
        (flag.toLower = 'b' ∨ flag.toLower = 'f') ∧ Text.isBlank flag = false := by
      simp only [List.mem_cons, List.not_mem_nil, or_false, forall_eq_or_imp, forall_eq]
      decide
    obtain ⟨kind, solid⟩ := table flag listed
    exact delimiter.literalValue?_bytes body unquoted member kind solid

theorem literalValue?_spelled_mixture :
    literalValue? "u'\\x4A\\\n0\"\\u00e9\\'\\U0001F40d\\v'".toList = some "J0\"é'🐍\x0b".toList ∧
      literalValue? "R\"\"\"\\x4A'\\\"\"\"".toList = some "\\x4A'\\".toList ∧
      literalValue? " rB'\\x4A'".toList = none := by
  have byte : Spells '\'' 'J' "\\x4A".toList := .code [4, 10] (by decide) (by decide) (by decide)
  have unit : Spells '\'' 'é' "\\u00e9".toList :=
    .code [0, 0, 14, 9] (by decide) (by decide) (by decide)
  have wide : Spells '\'' '🐍' "\\U0001F40d".toList :=
    .code [0, 0, 0, 1, 15, 4, 0, 13] (by decide) (by decide) (by decide)
  have written : Writing '\'' "J0\"é'🐍\x0b".toList
      "\\x4A\\\n0\"\\u00e9\\'\\U0001F40d\\v".toList :=
    .next byte <| .continued <| .next (.plain (by decide) (by decide)) <|
      .next (.plain (by decide) (by decide)) <| .next unit <| .next (.letter (by decide)) <|
      .next wide <| .next (.letter (by decide)) .done
  have mixed : "u'\\x4A\\\n0\"\\u00e9\\'\\U0001F40d\\v'".toList =
      Delimiter.apostrophe.literal ['u'] "\\x4A\\\n0\"\\u00e9\\'\\U0001F40d\\v".toList := by decide
  have raw : "R\"\"\"\\x4A'\\\"\"\"".toList =
      Delimiter.tripleQuote.literal ['R'] "\\x4A'\\".toList := by decide
  have bytes : " rB'\\x4A'".toList =
      Delimiter.apostrophe.literal [' ', 'r', 'B'] "\\x4A".toList := by decide
  rw [mixed, raw, bytes]
  exact ⟨(literalValue?_spelled .apostrophe).1 ['u'] (by decide) _ _ written,
    (literalValue?_spelled .tripleQuote).2.1 ['R'] (by decide) _ (by decide),
    (literalValue?_spelled .apostrophe).2.2 [' ', 'r', 'B'] _ (by decide)
      ⟨'B', by decide, by decide⟩⟩

end DocHarvest.Extract
