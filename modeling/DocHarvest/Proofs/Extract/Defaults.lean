import Mathlib.Data.List.Forall2
import DocHarvest.Proofs.Extract.Literals
import DocHarvest.Proofs.Extract.Signatures

/-!
Strings as default values.

A default value that is a string is rendered as its value between apostrophes, character for
character.  The result is a literal of that same value exactly if the value is verbatim: it holds no
apostrophe and no line end, and no backslash in it begins an escape.
-/

namespace DocHarvest.Extract

open Program (Kind Tree)

/-! ### Literals -/

/-- Whether a line end may stand between two delimiters. -/
def Delimiter.spansLines : Delimiter → Bool
  | .quote | .apostrophe => false
  | .tripleQuote | .tripleApostrophe => true

/-- What follows an opening delimiter, up to the end of the literal: the first delimiter that no
backslash takes along closes it. -/
inductive Delimiter.Ends (delimiter : Delimiter) : List Char → Prop where
  | close : Ends delimiter delimiter.text
  | escaped {character : Char} {rest : List Char} : Ends delimiter rest →
      Ends delimiter ('\\' :: character :: rest)
  | plain {character : Char} {rest : List Char} : character ≠ '\\' →
      (character = '\n' → delimiter.spansLines = true) →
      ¬ delimiter.text <+: character :: rest → Ends delimiter rest →
      Ends delimiter (character :: rest)

/-- A text that is one literal without flags. -/
def IsLiteral (text : List Char) : Prop :=
  ∃ (delimiter : Delimiter) (rest : List Char), text = delimiter.text ++ rest ∧ delimiter.Ends rest

theorem Delimiter.Ends.exists_body {delimiter : Delimiter} {rest : List Char}
    (ends : delimiter.Ends rest) : ∃ body, rest = body ++ delimiter.text := by
  induction ends with
  | close => exact ⟨[], rfl⟩
  | @escaped character rest _later ih =>
      obtain ⟨body, same⟩ := ih
      exact ⟨'\\' :: character :: body, by rw [same]; rfl⟩
  | @plain character rest _other _line _open _later ih =>
      obtain ⟨body, same⟩ := ih
      exact ⟨character :: body, by rw [same]; rfl⟩

/-! ### Escapes -/

/-- A backslash in front of such a text begins no escape. -/
def Idle (letter : Char) (rest : List Char) : Prop :=
  letter ≠ '\n' ∧
    ∀ character spelled, Spells '\'' character spelled → ¬ spelled <+: '\\' :: letter :: rest

/-- Values that stand for themselves between apostrophes. -/
inductive Verbatim : List Char → Prop where
  | done : Verbatim []
  | plain {character : Char} {rest : List Char} : character ≠ '\\' → character ≠ '\'' →
      character ≠ '\n' → Verbatim rest → Verbatim (character :: rest)
  | idle {letter : Char} {rest : List Char} : Idle letter rest → Verbatim rest →
      Verbatim ('\\' :: letter :: rest)

theorem mem_letterEscapes {letter character : Char}
    (escaped : escapedCharacter? letter = some character) :
    (letter, character) ∈ letterEscapes := by
  unfold escapedCharacter? at escaped
  split at escaped
  all_goals
    cases escaped
    try decide

theorem mem_numericEscapes {letter : Char} {width : Nat} (escape : escapeWidth? letter = some width) :
    (letter, width) ∈ numericEscapes := by
  unfold escapeWidth? at escape
  split at escape
  all_goals
    cases escape
    try decide

theorem mem_hexadecimalDigits {digit : Char} (hexadecimal : isHexadecimal digit = true) :
    (digit, hexadecimalValue digit) ∈ hexadecimalDigits := by
  have table : ∀ code < 128, isHexadecimal (Char.ofNat code) = true →
      (Char.ofNat code, hexadecimalValue (Char.ofNat code)) ∈ hexadecimalDigits := by decide
  have small : digit.toNat < 128 := by
    unfold isHexadecimal Char.isDigit at hexadecimal
    simp only [Bool.or_eq_true, Bool.and_eq_true, decide_eq_true_eq, Char.le_def,
      UInt32.le_iff_toNat_le] at hexadecimal
    show digit.val.toNat < 128
    have bounds : '9'.val.toNat = 57 ∧ 'f'.val.toNat = 102 ∧ 'F'.val.toNat = 70 := by decide
    omega
  have found := table digit.toNat small
  rw [Char.ofNat_toNat] at found
  exact found hexadecimal

theorem toNat_of_characterOfCode? {code : Nat} {character : Char}
    (decoded : characterOfCode? code = some character) : code = character.toNat := by
  unfold characterOfCode? at decoded
  by_cases valid : code.isValidChar
  · rw [if_pos valid] at decoded
    obtain rfl := Option.some.inj decoded
    unfold Char.ofNat
    rw [dif_pos valid]
    rfl
  · rw [if_neg valid] at decoded
    cases decoded

theorem Spells.of_code {mark letter character : Char} {digits : List Char}
    (listed : (letter, digits.length) ∈ numericEscapes)
    (hexadecimals : ∀ digit ∈ digits, isHexadecimal digit = true)
    (code : hexadecimal digits = character.toNat) :
    Spells mark character ('\\' :: letter :: digits) := by
  apply Spells.code (digits.map hexadecimalValue) listed
  · rw [List.forall₂_map_right_iff, List.forall₂_same]
    intro digit member
    exact mem_hexadecimalDigits (hexadecimals digit member)
  · rw [← hexadecimal_eq_ofDigits, code]

theorem unescape_append_plain {front : List Char} (plain : ∀ character ∈ front, character ≠ '\\')
    (rest : List Char) : unescape (front ++ rest) = front ++ unescape rest := by
  induction front with
  | nil => rfl
  | cons character front ih =>
      rw [List.forall_mem_cons] at plain
      rw [List.cons_append, unescape_plain plain.1, ih plain.2, List.cons_append]

theorem digits_prefix (width : Nat) (rest : List Char) :
    (rest.take width).takeWhile isHexadecimal <+: rest :=
  (List.takeWhile_prefix _).trans (List.take_prefix _ _)

theorem numericEscape_idle {letter : Char} {rest : List Char} (idle : Idle letter rest) {width : Nat}
    (escape : escapeWidth? letter = some width) :
    numericEscape letter width ((rest.take width).takeWhile isHexadecimal) =
      '\\' :: letter :: (rest.take width).takeWhile isHexadecimal := by
  have front := digits_prefix width rest
  generalize read : (rest.take width).takeWhile isHexadecimal = digits at front ⊢
  have hexadecimals : ∀ digit ∈ digits, isHexadecimal digit = true := by
    rw [← read]
    exact List.all_eq_true.mp List.all_takeWhile
  have undecoded (full : digits.length = width) : characterOfCode? (hexadecimal digits) = none := by
    cases decoded : characterOfCode? (hexadecimal digits) with
    | none => rfl
    | some character =>
        have listed : (letter, digits.length) ∈ numericEscapes := full ▸ mem_numericEscapes escape
        have spells : Spells '\'' character ('\\' :: letter :: digits) :=
          .of_code listed hexadecimals (toNat_of_characterOfCode? decoded)
        refine absurd ?_ (idle.2 character _ spells)
        rw [List.cons_prefix_cons, List.cons_prefix_cons]
        exact ⟨rfl, rfl, front⟩
  unfold numericEscape
  by_cases full : digits.length = width
  · rw [if_pos full, undecoded full]
  · rw [if_neg full]

/-- An idle backslash is kept, with what follows it. -/
theorem unescape_idle {letter : Char} {rest : List Char} (idle : Idle letter rest) :
    unescape ('\\' :: letter :: rest) = '\\' :: letter :: unescape rest := by
  rw [unescape, unescapeFrom]
  cases escape : escapeWidth? letter with
  | some width =>
      show numericEscape letter width _ ++ unescapeFrom _ _ = _
      rw [numericEscape_idle idle escape]
      obtain ⟨after, split⟩ := digits_prefix width rest
      generalize read : (rest.take width).takeWhile isHexadecimal = digits at split ⊢
      have plain : ∀ digit ∈ digits, digit ≠ '\\' := by
        intro digit member same
        rw [← read, same] at member
        have hexadecimal := List.all_eq_true.mp List.all_takeWhile _ member
        revert hexadecimal
        decide
      rw [← split, unescape_append_plain plain, unescapeFrom_skip, Nat.add_comm,
        List.drop_succ_cons, List.drop_left]
      rfl
  | none =>
      cases escaped : escapedCharacter? letter with
      | some character =>
          have spells : Spells '\'' character ['\\', letter] := .letter (mem_letterEscapes escaped)
          refine absurd ?_ (idle.2 character _ spells)
          exact ⟨rest, rfl⟩
      | none =>
          show (if letter = '\n' then _ else '\\' :: letter :: unescapeFrom 1 _) = _
          rw [if_neg idle.1, unescapeFrom_skip, List.drop_succ_cons, List.drop_zero]

theorem exists_spells_of_not_idle {letter : Char} {rest : List Char} (other : letter ≠ '\n')
    (busy : ¬ Idle letter rest) :
    ∃ character spelled after, Spells '\'' character spelled ∧
      '\\' :: letter :: rest = spelled ++ after := by
  unfold Idle at busy
  push Not at busy
  obtain ⟨character, spelled, spells, after, same⟩ := busy other
  exact ⟨character, spelled, after, spells, same.symm⟩

theorem Spells.two_le_length {mark letter character : Char} {spelled rest after : List Char}
    (spells : Spells mark character spelled) (same : '\\' :: letter :: rest = spelled ++ after) :
    2 ≤ spelled.length := by
  cases spells with
  | plain other _apart =>
      obtain ⟨escape, _rest⟩ := List.cons.inj same
      exact absurd escape.symm other
  | letter _listed => exact Nat.le_refl 2
  | code _values _listed _digits _code =>
      rw [List.length_cons, List.length_cons]
      omega

/-- A value is never longer than its spelling. -/
theorem length_unescape_le (text : List Char) : (unescape text).length ≤ text.length := by
  induction size : text.length using Nat.strong_induction_on generalizing text with
  | h count ih =>
      subst size
      cases text with
      | nil => exact Nat.le_refl 0
      | cons character rest =>
          by_cases escape : character = '\\'
          · subst escape
            cases rest with
            | nil => exact Nat.le_refl 1
            | cons letter rest =>
                have shorter := ih rest.length (by simp only [List.length_cons]; omega) rest rfl
                by_cases continued : letter = '\n'
                · subst continued
                  rw [unescape_continued, List.length_cons, List.length_cons]
                  omega
                · by_cases idle : Idle letter rest
                  · rw [unescape_idle idle]
                    simp only [List.length_cons]
                    omega
                  · obtain ⟨value, spelled, after, spells, same⟩ :=
                      exists_spells_of_not_idle continued idle
                    have long := spells.two_le_length same
                    have whole := congrArg List.length same
                    rw [List.length_append] at whole
                    have behind := ih after.length (by omega) after rfl
                    rw [same, spells.unescape_append, List.length_cons, List.length_append]
                    omega
          · have shorter := ih rest.length (by simp only [List.length_cons]; omega) rest rfl
            rw [unescape_plain escape, List.length_cons, List.length_cons]
            omega

/-! ### Values between apostrophes -/

theorem Verbatim.unescape_eq {value : List Char} (verbatim : Verbatim value) :
    unescape value = value := by
  induction verbatim with
  | done => rfl
  | plain other _apart _line _later ih => rw [unescape_plain other, ih]
  | idle idle _later ih => rw [unescape_idle idle, ih]

theorem Verbatim.head?_ne {value : List Char} (verbatim : Verbatim value) :
    value.head? ≠ some '\'' := by
  cases verbatim with
  | done => exact nofun
  | plain _other apart _line _later => exact fun same => apart (Option.some.inj same)
  | idle _idle _later =>
      intro same
      exact absurd (Option.some.inj same) (by decide)

theorem Verbatim.ends {value : List Char} (verbatim : Verbatim value) :
    Delimiter.apostrophe.Ends (value ++ ['\'']) := by
  induction verbatim with
  | done => exact .close
  | @plain character rest other apart line _later ih =>
      refine .plain other (fun same => absurd same line) ?_ ih
      show ¬ ['\''] <+: character :: _
      rw [List.cons_prefix_cons]
      exact fun same => apart same.1.symm
  | idle _idle _later ih => exact .escaped ih

/-- What is spelled shorter than it is written does not stand for itself. -/
theorem idle_of_unescape_eq {letter : Char} {rest : List Char}
    (same : unescape ('\\' :: letter :: rest) = '\\' :: letter :: rest) : Idle letter rest := by
  have size := congrArg List.length same
  refine ⟨?_, ?_⟩
  · intro continued
    subst continued
    have shorter := length_unescape_le rest
    rw [unescape_continued, List.length_cons, List.length_cons] at size
    omega
  · intro character spelled spells front
    obtain ⟨after, split⟩ := front
    have long := spells.two_le_length split.symm
    have shorter := length_unescape_le after
    rw [← split, spells.unescape_append, List.length_cons, List.length_append] at size
    omega

theorem verbatim_of_ends {rest : List Char} (ends : Delimiter.apostrophe.Ends rest)
    {value : List Char} (whole : rest = value ++ ['\'']) (same : unescape value = value) :
    Verbatim value := by
  induction ends generalizing value with
  | close =>
      have none : value = [] := by
        cases value with
        | nil => rfl
        | cons character value =>
            have size := congrArg List.length whole
            simp [Delimiter.text] at size
      rw [none]
      exact .done
  | @escaped character rest later ih =>
      cases value with
      | nil => cases whole
      | cons first value =>
          obtain ⟨rfl, next⟩ := List.cons.inj whole
          cases value with
          | nil =>
              -- a lone backslash takes the closing apostrophe along
              obtain ⟨_character, nothing⟩ := List.cons.inj next
              rw [nothing] at later
              obtain ⟨body, closing⟩ := later.exists_body
              exact absurd closing (by simp [Delimiter.text])
          | cons letter value =>
              obtain ⟨rfl, behind⟩ := List.cons.inj next
              have idle := idle_of_unescape_eq same
              rw [unescape_idle idle] at same
              exact .idle idle (ih behind (List.cons.inj (List.cons.inj same).2).2)
  | @plain character rest other line opens _later ih =>
      have apart : character ≠ '\'' := by
        intro mark
        subst mark
        exact opens (List.cons_prefix_cons.mpr ⟨rfl, List.nil_prefix⟩)
      cases value with
      | nil => exact absurd (List.cons.inj whole).1 apart
      | cons first value =>
          obtain ⟨rfl, behind⟩ := List.cons.inj whole
          rw [unescape_plain other] at same
          refine .plain other apart ?_ (ih behind (List.cons.inj same).2)
          intro lineEnd
          cases line lineEnd

/-- Three apostrophes are taken for the delimiter before a single one is. -/
theorem literalValue?_tripleApostrophe (body : List Char) :
    literalValue? (Delimiter.tripleApostrophe.literal [] body) = some (unescape body) := by
  have other : between? (Delimiter.tripleApostrophe.text ++ body ++ Delimiter.tripleApostrophe.text)
      ['"', '"', '"'] = none := between?_of_other (by simp [Delimiter.text])
  have found := @between?_self Delimiter.tripleApostrophe.text rfl body
  have first : delimiters.findSome? (between? (Delimiter.tripleApostrophe.text ++ body ++
      Delimiter.tripleApostrophe.text)) = some body := by
    unfold delimiters
    rw [List.findSome?_cons, other]
    show List.findSome? _ (Delimiter.tripleApostrophe.text :: _) = _
    rw [List.findSome?_cons, found]
  unfold literalValue?
  rw [Delimiter.trim_literal, Text.trimStart, List.dropWhile_nil,
    Delimiter.splitLiteral?_literal _ _ (fun _ member => absurd member List.not_mem_nil), first]
  rfl

theorem literalValue?_apostrophe {body : List Char} (apart : body.head? ≠ some '\'') :
    literalValue? (Delimiter.apostrophe.literal [] body) = some (unescape body) :=
  Delimiter.apostrophe.literalValue?_literal (fun _ member => absurd member List.not_mem_nil) rfl
    apart

theorem Delimiter.Ends.head?_ne {value : List Char}
    (ends : Delimiter.apostrophe.Ends (value ++ ['\''])) : value.head? ≠ some '\'' := by
  intro first
  obtain ⟨rest, rfl⟩ := List.head?_eq_some_iff.mp first
  generalize whole : '\'' :: rest ++ ['\''] = text at ends
  cases ends with
  | close =>
      have size := congrArg List.length whole
      simp [Delimiter.text] at size
  | escaped _later => exact absurd (List.cons.inj whole).1 (by decide)
  | plain _other _line opens _later =>
      rw [← whole] at opens
      exact opens (List.cons_prefix_cons.mpr ⟨rfl, List.nil_prefix⟩)

theorem reads_back_iff (value : List Char) :
    IsLiteral ('\'' :: value ++ ['\'']) ∧ literalValue? ('\'' :: value ++ ['\'']) = some value ↔
      Verbatim value := by
  constructor
  · intro ⟨⟨delimiter, rest, split, ends⟩, same⟩
    cases delimiter with
    | quote => cases split
    | tripleQuote => cases split
    | apostrophe =>
        have behind : value ++ ['\''] = rest := (List.cons.inj split).2
        rw [← behind] at ends
        have spelled := literalValue?_apostrophe ends.head?_ne
        exact verbatim_of_ends ends rfl (Option.some.inj (spelled.symm.trans same))
    | tripleApostrophe =>
        obtain ⟨body, closing⟩ := ends.exists_body
        have written : '\'' :: value ++ ['\''] = Delimiter.tripleApostrophe.literal [] body := by
          rw [split, closing, ← List.append_assoc]
          rfl
        have spelled := literalValue?_tripleApostrophe body
        rw [← written, same] at spelled
        have shorter := length_unescape_le body
        rw [← Option.some.inj spelled] at shorter
        have size := congrArg List.length written
        simp [Delimiter.literal, Delimiter.text] at size
        omega
  · intro verbatim
    refine ⟨⟨.apostrophe, value ++ ['\''], rfl, verbatim.ends⟩, ?_⟩
    have spelled := literalValue?_apostrophe verbatim.head?_ne
    rw [verbatim.unescape_eq] at spelled
    exact spelled

/-- The rendering of a string is a literal of the same value exactly if that value is verbatim. -/
theorem defaultText_reads_back {tree : Tree}
    (kind : tree.kind = .string ∨ tree.kind = .concatenatedString) {value : List Char}
    (valued : stringValue? tree = some value) :
    IsLiteral (defaultText tree) ∧ literalValue? (defaultText tree) = some value ↔
      Verbatim value := by
  rw [defaultText_string kind valued]
  exact reads_back_iff value

/-- The strings `'it'` and `r'\d'` in a row. -/
def pattern : Tree :=
  .node none .concatenatedString [bareLeaf .string "'it'", bareLeaf .string "r'\\d'"]

theorem defaultText_reads_back_pattern :
    pattern.kind = .concatenatedString ∧ stringValue? pattern = some "it\\d".toList ∧
      IsLiteral (defaultText pattern) ∧
      literalValue? (defaultText pattern) = some "it\\d".toList := by
  have valued : stringValue? pattern = some "it\\d".toList := by decide
  have verbatim : Verbatim "it\\d".toList := by
    apply Verbatim.plain (by decide) (by decide) (by decide)
    apply Verbatim.plain (by decide) (by decide) (by decide)
    exact .idle (idle_of_unescape_eq (by decide)) .done
  exact ⟨rfl, valued, (defaultText_reads_back (Or.inr rfl) valued).mpr verbatim⟩

/-- A backslash and the letter `n` are rendered as the escape for a line end. -/
theorem rendered_backslash_misread :
    stringValue? (bareLeaf .string "'\\\\n'") = some ['\\', 'n'] ∧
      defaultText (bareLeaf .string "'\\\\n'") = ['\'', '\\', 'n', '\''] ∧
      literalValue? (defaultText (bareLeaf .string "'\\\\n'")) = some ['\n'] := by
  decide

end DocHarvest.Extract
