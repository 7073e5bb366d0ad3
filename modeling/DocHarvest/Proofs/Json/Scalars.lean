import DocHarvest.Json.Value
import DocHarvest.Json.Reader
import DocHarvest.Json.Writer

/-!
Strings and numbers come back from their text.

A character is read from its escape, or from itself, whatever stands behind it.  A number ends
where its digits end, so that what follows must not be able to carry it on.
-/

namespace DocHarvest.Json

/-! ### Strings -/

private theorem readContent_simple {letter character : Char}
    (known : simpleEscape? letter = some character) (rest : List Char) :
    readContent ('\\' :: letter :: rest) = push character (readContent rest) := by
  have other : letter ≠ 'u' := by
    rintro rfl
    cases known
  rw [readContent.eq_5 _ _ (fun _ _ _ _ _ _ _ _ _ equal => absurd equal other)
    (fun _ _ _ _ _ equal => absurd equal other), known]

private theorem readContent_plain {character : Char} (visible : 32 ≤ character.toNat)
    (noQuote : character ≠ '"') (noBackslash : character ≠ '\\') (rest : List Char) :
    readContent (character :: rest) = push character (readContent rest) := by
  rw [readContent.eq_6 _ _ noQuote
    (fun _ _ _ _ _ _ _ _ _ equal => absurd equal noBackslash)
    (fun _ _ _ _ _ equal => absurd equal noBackslash)
    (fun _ _ equal => absurd equal noBackslash)]
  simp [Nat.not_lt.mpr visible, noBackslash]

private theorem readContent_badUnit {a b c d : Char} (bad : hexUnit? a b c d = none)
    (rest : List Char) : readContent ('\\' :: 'u' :: a :: b :: c :: d :: rest) = none := by
  by_cases another : ∃ e f g h more, rest = '\\' :: 'u' :: e :: f :: g :: h :: more
  · obtain ⟨e, f, g, h, more, rfl⟩ := another
    rw [readContent.eq_3, bad]
  · rw [readContent.eq_4 _ _ _ _ _
      (fun e f g h more equal => another ⟨e, f, g, h, more, equal⟩), bad]

/-- An escaped unit that is no surrogate is a character, also before another escaped unit. -/
private theorem readContent_unit {a b c d : Char} {unit : Nat}
    (known : hexUnit? a b c d = some unit) (noHigh : isHighSurrogate unit = false)
    (noLow : isLowSurrogate unit = false) (rest : List Char) :
    readContent ('\\' :: 'u' :: a :: b :: c :: d :: rest) =
      push (Char.ofNat unit) (readContent rest) := by
  -- the reader looks at the next unit too, which it needs for surrogates only
  by_cases another : ∃ e f g h more, rest = '\\' :: 'u' :: e :: f :: g :: h :: more
  · obtain ⟨e, f, g, h, more, rfl⟩ := another
    rw [readContent.eq_3, known]
    cases next : hexUnit? e f g h with
    | none =>
        rw [readContent_badUnit next]
        rfl
    | some unit' => simp [noHigh, noLow]
  · rw [readContent.eq_4 _ _ _ _ _
      (fun e f g h more equal => another ⟨e, f, g, h, more, equal⟩), known]
    simp [noHigh, noLow]

private theorem hexValue?_hexDigit : ∀ value < 16, hexValue? (hexDigit value) = some value := by
  decide

private theorem hexUnit?_control {code : Nat} (control : code < 32) :
    hexUnit? '0' '0' (hexDigit (code / 16)) (hexDigit (code % 16)) = some code := by
  have high := hexValue?_hexDigit (code / 16) (by omega)
  have low := hexValue?_hexDigit (code % 16) (by omega)
  have zero : hexValue? '0' = some 0 := rfl
  simp only [hexUnit?, zero, high, low, Option.bind_eq_bind, Option.bind_some]
  congr 1
  omega

theorem readContent_writeCharacter (character : Char) (rest : List Char) :
    readContent (writeCharacter character ++ rest) = push character (readContent rest) := by
  unfold writeCharacter
  split
  case h_8 noQuote noBackslash _ _ _ _ _ =>
    split
    case isTrue control =>
      have unit := hexUnit?_control control
      have noHigh : isHighSurrogate character.toNat = false := by
        simp only [isHighSurrogate, Bool.and_eq_false_iff, decide_eq_false_iff_not]
        omega
      have noLow : isLowSurrogate character.toNat = false := by
        simp only [isLowSurrogate, Bool.and_eq_false_iff, decide_eq_false_iff_not]
        omega
      have read := readContent_unit unit noHigh noLow rest
      rwa [Char.ofNat_toNat] at read
    case isFalse visible =>
      exact readContent_plain (Nat.not_lt.mp visible) noQuote noBackslash rest
  all_goals exact readContent_simple rfl rest

/-- A string is read up to the quote that ends it. -/
theorem readContent_writeString (characters rest : List Char) :
    readContent (characters.flatMap writeCharacter ++ '"' :: rest) =
      some (some characters, rest) := by
  induction characters with
  | nil => exact readContent.eq_2 rest
  | cons character characters ih =>
      rw [List.flatMap_cons, List.append_assoc, readContent_writeCharacter, ih]
      rfl

/-! ### Numbers -/

/-- A text that cannot carry on a number before it. -/
def EndsNumber (rest : List Char) : Prop :=
  ∀ character ∈ rest.head?,
    character.isDigit = false ∧ character ≠ '.' ∧ character ≠ 'e' ∧ character ≠ 'E'

theorem endsNumber_nil : EndsNumber [] := by
  intro character member
  cases member

private theorem takeDigits_append {digits rest : List Char} (some : digits ≠ [])
    (allDigits : ∀ digit ∈ digits, digit.isDigit) (ended : EndsNumber rest) :
    takeDigits (digits ++ rest) = .some (digits, rest) := by
  have noDigit : rest.takeWhile Char.isDigit = [] ∧ rest.dropWhile Char.isDigit = rest := by
    cases rest with
    | nil => exact ⟨rfl, rfl⟩
    | cons character rest => simp [(ended character rfl).1]
  have front : (digits ++ rest).takeWhile Char.isDigit = digits := by
    rw [List.takeWhile_append_of_pos allDigits, noDigit.1, List.append_nil]
  have back : (digits ++ rest).dropWhile Char.isDigit = rest := by
    rw [List.dropWhile_append_of_pos allDigits, noDigit.2]
  unfold takeDigits
  rw [front, back]
  simp [some]

private theorem toDigits_isDigit (value : Nat) :
    ∀ digit ∈ Nat.toDigits 10 value, digit.isDigit :=
  fun _ member => Nat.isDigit_of_mem_toDigits (by decide) (by decide) member

theorem toDigits_eq_cons (value : Nat) :
    ∃ digit digits, Nat.toDigits 10 value = digit :: digits ∧ digit.isDigit = true := by
  obtain ⟨digit, digits, split⟩ :=
    List.exists_cons_of_ne_nil (Nat.toDigits_ne_nil (n := value) (b := 10))
  have member : digit ∈ Nat.toDigits 10 value := by
    rw [split]
    exact List.mem_cons_self
  exact ⟨digit, digits, split, toDigits_isDigit value digit member⟩

/-- Only zero is written with a zero in front. -/
private theorem head?_toDigits_ne_zero (value : Nat) (positive : 0 < value) :
    (Nat.toDigits 10 value).head? ≠ some '0' := by
  induction value using Nat.strongRecOn with
  | ind value ih =>
      by_cases small : value < 10
      · have digit : ∀ digit < 10, 0 < digit → [Nat.digitChar digit].head? ≠ some '0' := by
          decide
        rw [Nat.toDigits_of_lt_base small]
        exact digit value small positive
      · have front := ih (value / 10) (by omega) (by omega)
        obtain ⟨digit, digits, split, _⟩ := toDigits_eq_cons (value / 10)
        rw [Nat.toDigits_of_base_le (by decide) (Nat.not_lt.mp small)]
        rw [split] at front ⊢
        exact front

private theorem readWhole_toDigits (value : Nat) {rest : List Char} (ended : EndsNumber rest) :
    readWhole (Nat.toDigits 10 value ++ rest) = some (Nat.toDigits 10 value, rest) := by
  rcases Nat.eq_zero_or_pos value with rfl | positive
  · rfl
  · rw [readWhole.eq_2]
    · exact takeDigits_append Nat.toDigits_ne_nil (toDigits_isDigit value) ended
    · intro behind equal
      have head := head?_toDigits_ne_zero value positive
      obtain ⟨digit, digits, split, _⟩ := toDigits_eq_cons value
      rw [split, List.cons_append] at equal
      rw [split, (List.cons.inj equal).1] at head
      exact head rfl

private theorem readFraction_none {rest : List Char} (ended : EndsNumber rest) :
    readFraction rest = some ([], rest) := by
  rw [readFraction.eq_2]
  rintro behind rfl
  exact (ended '.' rfl).2.1 rfl

private theorem readExponent_none {rest : List Char} (ended : EndsNumber rest) :
    readExponent rest = some ([], rest) := by
  cases rest with
  | nil => rfl
  | cons character rest =>
      obtain ⟨_, _, noSmall, noCapital⟩ := ended character rfl
      simp [readExponent, noSmall, noCapital]

theorem readNumber_toDigits (value : Nat) {rest : List Char} (ended : EndsNumber rest) :
    readNumber (Nat.toDigits 10 value ++ rest) = some (Nat.toDigits 10 value, rest) := by
  have whole := readWhole_toDigits value ended
  obtain ⟨digit, digits, split, isDigit⟩ := toDigits_eq_cons value
  have noSign : digit ≠ '-' := by
    rintro rfl
    exact absurd isDigit (by decide)
  rw [split, List.cons_append] at whole ⊢
  simp [readNumber, noSign, whole, readFraction_none ended, readExponent_none ended]

private theorem digitsValue_toDigits (value : Nat) :
    digitsValue (Nat.toDigits 10 value) = value := by
  have back := Nat.ofDigitChars_ten_toDigits (n := value)
  rwa [Nat.ofDigitChars_eq_foldl] at back

theorem count?_ofNat {value : Nat} (small : value < countLimit) :
    count? (ofNat value) = some value := by
  have allDigits : (Nat.toDigits 10 value).all Char.isDigit = true :=
    List.all_eq_true.mpr (toDigits_isDigit value)
  simp [count?, ofNat, digitsValue_toDigits, allDigits, small]

end DocHarvest.Json
