import Mathlib.Data.List.DropRight
import DocHarvest.Proofs.Json.Scalars

/-!
Values come back from their text.

Both layouts put the parts of an array or object between commas, with blanks before each part and
before the closing bracket.  Reading passes over the blanks, so one argument covers both.
-/

namespace DocHarvest.Json

/-- A value that is made of texts and counts. -/
inductive Plain : Json → Prop
  | null : Plain .null
  | bool (value : Bool) : Plain (.bool value)
  | count (value : Nat) : Plain (.number (Nat.toDigits 10 value))
  | string (text : String) : Plain (.string text)
  | array {items : List Json} (plain : ∀ item ∈ items, Plain item) : Plain (.array items)
  | object {members : List (String × Json)} (plain : ∀ member ∈ members, Plain member.2) :
      Plain (.object members)

attribute [simp] Plain.bool Plain.string

/-! ### Blanks -/

/-- Nothing but blanks. -/
def Blank (text : List Char) : Prop := ∀ character ∈ text, isSpace character = true

theorem blank_nil : Blank [] := by
  intro character member
  cases member

theorem blank_space : Blank [' '] := by
  intro character member
  rw [List.mem_singleton.mp member]
  rfl

theorem blank_lineAt (level : Nat) : Blank (lineAt level) := by
  intro character member
  rcases List.mem_cons.mp member with rfl | member
  · rfl
  · rw [List.eq_of_mem_replicate member]
    rfl

private theorem skipSpaces_blank {blanks : List Char} (blank : Blank blanks) (text : List Char) :
    skipSpaces (blanks ++ text) = skipSpaces text :=
  List.dropWhile_append_of_pos blank

private theorem skipSpaces_skipSpaces (text : List Char) :
    skipSpaces (skipSpaces text) = skipSpaces text :=
  List.dropWhile_idempotent isSpace text

private theorem readValue_skipSpaces (fuel : Nat) (text : List Char) :
    readValue fuel (skipSpaces text) = readValue fuel text := by
  cases fuel with
  | zero => rfl
  | succ fuel => rw [readValue.eq_2, readValue.eq_2, skipSpaces_skipSpaces]

private theorem readItems_skipSpaces (fuel : Nat) (text : List Char) :
    readItems fuel (skipSpaces text) = readItems fuel text := by
  cases fuel with
  | zero => rfl
  | succ fuel => rw [readItems.eq_2, readItems.eq_2, readValue_skipSpaces]

private theorem readMembers_skipSpaces (fuel : Nat) (text : List Char) :
    readMembers fuel (skipSpaces text) = readMembers fuel text := by
  cases fuel with
  | zero => rfl
  | succ fuel => rw [readMembers.eq_2, readMembers.eq_2, skipSpaces_skipSpaces]

private theorem readValue_blank {blanks : List Char} (blank : Blank blanks) (fuel : Nat)
    (text : List Char) : readValue fuel (blanks ++ text) = readValue fuel text := by
  rw [← readValue_skipSpaces, skipSpaces_blank blank, readValue_skipSpaces]

private theorem endsNumber_blank {blanks : List Char} (blank : Blank blanks) {rest : List Char}
    (ended : EndsNumber rest) : EndsNumber (blanks ++ rest) := by
  cases blanks with
  | nil => exact ended
  | cons space blanks =>
      intro character member
      cases member
      have isBlank := blank space List.mem_cons_self
      simp only [isSpace, Bool.or_eq_true, beq_iff_eq] at isBlank
      rcases isBlank with ((rfl | rfl) | rfl) | rfl
      all_goals decide

/-- Marks that may stand behind a number. -/
private theorem endsNumber_mark {mark : Char} (isMark : mark ∈ [',', ']', '\x7d'])
    (rest : List Char) : EndsNumber (mark :: rest) := by
  intro character member
  cases member
  simp only [List.mem_cons, List.not_mem_nil, or_false] at isMark
  rcases isMark with rfl | rfl | rfl
  all_goals decide

private theorem skipSpaces_close {close : Char} (isClose : close ∈ [']', '\x7d'])
    (rest : List Char) : skipSpaces (close :: rest) = close :: rest := by
  simp only [List.mem_cons, List.not_mem_nil, or_false] at isClose
  rcases isClose with rfl | rfl
  all_goals rfl

/-! ### Single values -/

/-- A text that is read as a value and leaves what follows it. -/
def Spells (text : List Char) (value : Json) : Prop :=
  ∀ fuel rest, text.length ≤ fuel → EndsNumber rest →
    readValue fuel (text ++ rest) = some (value, rest)

private theorem spells_cons {character : Char} {text : List Char} {value : Json}
    (read : ∀ fuel rest, text.length ≤ fuel → EndsNumber rest →
      readValue (fuel + 1) (character :: (text ++ rest)) = some (value, rest)) :
    Spells (character :: text) value := by
  intro fuel rest enough ended
  cases fuel with
  | zero => cases enough
  | succ fuel => exact read fuel rest (Nat.le_of_succ_le_succ enough) ended

theorem spells_null : Spells "null".toList .null :=
  spells_cons fun _ _ _ _ => rfl

theorem spells_bool (value : Bool) : Spells (writeBool value) (.bool value) := by
  cases value with
  | true => exact spells_cons fun _ _ _ _ => rfl
  | false => exact spells_cons fun _ _ _ _ => rfl

theorem spells_string (text : String) : Spells (writeString text) (.string text) := by
  apply spells_cons
  intro fuel rest _ _
  change (readContent _).map _ = _
  rw [List.append_assoc, List.singleton_append, readContent_writeString]
  simp [ofContent]

private theorem isSpace_digit {digit : Char} (isDigit : digit.isDigit = true) :
    isSpace digit = false := by
  cases space : isSpace digit with
  | false => rfl
  | true =>
      simp only [isSpace, Bool.or_eq_true, beq_iff_eq] at space
      rcases space with ((rfl | rfl) | rfl) | rfl
      all_goals cases isDigit

private theorem readValue_digit {digit : Char} (isDigit : digit.isDigit = true) (fuel : Nat)
    (rest : List Char) :
    readValue (fuel + 1) (digit :: rest) =
      (readNumber (digit :: rest)).map fun (written, rest) => (.number written, rest) := by
  have visible : skipSpaces (digit :: rest) = digit :: rest :=
    List.dropWhile_cons_of_neg (by rw [isSpace_digit isDigit]; exact Bool.false_ne_true)
  rw [readValue.eq_2, visible]
  split
  case h_8 => rfl
  case h_1 equal => cases equal
  -- all other alternatives begin with a character that is no digit
  all_goals
    rename_i equal
    cases equal
    cases isDigit

theorem spells_count (value : Nat) :
    Spells (Nat.toDigits 10 value) (.number (Nat.toDigits 10 value)) := by
  obtain ⟨digit, digits, split, isDigit⟩ := toDigits_eq_cons value
  rw [split]
  apply spells_cons
  intro fuel rest _ ended
  have number := readNumber_toDigits value ended
  rw [split, List.cons_append] at number
  rw [readValue_digit isDigit, number]
  rfl

/-! ### Arrays and objects -/

/-- Parts behind a gap each, with commas between them. -/
def separated (gap : List Char) (parts : List (List Char)) : List Char :=
  [','].intercalate (parts.map (gap ++ ·))

private theorem separated_singleton (gap part : List Char) :
    separated gap [part] = gap ++ part := by
  simp [separated]

private theorem separated_cons_cons (gap part next : List Char) (rest : List (List Char)) :
    separated gap (part :: next :: rest) = gap ++ part ++ ',' :: separated gap (next :: rest) := by
  simp [separated]

def writeMember (colon : List Char) (write : Json → List Char) (member : String × Json) :
    List Char :=
  writeString member.1 ++ ':' :: (colon ++ write member.2)

/-- What is read behind an entry: the closing bracket, or a comma and more entries. -/
def Follows {γ : Type} (read : List Char → Option (List γ × List Char)) (close : Char)
    (rest : List Char) (found : List γ) (after : List Char) : Prop :=
  skipSpaces rest = close :: after ∧ found = [] ∨
    ∃ more, skipSpaces rest = ',' :: more ∧ read more = some (found, after)

-- The reader steps from entry to entry, and has one unit of fuel more than there are characters
-- left; the comma pays for the step to the next entry.
private theorem read_separated {β γ : Type} {read : Nat → List Char → Option (List γ × List Char)}
    {write : β → List Char} {image : β → γ} {gap closing : List Char} {close : Char}
    (closingBlank : Blank closing) (isClose : close ∈ [']', '\x7d']) (entries : List β)
    (step : ∀ entry ∈ entries, ∀ fuel rest found after,
      (write entry).length ≤ fuel → EndsNumber rest → Follows (read fuel) close rest found after →
        read (fuel + 1) (gap ++ (write entry ++ rest)) = some (image entry :: found, after))
    (some : entries ≠ []) (fuel : Nat)
    (enough : (separated gap (entries.map write)).length < fuel) (rest : List Char) :
    read fuel (separated gap (entries.map write) ++ (closing ++ close :: rest)) =
      .some (entries.map image, rest) := by
  induction entries generalizing fuel with
  | nil => exact absurd rfl some
  | cons entry entries ih =>
      obtain ⟨fuel, rfl⟩ : ∃ less, fuel = less + 1 := ⟨fuel - 1, by omega⟩
      have first := step entry List.mem_cons_self fuel
      cases entries with
      | nil =>
          simp only [List.map_cons, List.map_nil, separated_singleton, List.length_append,
            List.append_assoc] at enough ⊢
          have ended : EndsNumber (closing ++ close :: rest) :=
            endsNumber_blank closingBlank (endsNumber_mark (List.mem_cons_of_mem _ isClose) rest)
          have behind : skipSpaces (closing ++ close :: rest) = close :: rest := by
            rw [skipSpaces_blank closingBlank]
            exact skipSpaces_close isClose rest
          exact first _ _ _ (by omega) ended (Or.inl ⟨behind, rfl⟩)
      | cons next entries =>
          simp only [List.map_cons, separated_cons_cons, List.length_append, List.length_cons,
            List.append_assoc, List.cons_append] at enough ih ⊢
          have later := ih (fun entry member => step entry (List.mem_cons_of_mem _ member))
            (List.cons_ne_nil next entries) fuel (by omega)
          exact first _ _ _ (by omega) (endsNumber_mark List.mem_cons_self _)
            (Or.inr ⟨_, rfl, later⟩)

private theorem readItems_item {gap text rest after : List Char} (gapBlank : Blank gap)
    {item : Json} {items : List Json} (spelled : Spells text item) {fuel : Nat}
    (enough : text.length ≤ fuel) (ended : EndsNumber rest)
    (follows : Follows (readItems fuel) ']' rest items after) :
    readItems (fuel + 1) (gap ++ (text ++ rest)) = some (item :: items, after) := by
  rw [readItems.eq_2, readValue_blank gapBlank, spelled fuel rest enough ended]
  rcases follows with ⟨ends, rfl⟩ | ⟨more, continues, later⟩
  · simp only [ends]
  · simp only [continues, later, Option.map_some]

private theorem readMembers_member {gap colon rest after : List Char} (gapBlank : Blank gap)
    (colonBlank : Blank colon) {member : String × Json} {members : List (Content × Json)}
    {write : Json → List Char} (spelled : Spells (write member.2) member.2) {fuel : Nat}
    (enough : (writeMember colon write member).length ≤ fuel) (ended : EndsNumber rest)
    (follows : Follows (readMembers fuel) '\x7d' rest members after) :
    readMembers (fuel + 1) (gap ++ (writeMember colon write member ++ rest)) =
      some ((some member.1.toList, member.2) :: members, after) := by
  obtain ⟨key, value⟩ := member
  have length : (write value).length ≤ fuel := by
    simp only [writeMember, List.length_append, List.length_cons] at enough
    omega
  have quote : skipSpaces (gap ++ (writeMember colon write (key, value) ++ rest)) =
      '"' :: (key.toList.flatMap writeCharacter ++
        '"' :: ':' :: (colon ++ (write value ++ rest))) := by
    rw [skipSpaces_blank gapBlank]
    simp only [writeMember, writeString, List.cons_append, List.append_assoc, List.nil_append]
    rfl
  have name := readContent_writeString key.toList (':' :: (colon ++ (write value ++ rest)))
  have mark : skipSpaces (':' :: (colon ++ (write value ++ rest))) =
      ':' :: (colon ++ (write value ++ rest)) := rfl
  have content : readValue fuel (colon ++ (write value ++ rest)) = some (value, rest) := by
    rw [readValue_blank colonBlank]
    exact spelled fuel rest length ended
  rw [readMembers.eq_2]
  rcases follows with ⟨ends, rfl⟩ | ⟨more, continues, later⟩
  · simp only [quote, name, mark, content, ends]
  · simp only [quote, name, mark, content, continues, later, Option.map_some]

/-- Nothing is read where an array ends. -/
private theorem readItems_bracket (fuel : Nat) {text rest : List Char}
    (ends : skipSpaces text = ']' :: rest) : readItems fuel text = none := by
  rw [← readItems_skipSpaces, ends]
  match fuel with
  | 0 | 1 | _ + 2 => rfl

private theorem readMembers_brace (fuel : Nat) {text rest : List Char}
    (ends : skipSpaces text = '\x7d' :: rest) : readMembers fuel text = none := by
  rw [← readMembers_skipSpaces, ends]
  match fuel with
  | 0 | _ + 1 => rfl

private theorem readValue_items {fuel : Nat} {text rest : List Char} {items : List Json}
    (read : readItems fuel text = some (items, rest)) :
    readValue (fuel + 1) ('[' :: text) = some (.array items, rest) := by
  have bracket : skipSpaces ('[' :: text) = '[' :: text := rfl
  rw [readValue.eq_2]
  simp only [bracket]
  split
  case h_1 ends =>
    rw [readItems_bracket fuel ends] at read
    cases read
  case h_2 =>
    rw [readItems_skipSpaces, read]
    rfl

private theorem readValue_members {fuel : Nat} {text rest : List Char}
    {members : List (Content × Json)} (read : readMembers fuel text = some (members, rest)) :
    readValue (fuel + 1) ('\x7b' :: text) = some (ofMembers members, rest) := by
  have brace : skipSpaces ('\x7b' :: text) = '\x7b' :: text := rfl
  rw [readValue.eq_2]
  simp only [brace]
  split
  case h_1 ends =>
    rw [readMembers_brace fuel ends] at read
    cases read
  case h_2 =>
    rw [readMembers_skipSpaces, read]
    rfl

private theorem ofMembers_written (members : List (String × Json)) :
    ofMembers (members.map fun member => (some member.1.toList, member.2)) = .object members := by
  have back : (members.map fun member => (some member.1.toList, member.2)).mapM memberOf? =
      some members := by
    induction members with
    | nil => rfl
    | cons member members ih => simp [ih, memberOf?]
  rw [ofMembers, back]

section

variable {gap closing : List Char} (gapBlank : Blank gap) (closingBlank : Blank closing)

include gapBlank closingBlank

private theorem spells_array (write : Json → List Char) {items : List Json} (some : items ≠ [])
    (spelled : ∀ item ∈ items, Spells (write item) item) :
    Spells ('[' :: (separated gap (items.map write) ++ closing ++ [']'])) (.array items) := by
  apply spells_cons
  intro fuel rest enough _
  apply readValue_items
  simp only [List.length_append, List.length_singleton] at enough
  rw [List.append_assoc, List.append_assoc, List.singleton_append]
  have read : readItems fuel (separated gap (items.map write) ++ (closing ++ ']' :: rest)) =
      .some (items.map id, rest) :=
    read_separated closingBlank (by decide) items
      (fun item member _ _ _ _ => readItems_item gapBlank (spelled item member)) some fuel
      (by omega) rest
  rwa [List.map_id] at read

private theorem spells_object {colon : List Char} (colonBlank : Blank colon)
    (write : Json → List Char) {members : List (String × Json)} (some : members ≠ [])
    (spelled : ∀ member ∈ members, Spells (write member.2) member.2) :
    Spells
      ('\x7b' :: (separated gap (members.map (writeMember colon write)) ++ closing ++ ['\x7d']))
      (.object members) := by
  apply spells_cons
  intro fuel rest enough _
  rw [← ofMembers_written]
  apply readValue_members
  simp only [List.length_append, List.length_singleton] at enough
  rw [List.append_assoc, List.append_assoc, List.singleton_append]
  exact read_separated closingBlank (by decide) members
    (fun member known _ _ _ _ => readMembers_member gapBlank colonBlank (spelled member known))
    some fuel (by omega) rest

end

private theorem spells_emptyArray : Spells ['[', ']'] (.array []) :=
  spells_cons fun _ _ _ _ => rfl

private theorem spells_emptyObject : Spells ['\x7b', '\x7d'] (.object []) :=
  spells_cons fun _ _ _ _ => rfl

/-! ### The two layouts -/

private theorem eq_separated {β : Type} {layout : List β → List Char} {gap : List Char}
    {write : β → List Char} (none : layout [] = [])
    (one : ∀ entry, layout [entry] = gap ++ write entry)
    (more : ∀ entry next rest, layout (entry :: next :: rest) =
      gap ++ write entry ++ ',' :: layout (next :: rest)) (entries : List β) :
    layout entries = separated gap (entries.map write) := by
  induction entries with
  | nil => exact none
  | cons entry entries ih =>
      cases entries with
      | nil => rw [one, List.map_cons, List.map_nil, separated_singleton]
      | cons next entries => simp only [more, ih, List.map_cons, separated_cons_cons]

private theorem compactItems_eq (items : List Json) :
    compactItems items = separated [] (items.map compact) := by
  apply eq_separated
  · rfl
  · simp [compactItems]
  · simp [compactItems]

private theorem compactMembers_eq (members : List (String × Json)) :
    compactMembers members = separated [] (members.map (writeMember [] compact)) := by
  apply eq_separated
  · rfl
  · simp [compactMembers, writeMember]
  · simp [compactMembers, writeMember]

private theorem prettyItems_eq (level : Nat) (items : List Json) :
    prettyItems level items = separated (lineAt level) (items.map (pretty level)) := by
  apply eq_separated
  · rfl
  · simp [prettyItems]
  · simp [prettyItems]

private theorem prettyMembers_eq (level : Nat) (members : List (String × Json)) :
    prettyMembers level members =
      separated (lineAt level) (members.map (writeMember [' '] (pretty level))) := by
  apply eq_separated
  · rfl
  · simp [prettyMembers, writeMember]
  · simp [prettyMembers, writeMember]

theorem spells_compact {value : Json} (plain : Plain value) : Spells value.compact value := by
  induction plain with
  | null =>
      rw [compact.eq_def]
      exact spells_null
  | bool value =>
      rw [compact.eq_def]
      exact spells_bool value
  | count value =>
      rw [compact.eq_def]
      exact spells_count value
  | string text =>
      rw [compact.eq_def]
      exact spells_string text
  | @array items plain ih =>
      rw [compact.eq_def]
      cases items with
      | nil => exact spells_emptyArray
      | cons item items =>
          have spelled := spells_array blank_nil blank_nil compact (List.cons_ne_nil item items) ih
          rwa [List.append_nil, ← compactItems_eq] at spelled
  | @object members plain ih =>
      rw [compact.eq_def]
      cases members with
      | nil => exact spells_emptyObject
      | cons member members =>
          have spelled := spells_object blank_nil blank_nil blank_nil compact
            (List.cons_ne_nil member members) ih
          rwa [List.append_nil, ← compactMembers_eq] at spelled

theorem spells_pretty {value : Json} (plain : Plain value) (level : Nat) :
    Spells (value.pretty level) value := by
  induction plain generalizing level with
  | null =>
      rw [pretty.eq_def]
      exact spells_null
  | bool value =>
      rw [pretty.eq_def]
      exact spells_bool value
  | count value =>
      rw [pretty.eq_def]
      exact spells_count value
  | string text =>
      rw [pretty.eq_def]
      exact spells_string text
  | @array items plain ih =>
      rw [pretty.eq_def]
      cases items with
      | nil => exact spells_emptyArray
      | cons item items =>
          have spelled := spells_array (blank_lineAt (level + 1)) (blank_lineAt level)
            (pretty (level + 1)) (List.cons_ne_nil item items)
            fun item member => ih item member (level + 1)
          rwa [← prettyItems_eq] at spelled
  | @object members plain ih =>
      rw [pretty.eq_def]
      cases members with
      | nil => exact spells_emptyObject
      | cons member members =>
          have spelled := spells_object (blank_lineAt (level + 1)) (blank_lineAt level)
            blank_space (pretty (level + 1)) (List.cons_ne_nil member members)
            fun member known => ih member known (level + 1)
          rwa [← prettyMembers_eq] at spelled

private theorem parse?_of_spells {text : List Char} {value : Json} (spelled : Spells text value) :
    parse? text = some value := by
  have read := spelled (2 * text.length + 2) [] (by omega) endsNumber_nil
  rw [List.append_nil] at read
  rw [parse?, read]
  rfl

theorem ofText?_toCompact {value : Json} (plain : Plain value) :
    ofText? value.toCompact = some value := by
  rw [ofText?, toCompact, String.toList_ofList]
  exact parse?_of_spells (spells_compact plain)

theorem ofText?_toPretty {value : Json} (plain : Plain value) :
    ofText? value.toPretty = some value := by
  rw [ofText?, toPretty, String.toList_ofList]
  exact parse?_of_spells (spells_pretty plain 0)

end DocHarvest.Json
