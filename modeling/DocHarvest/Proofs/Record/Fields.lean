import DocHarvest.Proofs.Json.Values
import DocHarvest.Record.Codec

/-!
Fields of records come back from the object that holds them.

A record is taken apart by the names of its fields.  The members that are written have some of
these names, in their order, so that no member is passed over and none is found twice.
-/

namespace DocHarvest.Json

variable {α : Type} {write : α → Json} {decode : Json → Option α}

/-- A value that is plain when it is written, and that is read back. -/
structure Restores (write : α → Json) (decode : Json → Option α) (value : α) : Prop where
  plain : Plain (write value)
  decoded : decode (write value) = some value

@[simp]
theorem text?_string (text : String) : text? (.string text) = some text := rfl

@[simp]
theorem bool?_bool (value : Bool) : bool? (.bool value) = some value := rfl

namespace Restores

theorem text (text : String) : Restores .string text? text :=
  ⟨.string text, rfl⟩

theorem count {value : Nat} (small : value < countLimit) : Restores ofNat count? value :=
  ⟨.count value, count?_ofNat small⟩

theorem list {values : List α} (each : ∀ value ∈ values, Restores write decode value) :
    Restores (fun values => .array (values.map write)) (list? decode) values := by
  constructor
  · apply Plain.array
    intro item member
    obtain ⟨value, known, rfl⟩ := List.mem_map.mp member
    exact (each value known).plain
  · change (values.map write).mapM decode = some values
    induction values with
    | nil => rfl
    | cons value values ih =>
        have first := (each value List.mem_cons_self).decoded
        have later := ih fun value member => each value (List.mem_cons_of_mem _ member)
        simp [first, later]

theorem texts (texts : List String) : Restores ofStrings (list? text?) texts :=
  list fun value _ => text value

theorem orNull {value : Option α} (noNull : decode .null = none)
    (each : ∀ present ∈ value, Restores write decode present) :
    Restores (ofOption write) (orNull? decode) value := by
  cases value with
  | none => exact ⟨.null, rfl⟩
  | some present =>
      obtain ⟨plain, decoded⟩ := each present rfl
      refine ⟨plain, ?_⟩
      have notNull : write present ≠ .null := by
        intro null
        rw [null, noNull] at decoded
        cases decoded
      rw [ofOption, orNull?.eq_2 _ _ notNull, decoded]
      rfl

theorem textOrNull (value : Option String) :
    Restores (ofOption .string) (orNull? text?) value :=
  orNull rfl fun present _ => text present

end Restores

/-! ### Finding members -/

theorem fields?_object {names : List String} {members : List (String × Json)}
    (distinct : names.Nodup) (keys : (members.map Prod.fst).Sublist names) :
    fields? names (.object members) = some ⟨members, false⟩ := by
  have known : (members.filter fun member => names.contains member.1) = members := by
    rw [List.filter_eq_self]
    intro member present
    have key : member.1 ∈ names := keys.subset (List.mem_map_of_mem present)
    simpa using key
  simp only [fields?, known, if_pos (keys.nodup distinct)]

/-- What is read of a member that may be missing. -/
def readOr (decode : Json → Option α) (other : α) : Option Json → Option α
  | some value => decode value
  | none => some other

@[simp]
theorem readOr_some (value : Json) (other : α) :
    readOr decode other (some value) = decode value := rfl

namespace Fields

@[simp]
theorem get?_nil (positional : Bool) (name : String) :
    (Fields.mk [] positional).get? name = none := rfl

@[simp]
theorem get?_cons (key name : String) (value : Json) (rest : List (String × Json))
    (positional : Bool) :
    (Fields.mk ((key, value) :: rest) positional).get? name =
      if key = name then some value else (Fields.mk rest positional).get? name := by
  by_cases same : key = name
  · simp [get?, same]
  · simp [get?, same]

@[simp]
theorem get?_append (front back : List (String × Json)) (positional : Bool) (name : String) :
    (Fields.mk (front ++ back) positional).get? name =
      ((Fields.mk front positional).get? name).or ((Fields.mk back positional).get? name) := by
  simp [get?, List.find?_append, Option.map_or]

@[simp]
theorem get?_memberIfSome (key name : String) (write : α → Json) (value : Option α)
    (positional : Bool) :
    (Fields.mk (memberIfSome key write value) positional).get? name =
      if key = name then value.map write else none := by
  cases value with
  | none => simp [memberIfSome]
  | some value => simp [memberIfSome]

@[simp]
theorem required_eq (fields : Fields) (name : String) (decode : Json → Option α) :
    fields.required name decode = (fields.get? name).bind decode := rfl

@[simp]
theorem defaulted_eq (fields : Fields) (name : String) (decode : Json → Option α) (other : α) :
    fields.defaulted name decode other = readOr decode other (fields.get? name) := by
  unfold defaulted readOr
  cases fields.get? name with
  | none => rfl
  | some value => rfl

@[simp]
theorem nullable_object (members : List (String × Json)) (name : String)
    (decode : Json → Option α) :
    (Fields.mk members false).nullable name decode =
      readOr (orNull? decode) none ((Fields.mk members false).get? name) := by
  unfold nullable readOr
  cases (Fields.mk members false).get? name with
  | none => rfl
  | some value => rfl

end Fields

/-! ### Members that may be left out -/

theorem readOr_ifSome {value : Option α}
    (restored : Restores (ofOption write) (orNull? decode) value) :
    readOr (orNull? decode) none (value.map write) = some value := by
  cases value with
  | none => rfl
  | some value => exact restored.decoded

theorem keys_memberIfSome (key : String) (write : α → Json) (value : Option α) :
    ((memberIfSome key write value).map Prod.fst).Sublist [key] := by
  cases value with
  | none => exact List.nil_sublist _
  | some value => exact List.Sublist.refl _

theorem plain_memberIfSome {key : String} {value : Option α}
    (plain : Plain (ofOption write value)) :
    ∀ member ∈ memberIfSome key write value, Plain member.2 := by
  cases value with
  | none =>
      intro member present
      cases present
  | some value =>
      intro member present
      rw [List.mem_singleton.mp present]
      exact plain

/-- A flag as a value that is there only when it is set. -/
def flagged (flag : Bool) : Option Bool := if flag then some true else none

theorem memberIfTrue_eq (key : String) (flag : Bool) :
    (if flag then [(key, Json.bool true)] else []) = memberIfSome key .bool (flagged flag) := by
  cases flag with
  | false => rfl
  | true => rfl

theorem readOr_flagged (flag : Bool) :
    readOr bool? false ((flagged flag).map .bool) = some flag := by
  cases flag with
  | false => rfl
  | true => rfl

theorem plain_flagged (flag : Bool) : Plain (ofOption .bool (flagged flag)) := by
  cases flag with
  | false => exact .null
  | true => exact .bool true

/-! ### Whole records -/

/-- A record that is written as an object and read by its fields. -/
theorem Restores.record {names : List String} {members : α → List (String × Json)}
    {decodeFields : Fields → Option α} {value : α} (distinct : names.Nodup)
    (keys : ((members value).map Prod.fst).Sublist names)
    (plain : ∀ member ∈ members value, Plain member.2)
    (decoded : decodeFields ⟨members value, false⟩ = some value) :
    Restores (fun value => .object (members value))
      (fun json => (fields? names json).bind decodeFields) value := by
  refine ⟨.object plain, ?_⟩
  simp only [fields?_object distinct keys, Option.bind_some, decoded]

/-- A value that is read back from both layouts of its text. -/
def Survives (write : α → Json) (decode : Json → Option α) (value : α) : Prop :=
  (ofText? (write value).toPretty).bind decode = some value ∧
    (ofText? (write value).toCompact).bind decode = some value

theorem Restores.survives {value : α} (restored : Restores write decode value) :
    Survives write decode value := by
  constructor
  · rw [ofText?_toPretty restored.plain]
    exact restored.decoded
  · rw [ofText?_toCompact restored.plain]
    exact restored.decoded

end DocHarvest.Json
