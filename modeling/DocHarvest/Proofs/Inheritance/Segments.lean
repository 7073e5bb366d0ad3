import DocHarvest.Proofs.Inheritance.Completion

/-!
Parts of a registry that do not know of each other.

A segment is a run of classes in a larger registry.  If no class around it has the name of a base
declared within it, resolution treats the segment as if it were alone: positions are shifted, and
more depth is allowed than is needed, but the same classes are completed from the same bases.
-/

namespace DocHarvest.Registry

/-- No class of one list declares a base that is named like a class of another. -/
def Foreign (classes others : List ClassDoc) : Prop :=
  ∀ record ∈ classes, ∀ other ∈ others, other.name ∉ record.baseNames

theorem Foreign.congr {classes changed others replaced : List ClassDoc}
    (foreign : Foreign classes others)
    (same : changed.map ClassDoc.declaration = classes.map ClassDoc.declaration)
    (alike : replaced.map ClassDoc.declaration = others.map ClassDoc.declaration) :
    Foreign changed replaced := by
  intro record member other listed
  have mine := List.mem_map_of_mem (f := ClassDoc.declaration) member
  have theirs := List.mem_map_of_mem (f := ClassDoc.declaration) listed
  rw [same] at mine
  rw [alike] at theirs
  obtain ⟨record', member', equal⟩ := List.mem_map.mp mine
  obtain ⟨other', listed', equal'⟩ := List.mem_map.mp theirs
  rw [← ClassDoc.baseNames_of_declaration equal, ← ClassDoc.name_of_declaration equal']
  exact foreign record' member' other' listed'

/-- A registry with classes before and after its own. -/
def within (before after : List ClassDoc) (segment : Registry) : Registry :=
  .ofList (before ++ segment.classes ++ after)

variable {before after : List ClassDoc} {segment : Registry}

@[simp]
theorem classes_within :
    (segment.within before after).classes = before ++ segment.classes ++ after :=
  ofList_classes _

variable (before after) in
theorem within_classes {position : Nat} (bound : position < segment.size) :
    (segment.within before after).classes[before.length + position]? =
      segment.classes[position]? := by
  have inside : before.length + position < (before ++ segment.classes).length := by
    rw [List.length_append]
    exact Nat.add_lt_add_left bound _
  rw [classes_within, List.getElem?_append_left inside,
    List.getElem?_append_right (Nat.le_add_right _ _), Nat.add_sub_cancel_left]

theorem within_completeAt {position : Nat} (bound : position < segment.size)
    (heritage : Heritage) :
    (segment.within before after).completeAt (before.length + position) heritage =
      (segment.completeAt position heritage).within before after := by
  have inside : before.length + position < (before ++ segment.classes).length := by
    rw [List.length_append]
    exact Nat.add_lt_add_left bound _
  have here := List.getElem?_eq_getElem bound
  have there := (within_classes before after bound).trans here
  apply ext_classes
  rw [classes_within, completeAt_eq_set here, completeAt_eq_set there, classes_within,
    List.set_append_left _ _ inside, List.set_append_right _ _ (Nat.le_add_right _ _),
    Nat.add_sub_cancel_left]

private theorem lastPosition?_eq_none {name : String} {classes : List ClassDoc}
    (absent : ∀ record ∈ classes, record.name ≠ name) (start : Nat) :
    lastPosition? name start classes = none := by
  induction classes generalizing start with
  | nil => rfl
  | cons record rest ih =>
      rw [List.forall_mem_cons] at absent
      have other : ¬(record.name == name) = true := fun same => absent.1 (beq_iff_eq.mp same)
      rw [lastPosition?, ih absent.2, if_neg other, Option.or_none]

private theorem lastPosition?_shift (name : String) (classes : List ClassDoc)
    (offset start : Nat) :
    lastPosition? name (offset + start) classes =
      (lastPosition? name start classes).map (offset + ·) := by
  induction classes generalizing start with
  | nil => rfl
  | cons record rest ih =>
      rw [lastPosition?, lastPosition?, Nat.add_assoc, ih]
      cases lastPosition? name (start + 1) rest with
      | some position => rfl
      | none =>
          rw [Option.map_none, Option.none_or, Option.none_or]
          split
          · rfl
          · rfl

/-- A name that no class around a segment has stands for what it stands for in the segment. -/
theorem within_position? {name : String} (absent : ∀ record ∈ before ++ after, record.name ≠ name) :
    (segment.within before after).position? name =
      (segment.position? name).map (before.length + ·) := by
  rw [List.forall_mem_append] at absent
  rw [position?_eq, position?_eq, classes_within, lastPosition?_append, lastPosition?_append,
    lastPosition?_eq_none absent.1, lastPosition?_eq_none absent.2, Option.none_or, Option.or_none,
    Nat.zero_add]
  exact lastPosition?_shift name segment.classes before.length 0

private theorem contains_shift (offset : Nat) (opened : List Nat) (position : Nat) :
    (opened.map (offset + ·)).contains (offset + position) = opened.contains position := by
  rw [Bool.eq_iff_iff, List.contains_iff_mem, List.contains_iff_mem, List.mem_map]
  constructor
  · rintro ⟨other, member, same⟩
    rw [← Nat.add_left_cancel same]
    exact member
  · intro member
    exact ⟨position, member, rfl⟩

/-! ### One call -/

section Call

variable {extra depth position : Nat} {opened : List Nat} {record : ClassDoc}

private theorem visitBase_within
    (call : ∀ segment source, Underway segment depth opened source → source < segment.size →
      Foreign segment.classes (before ++ after) →
      resolveAt (depth + extra) (opened.map (before.length + ·)) (segment.within before after)
          (before.length + source) =
        (resolveAt depth opened segment source).within before after)
    (segment : Registry) (heritage : Heritage)
    (visiting : Visiting segment depth opened position record)
    (foreign : Foreign segment.classes (before ++ after)) {base : String}
    (declared : base ∈ record.baseNames) :
    visitBase (depth + extra) (opened.map (before.length + ·)) record
        (segment.within before after, heritage) base =
      ((visitBase depth opened record (segment, heritage) base).1.within before after,
        (visitBase depth opened record (segment, heritage) base).2) := by
  have absent (other : ClassDoc) (listed : other ∈ before ++ after) : other.name ≠ base := by
    intro named
    subst named
    exact foreign record (List.mem_of_getElem? visiting.here) other listed declared
  unfold visitBase
  rw [within_position? absent]
  cases place : segment.position? base with
  | none => rfl
  | some source =>
      simp only [Option.map_some]
      rw [contains_shift]
      cases under : opened.contains source with
      | true => rfl
      | false =>
          have underway := visiting.call declared place
          have bound := lt_size_of_position? place
          have kept : source < (resolveAt depth opened segment source).size := by
            rw [size_congr (declarations_resolveAt underway)]
            exact bound
          simp only [Bool.false_eq_true, if_false]
          rw [call segment source underway bound foreign, within_classes before after kept]
          cases (resolveAt depth opened segment source).classes[source]? with
          | none => rfl
          | some found => rfl

private theorem visitBases_within
    (call : ∀ segment source, Underway segment depth opened source → source < segment.size →
      Foreign segment.classes (before ++ after) →
      resolveAt (depth + extra) (opened.map (before.length + ·)) (segment.within before after)
          (before.length + source) =
        (resolveAt depth opened segment source).within before after)
    (bases : List String) (declared : ∀ base ∈ bases, base ∈ record.baseNames)
    (segment : Registry) (heritage : Heritage)
    (visiting : Visiting segment depth opened position record)
    (foreign : Foreign segment.classes (before ++ after)) :
    bases.foldl (visitBase (depth + extra) (opened.map (before.length + ·)) record)
        (segment.within before after, heritage) =
      ((bases.foldl (visitBase depth opened record) (segment, heritage)).1.within before after,
        (bases.foldl (visitBase depth opened record) (segment, heritage)).2) := by
  induction bases generalizing segment heritage with
  | nil => rfl
  | cons base rest ih =>
      rw [List.forall_mem_cons] at declared
      obtain ⟨onward, same⟩ := visiting.visit heritage declared.1
      rw [List.foldl_cons, List.foldl_cons,
        visitBase_within call segment heritage visiting foreign declared.1]
      exact ih declared.2 _ _ onward (foreign.congr same rfl)

end Call

/-- A call within a segment is the call in the segment alone.  Depth that is not needed there makes
no difference. -/
theorem resolveAt_within (extra depth : Nat) (opened : List Nat) (segment : Registry)
    (position : Nat) (underway : Underway segment depth opened position)
    (bound : position < segment.size) (foreign : Foreign segment.classes (before ++ after)) :
    resolveAt (depth + extra) (opened.map (before.length + ·)) (segment.within before after)
        (before.length + position) =
      (resolveAt depth opened segment position).within before after := by
  induction depth generalizing opened segment position with
  | zero =>
      obtain ⟨record, here⟩ : ∃ record, segment.classes[position]? = some record :=
        ⟨_, List.getElem?_eq_getElem bound⟩
      have there := (within_classes before after bound).trans here
      -- with no depth left for the segment, whatever is left for the whole leads to an early return
      rw [Nat.zero_add]
      cases extra with
      | zero => rfl
      | succ extra =>
          rw [resolveAt_succ extra _ _ _ there, contains_shift, if_pos (underway.leaves here)]
          rfl
  | succ depth ih =>
      obtain ⟨record, here⟩ : ∃ record, segment.classes[position]? = some record :=
        ⟨_, List.getElem?_eq_getElem bound⟩
      have there := (within_classes before after bound).trans here
      rw [Nat.add_right_comm, resolveAt_succ _ _ _ _ there, resolveAt_succ _ _ _ _ here,
        contains_shift]
      split
      · rfl
      · rename_i enter
        rw [Bool.or_eq_true, not_or, Bool.not_eq_true, List.contains_iff_mem] at enter
        have visiting := underway.enter here enter.1 enter.2
        have done := visiting.visits .empty record.baseNames fun _base present => present
        have kept := (List.getElem?_eq_some_iff.mp done.here).1
        have loop := visitBases_within (ih (position :: opened)) record.baseNames
          (fun _base present => present) segment .empty visiting foreign
        rw [List.map_cons] at loop
        rw [loop]
        exact within_completeAt kept _

/-! ### Whole segments -/

variable (before after) in
private theorem loop_within (positions : List Nat) (count extra : Nat) (segment : Registry)
    (size : segment.size = count) (bound : ∀ position ∈ positions, position < count)
    (foreign : Foreign segment.classes (before ++ after)) :
    (positions.map (before.length + ·)).foldl (resolveAt (count + extra) [])
        (segment.within before after) =
      (positions.foldl (resolveAt count []) segment).within before after := by
  induction positions generalizing segment with
  | nil => rfl
  | cons position rest ih =>
      rw [List.forall_mem_cons] at bound
      have underway : Underway segment count [] position := .outermost (Nat.le_of_eq size) position
      have same := declarations_resolveAt underway
      have first := resolveAt_within extra count [] segment position underway
        (by rw [size]; exact bound.1) foreign
      rw [List.map_cons, List.foldl_cons, List.foldl_cons]
      rw [List.map_nil] at first
      rw [first]
      apply ih
      · rw [size_congr same, size]
      · exact bound.2
      · exact foreign.congr same rfl

theorem resolve_ofList (classes : List ClassDoc) :
    (ofList classes).resolve =
      (List.range classes.length).foldl (resolveAt classes.length []) (ofList classes) := by
  rw [resolve, size_ofList]

/-- Two lists of classes that do not know of each other are resolved apart. -/
theorem resolve_append {left right : List ClassDoc} (ahead : Foreign left right)
    (behind : Foreign right left) :
    (ofList (left ++ right)).resolve.classes =
      (ofList left).resolve.classes ++ (ofList right).resolve.classes := by
  have length : (ofList left).resolve.classes.length = left.length :=
    (size_congr (declarations_resolve _)).trans (size_ofList left)
  -- the loop first works with `right` behind it, and then with what has become of `left` before it
  have first := loop_within [] right (List.range left.length) left.length right.length (ofList left)
    (size_ofList left) (fun _position member => List.mem_range.mp member) (by
      rw [ofList_classes]
      exact ahead)
  have second := loop_within (ofList left).resolve.classes [] (List.range right.length)
    right.length left.length (ofList right) (size_ofList right)
    (fun _position member => List.mem_range.mp member) (by
      rw [ofList_classes, List.append_nil]
      exact behind.congr rfl ((declarations_resolve _).trans (declarations_ofList left)))
  simp only [List.length_nil, Nat.zero_add, List.map_id'] at first
  rw [length, Nat.add_comm right.length] at second
  have split : (ofList (left ++ right)).resolve =
      (ofList right).resolve.within (ofList left).resolve.classes [] := by
    have begins : ofList (left ++ right) = (ofList left).within [] right := by
      apply ext_classes
      rw [classes_within, ofList_classes, ofList_classes, List.nil_append]
    have middle : (ofList left).resolve.within [] right =
        (ofList right).within (ofList left).resolve.classes [] := by
      apply ext_classes
      rw [classes_within, classes_within, ofList_classes, List.nil_append, List.append_nil]
    simp only [resolve_ofList] at middle second ⊢
    rw [List.length_append, List.range_add, List.foldl_append, ← second, ← middle, ← first, begins]
  rw [split, classes_within, List.append_nil]

/-- So are any number of lists. -/
theorem resolve_flatten {segments : List (List ClassDoc)}
    (apart : segments.Pairwise fun left right => Foreign left right ∧ Foreign right left) :
    (ofList segments.flatten).resolve.classes =
      segments.flatMap fun segment => (ofList segment).resolve.classes := by
  induction segments with
  | nil => rfl
  | cons first rest ih =>
      rw [List.pairwise_cons] at apart
      have ahead : Foreign first rest.flatten := by
        intro record member other listed
        obtain ⟨segment, among, inside⟩ := List.mem_flatten.mp listed
        exact (apart.1 segment among).1 record member other inside
      have behind : Foreign rest.flatten first := by
        intro record listed other member
        obtain ⟨segment, among, inside⟩ := List.mem_flatten.mp listed
        exact (apart.1 segment among).2 record inside other member
      rw [List.flatten_cons, resolve_append ahead behind, ih apart.2, List.flatMap_cons]

end DocHarvest.Registry
