import Mathlib.Data.List.Basic
import Mathlib.Data.List.TakeWhile
import DocHarvest.Config

/-!
Paths of entries inside a directory.

The path of an entry has the components of its directory and one more, however the path of the
directory is spelled.  So the entry lies one name below the directory, it has the extension of its
name, and it is ignored if the directory is.
-/

namespace DocHarvest

namespace Path

/-- What an entry of a directory can be called. -/
structure IsName (name : String) : Prop where
  nonempty : name ≠ ""
  notCurrent : name ≠ "."
  notParent : name ≠ ".."
  whole : '/' ∉ name.toList

instance (name : String) : Decidable (IsName name) :=
  decidable_of_iff (name ≠ "" ∧ name ≠ "." ∧ name ≠ ".." ∧ '/' ∉ name.toList)
    ⟨fun ⟨nonempty, notCurrent, notParent, whole⟩ => ⟨nonempty, notCurrent, notParent, whole⟩,
      fun valid => ⟨valid.nonempty, valid.notCurrent, valid.notParent, valid.whole⟩⟩

/-- The path that leads from a directory through entries of some names. -/
def below (directory : String) (names : List String) : String :=
  names.foldl child directory

@[simp]
theorem below_nil (directory : String) : below directory [] = directory := rfl

@[simp]
theorem below_cons (directory name : String) (names : List String) :
    below directory (name :: names) = below (child directory name) names := rfl

theorem below_append (directory : String) (front back : List String) :
    below directory (front ++ back) = below (below directory front) back :=
  List.foldl_append

/-! ### Pieces -/

theorem piecesFrom_append_slash (known front back : List Char) :
    piecesFrom known (front ++ '/' :: back) = piecesFrom known front ++ piecesFrom [] back := by
  induction front generalizing known with
  | nil => rfl
  | cons character front ih =>
      rw [List.cons_append, piecesFrom, piecesFrom]
      split
      · rw [ih, List.cons_append]
      · exact ih _

theorem piecesFrom_of_whole (known : List Char) {text : List Char} (whole : '/' ∉ text) :
    piecesFrom known text = [String.ofList (known.reverse ++ text)] := by
  induction text generalizing known with
  | nil => rw [piecesFrom, List.append_nil]
  | cons character rest ih =>
      rw [List.mem_cons, not_or] at whole
      have other : character ≠ '/' := fun same => whole.1 same.symm
      rw [piecesFrom, if_neg other, ih _ whole.2, List.reverse_cons, List.append_assoc,
        List.singleton_append]

theorem piecesFrom_ne_nil (known text : List Char) : piecesFrom known text ≠ [] := by
  induction text generalizing known with
  | nil => exact List.cons_ne_nil _ _
  | cons character rest ih =>
      rw [piecesFrom]
      split
      · exact List.cons_ne_nil _ _
      · exact ih _

theorem laterComponents_append (front back : List String) :
    laterComponents (front ++ back) = laterComponents front ++ laterComponents back :=
  List.filterMap_append

/-- A path inside a directory has the pieces of both, but for the last piece of the directory if
that is empty. -/
theorem pieces_child (directory path : String) :
    ∃ front, pieces (child directory path) = front ++ pieces path ∧
      (pieces directory = front ∨ pieces directory = front ++ [""]) := by
  unfold child
  split
  · next nothing =>
      rw [String.isEmpty_iff.mp nothing]
      exact ⟨[], rfl, Or.inr rfl⟩
  · split
    · next slash =>
        obtain ⟨front, spelled⟩ := List.getLast?_eq_some_iff.mp (eq_of_beq slash)
        refine ⟨piecesFrom [] front, ?_, Or.inr ?_⟩
        · unfold pieces
          rw [String.toList_append, spelled, List.append_assoc, List.singleton_append,
            piecesFrom_append_slash]
        · unfold pieces
          rw [spelled, piecesFrom_append_slash]
          rfl
    · refine ⟨pieces directory, ?_, Or.inl rfl⟩
      unfold pieces
      rw [String.toList_append, String.toList_append, List.append_assoc]
      show piecesFrom [] (directory.toList ++ '/' :: path.toList) = _
      rw [piecesFrom_append_slash]

theorem isAbsolute_child (directory : String) {path : String} (relative : isAbsolute path = false) :
    isAbsolute (child directory path) = isAbsolute directory := by
  unfold child
  split
  · next nothing =>
      rw [String.isEmpty_iff.mp nothing]
      exact relative
  · next something =>
      have nonempty : directory.toList ≠ [] := by
        simpa using something
      obtain ⟨first, rest, spelled⟩ := List.exists_cons_of_ne_nil nonempty
      unfold isAbsolute
      split
      · rw [String.toList_append, spelled]
        rfl
      · rw [String.toList_append, String.toList_append, spelled]
        rfl

section Child

variable {name : String} (valid : IsName name)

include valid

theorem pieces_name : pieces name = [name] := by
  unfold pieces
  rw [piecesFrom_of_whole [] valid.whole, List.reverse_nil, List.nil_append, String.ofList_toList]

theorem laterComponents_name : laterComponents [name] = [.name name] := by
  unfold laterComponents
  simp [valid.nonempty, valid.notCurrent, valid.notParent]

theorem isAbsolute_name : isAbsolute name = false := by
  unfold isAbsolute
  rw [beq_eq_false_iff_ne]
  exact fun first => valid.whole (List.mem_of_head? first)

theorem components_child (directory : String) :
    components (child directory name) = components directory ++ [.name name] := by
  obtain ⟨front, inner, outer⟩ := pieces_child directory name
  rw [pieces_name valid] at inner
  have later : laterComponents (pieces (child directory name)) =
      laterComponents (pieces directory) ++ [.name name] := by
    have empty : laterComponents [""] = [] := by decide
    rw [inner, laterComponents_append, laterComponents_name valid]
    rcases outer with same | trailing
    · rw [same]
    · rw [trailing, laterComponents_append, empty, List.append_nil]
  have first : ((pieces (child directory name)).head? == some ".") =
      ((pieces directory).head? == some ".") := by
    rw [inner]
    cases front with
    | nil =>
        rcases outer with none | only
        · exact absurd none (piecesFrom_ne_nil _ _)
        · rw [only]
          simp [valid.notCurrent]
    | cons piece front =>
        rcases outer with same | trailing
        · rw [same]
          rfl
        · rw [trailing]
          rfl
  unfold components
  rw [later, first, isAbsolute_child directory (isAbsolute_name valid)]
  dsimp only
  split
  · rfl
  · split
    · rfl
    · rfl

end Child

/-! ### Places -/

theorem descend_append (place : List String) (front back : List Component) :
    descend place (front ++ back) = descend (descend place front) back := by
  induction front generalizing place with
  | nil => rfl
  | cons component front ih =>
      cases component with
      | root => exact ih []
      | current => exact ih place
      | parent => exact ih place.tail
      | name text => exact ih (text :: place)

section Place

variable {name : String} {names : List String}

theorem location_child (valid : IsName name) (workingDirectory : List String)
    (directory : String) :
    location workingDirectory (child directory name) =
      location workingDirectory directory ++ [name] := by
  unfold location
  rw [components_child valid, descend_append, descend, descend, List.reverse_cons]

theorem components_below (valid : ∀ name ∈ names, IsName name) (directory : String) :
    components (below directory names) = components directory ++ names.map .name := by
  induction names generalizing directory with
  | nil => rw [below_nil, List.map_nil, List.append_nil]
  | cons name names ih =>
      obtain ⟨here, later⟩ := List.forall_mem_cons.mp valid
      rw [below_cons, ih later, components_child here, List.map_cons, List.append_assoc,
        List.singleton_append]

theorem below_inj {others : List String} {directory : String}
    (valid : ∀ name ∈ names, IsName name) (alsoValid : ∀ name ∈ others, IsName name)
    (same : below directory names = below directory others) : names = others := by
  have parts := congrArg components same
  rw [components_below valid, components_below alsoValid, List.append_cancel_left_eq] at parts
  exact List.map_injective_iff.mpr (fun _left _right => Component.name.inj) parts

theorem extension?_child (valid : IsName name) (directory : String) :
    extension? (child directory name) =
      (extensionOfName name.toList).map String.ofList := by
  unfold extension?
  rw [components_child valid, List.getLast?_concat]

end Place

/-- The last dot of a name is not the first character of it. -/
theorem extensionOfName_eq_some_iff {name extension : List Char} :
    extensionOfName name = some extension ↔
      ∃ stem, stem ≠ [] ∧ '.' ∉ extension ∧ name = stem ++ '.' :: extension := by
  constructor
  · intro found
    unfold extensionOfName at found
    generalize tailed : name.reverse.takeWhile (· != '.') = tail at found
    have whole : tail ++ name.reverse.dropWhile (· != '.') = name.reverse := by
      rw [← tailed]
      exact List.takeWhile_append_dropWhile
    have stop := List.head?_dropWhile_not (· != '.') name.reverse
    generalize name.reverse.dropWhile (· != '.') = rest at whole stop
    rw [← whole] at found
    simp only [List.drop_left] at found
    split at found
    · next dot last before =>
        cases found
        rw [List.head?_cons] at stop
        have isDot := bne_eq_false_iff_eq.mp stop
        subst isDot
        refine ⟨(last :: before).reverse, by simp, ?_, ?_⟩
        · rw [List.mem_reverse, ← tailed]
          intro member
          have differs := List.mem_takeWhile_imp member
          exact absurd rfl (bne_iff_ne.mp differs)
        · rw [← List.reverse_reverse name, ← whole]
          simp
    · cases found
  · rintro ⟨stem, nonempty, undotted, rfl⟩
    have plain : ∀ character ∈ extension.reverse, (character != '.') = true := by
      intro character member
      rw [bne_iff_ne]
      rintro rfl
      exact undotted (List.mem_reverse.mp member)
    obtain ⟨last, before, backwards⟩ :=
      List.exists_cons_of_ne_nil (List.reverse_ne_nil_iff.mpr nonempty)
    have turned : (stem ++ '.' :: extension).reverse =
        extension.reverse ++ '.' :: last :: before := by
      rw [List.reverse_append, List.reverse_cons, List.append_assoc, backwards]
      rfl
    have tail : (extension.reverse ++ '.' :: last :: before).takeWhile (· != '.') =
        extension.reverse := by
      rw [List.takeWhile_append_of_pos plain]
      exact List.append_nil _
    unfold extensionOfName
    rw [turned, tail]
    simp only [List.drop_left, List.reverse_reverse]

end Path

namespace Config

/-- Whether the extension of a file name is accepted. -/
def AcceptsName (config : Config) (name : String) : Prop :=
  ∃ extension, Path.extensionOfName name.toList = some extension ∧
    config.acceptsExtension (String.ofList extension) = true

variable {config : Config} {name : String}

theorem bareExtension_eq {extension : String} {dots bare : List Char}
    (dotted : ∀ character ∈ dots, character = '.') (undotted : '.' ∉ bare)
    (split : extension.toList = dots ++ bare) : bareExtension extension = bare := by
  unfold bareExtension
  rw [split, List.dropWhile_append_of_pos fun character member =>
    beq_iff_eq.mpr (dotted character member)]
  cases bare with
  | nil => rfl
  | cons first rest =>
      apply List.dropWhile_cons_of_neg
      rw [beq_iff_eq]
      rintro rfl
      exact undotted List.mem_cons_self

theorem bareExtension_ofList {bare : List Char} (undotted : '.' ∉ bare) :
    bareExtension (String.ofList bare) = bare := by
  have split : (String.ofList bare).toList = [] ++ bare := String.toList_ofList
  exact bareExtension_eq (fun _character none => absurd none List.not_mem_nil) undotted split

/-- The names of source files: something, a dot, and an accepted extension without the dots in
front of it. -/
theorem acceptsName_iff :
    config.AcceptsName name ↔
      ∃ accepted ∈ config.fileExtensions, ∃ stem dots extension : List Char,
        stem ≠ [] ∧ (∀ character ∈ dots, character = '.') ∧ '.' ∉ extension ∧
          name.toList = stem ++ '.' :: extension ∧ accepted.toList = dots ++ extension := by
  unfold AcceptsName acceptsExtension
  simp only [Path.extensionOfName_eq_some_iff, List.any_eq_true, beq_iff_eq]
  constructor
  · rintro ⟨extension, ⟨stem, nonempty, undotted, split⟩, accepted, listed, same⟩
    rw [bareExtension_ofList undotted] at same
    refine ⟨accepted, listed, stem, accepted.toList.takeWhile (· == '.'), extension, nonempty, ?_,
      undotted, split, ?_⟩
    · intro character member
      have dot := List.mem_takeWhile_imp (p := (· == '.')) member
      exact beq_iff_eq.mp dot
    · have whole := List.takeWhile_append_dropWhile (p := (· == '.')) (l := accepted.toList)
      exact whole.symm.trans (congrArg _ same.symm)
  · rintro ⟨accepted, listed, stem, dots, extension, nonempty, dotted, undotted, split, spelled⟩
    refine ⟨extension, ⟨stem, nonempty, undotted, split⟩, accepted, listed, ?_⟩
    rw [bareExtension_ofList undotted, bareExtension_eq dotted undotted spelled]

variable (valid : Path.IsName name)

include valid

/-- The extension of a path is that of the name at its end. -/
theorem canParse_child (directory : String) :
    config.canParse (Path.child directory name) = true ↔ config.AcceptsName name := by
  unfold canParse AcceptsName
  rw [Path.extension?_child valid]
  cases Path.extensionOfName name.toList with
  | none => simp
  | some extension => simp

/-- What lies in an ignored directory is ignored. -/
theorem ignores_child {workingDirectory : List String} {directory : String}
    (ignored : config.ignores workingDirectory directory = true) :
    config.ignores workingDirectory (Path.child directory name) = true := by
  unfold ignores at ignored ⊢
  rw [List.any_eq_true] at ignored ⊢
  obtain ⟨place, listed, above⟩ := ignored
  refine ⟨place, listed, ?_⟩
  rw [ List.isPrefixOf_iff_prefix] at above ⊢
  rw [Path.location_child valid]
  exact above.trans (List.prefix_append _ _)

omit valid in
theorem ignores_below {workingDirectory : List String} {directory : String} {names : List String}
    (valid : ∀ name ∈ names, Path.IsName name)
    (ignored : config.ignores workingDirectory directory = true) :
    config.ignores workingDirectory (Path.below directory names) = true := by
  induction names generalizing directory with
  | nil => exact ignored
  | cons name names ih =>
      obtain ⟨here, later⟩ := List.forall_mem_cons.mp valid
      exact ih later (config.ignores_child here ignored)

end Config

end DocHarvest
