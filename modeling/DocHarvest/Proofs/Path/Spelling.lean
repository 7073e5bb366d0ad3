import Mathlib.Logic.Relation
import DocHarvest.Proofs.Path.Joining

/-!
Spellings of a path.

A path is made absolute and then shortened: pieces that lead nowhere are dropped, and so is a name
together with the step to the parent behind it.  What cannot be shortened is a list of names, and
every way to shorten a path ends at the same one, the location of the path.  So other spellings of
the path have the same location, and a place is ignored for what it is and not for how it is
written.
-/

namespace DocHarvest

namespace Path

/-- Pieces that lead from every place back to it: between two slashes in a row or behind the last
one, a dot, and a name with the step to the parent behind it. -/
inductive Idle : List String → Prop where
  | empty : Idle [""]
  | current : Idle ["."]
  | detour {name : String} (valid : IsName name) : Idle [name, ".."]

/-- A step from the pieces of an absolute path to fewer pieces.  The parent of the root is the
root. -/
inductive Shortens : List String → List String → Prop where
  | idle {unused : List String} (front back : List String) (idle : Idle unused) :
      Shortens (front ++ (unused ++ back)) (front ++ back)
  | top (back : List String) : Shortens (".." :: back) back

/-- The path from the root that a path stands for in a directory. -/
def absolute (directory path : String) : String :=
  if isAbsolute path then path else child directory path

/-- The names that are left when a path is made absolute and shortened as far as possible. -/
structure IsNormalForm (directory path : String) (names : List String) : Prop where
  reached : Relation.ReflTransGen Shortens (pieces (absolute directory path)) names
  plain : ∀ name ∈ names, IsName name

/-- The same path with idle pieces put in somewhere, or behind the working directory.  Nothing is
put in before the slash of the root, nor one at the beginning of a relative path. -/
inductive Respelling (directory : String) : String → String → Prop where
  | insert {path longer : String} {front unused back : List String} (idle : Idle unused)
      (before : pieces path = front ++ back) (after : pieces longer = front ++ (unused ++ back))
      (kept : isAbsolute longer = isAbsolute path) : Respelling directory path longer
  | resolve {path : String} (relative : isAbsolute path = false) :
      Respelling directory path (child directory path)

/-! ### Shortening -/

/-- The names to which pieces lead from the root. -/
def settle (pieces : List String) : List String :=
  (descend [] (laterComponents pieces)).reverse

theorem descend_idle {unused : List String} (idle : Idle unused) (place : List String) :
    descend place (laterComponents unused) = place := by
  cases idle with
  | empty => rfl
  | current => rfl
  | @detour name valid =>
      have up : laterComponents [".."] = [.parent] := by decide
      rw [← List.singleton_append, laterComponents_append, laterComponents_name valid, up]
      rfl

theorem settle_idle {unused : List String} (idle : Idle unused) (front back : List String) :
    settle (front ++ (unused ++ back)) = settle (front ++ back) := by
  unfold settle
  rw [laterComponents_append, laterComponents_append, laterComponents_append, descend_append,
    descend_append, descend_append, descend_idle idle]

theorem Shortens.settle_eq {longer shorter : List String} (step : Shortens longer shorter) :
    settle longer = settle shorter := by
  cases step with
  | idle front back idle => exact settle_idle idle front back
  | top back => rfl

theorem settle_eq_of_reached {longer shorter : List String}
    (steps : Relation.ReflTransGen Shortens longer shorter) : settle longer = settle shorter := by
  induction steps with
  | refl => rfl
  | tail _steps step ih => exact ih.trans step.settle_eq

theorem descend_names {names : List String} (plain : ∀ name ∈ names, IsName name)
    (place : List String) : descend place (laterComponents names) = names.reverse ++ place := by
  induction names generalizing place with
  | nil => rfl
  | cons name names ih =>
      obtain ⟨here, later⟩ := List.forall_mem_cons.mp plain
      rw [← List.singleton_append, laterComponents_append, laterComponents_name here,
        List.singleton_append, descend, ih later, List.singleton_append, List.reverse_cons,
        List.append_assoc, List.singleton_append]

theorem settle_names {names : List String} (plain : ∀ name ∈ names, IsName name) :
    settle names = names := by
  unfold settle
  rw [descend_names plain, List.append_nil, List.reverse_reverse]

/-- Behind names that are settled, the other pieces can be settled from left to right. -/
private theorem reaches_descend {place : List String} (plain : ∀ name ∈ place, IsName name)
    {pieces : List String} (whole : ∀ piece ∈ pieces, '/' ∉ piece.toList) :
    Relation.ReflTransGen Shortens (place.reverse ++ pieces)
        (descend place (laterComponents pieces)).reverse ∧
      ∀ name ∈ descend place (laterComponents pieces), IsName name := by
  induction pieces generalizing place with
  | nil =>
      rw [List.append_nil]
      exact ⟨.refl, plain⟩
  | cons piece pieces ih =>
      obtain ⟨here, later⟩ := List.forall_mem_cons.mp whole
      rw [← List.singleton_append, laterComponents_append, descend_append]
      by_cases unused : Idle [piece]
      · rw [descend_idle unused]
        obtain ⟨steps, names⟩ := ih plain later
        exact ⟨.head (.idle _ _ unused) steps, names⟩
      · by_cases up : piece = ".."
        · subst up
          have parent : descend place (laterComponents [".."]) = place.tail := by rfl
          rw [parent]
          obtain ⟨steps, names⟩ := ih (fun name member => plain name (List.mem_of_mem_tail member))
            later
          refine ⟨.head ?_ steps, names⟩
          cases place with
          | nil => exact .top pieces
          | cons name place =>
              rw [List.reverse_cons, List.append_assoc]
              exact .idle _ _ (.detour (plain name List.mem_cons_self))
        · have valid : IsName piece := by
            refine ⟨?_, ?_, up, here⟩
            · rintro rfl
              exact unused .empty
            · rintro rfl
              exact unused .current
          have inner : descend place (laterComponents [piece]) = piece :: place := by
            rw [laterComponents_name valid]
            rfl
          have steps := ih (List.forall_mem_cons.mpr ⟨valid, plain⟩) later
          rw [List.reverse_cons, List.append_assoc] at steps
          rw [inner]
          exact steps

/-! ### Normal forms -/

theorem piecesFrom_whole {known : List Char} (plain : '/' ∉ known) (text : List Char) :
    ∀ piece ∈ piecesFrom known text, '/' ∉ piece.toList := by
  induction text generalizing known with
  | nil =>
      intro piece member
      rw [piecesFrom, List.mem_singleton] at member
      rw [member, String.toList_ofList, List.mem_reverse]
      exact plain
  | cons character text ih =>
      rw [piecesFrom]
      split
      · intro piece member
        rcases List.mem_cons.mp member with first | later
        · rw [first, String.toList_ofList, List.mem_reverse]
          exact plain
        · exact ih List.not_mem_nil piece later
      · next other =>
          exact ih fun member => (List.mem_cons.mp member).elim (fun same => other same.symm) plain

section Directory

variable {directory : String} (rooted : isAbsolute directory = true)

include rooted

theorem location_of_absolute (workingDirectory : List String) :
    location workingDirectory directory = settle (pieces directory) := by
  unfold location components settle
  rw [if_pos rooted]
  rfl

omit rooted in
theorem settle_child (path : String) :
    settle (pieces (child directory path)) = settle (pieces directory ++ pieces path) := by
  obtain ⟨front, inner, same | trailing⟩ := pieces_child directory path
  · rw [inner, same]
  · rw [inner, trailing, List.append_assoc, settle_idle .empty]

theorem location_eq_settle (path : String) :
    location (location [] directory) path = settle (pieces (absolute directory path)) := by
  unfold absolute
  split
  · next already => exact location_of_absolute already _
  · next relative =>
      have here := location_of_absolute rooted []
      rw [settle_child, here]
      unfold location components settle
      rw [if_neg relative, List.reverse_reverse, laterComponents_append, descend_append]
      split
      · rfl
      · rfl

/-- The location of a path as seen from a directory is the only normal form of the path. -/
theorem isNormalForm_iff {path : String} {names : List String} :
    IsNormalForm directory path names ↔ names = location (location [] directory) path := by
  rw [location_eq_settle rooted]
  constructor
  · rintro ⟨reached, plain⟩
    rw [settle_eq_of_reached reached, settle_names plain]
  · rintro rfl
    have whole : ∀ piece ∈ pieces (absolute directory path), '/' ∉ piece.toList :=
      piecesFrom_whole List.not_mem_nil _
    have nothing : ∀ name ∈ ([] : List String), IsName name := List.forall_mem_nil _
    obtain ⟨reached, plain⟩ := reaches_descend nothing whole
    refine ⟨reached, ?_⟩
    intro name member
    exact plain name (List.mem_reverse.mp member)

theorem Respelling.location_eq {path other : String} (spelled : Respelling directory path other) :
    location (location [] directory) path = location (location [] directory) other := by
  rw [location_eq_settle rooted, location_eq_settle rooted]
  cases spelled with
  | insert idle before after kept =>
      unfold absolute
      rw [kept]
      split
      · rw [before, after, settle_idle idle]
      · rw [settle_child, settle_child, before, after, ← List.append_assoc, ← List.append_assoc,
          settle_idle idle]
  | resolve relative =>
      have resolved : isAbsolute (child directory path) = true :=
        (isAbsolute_child directory relative).trans rooted
      unfold absolute
      rw [if_pos resolved, relative, if_neg Bool.false_ne_true]

theorem location_eq_of_respelled {path other : String}
    (spelled : Relation.EqvGen (Respelling directory) path other) :
    location (location [] directory) path = location (location [] directory) other := by
  induction spelled with
  | rel _path _other step => exact step.location_eq rooted
  | refl _path => rfl
  | symm _path _other _spelled ih => exact ih.symm
  | trans _path _middle _other _first _second ihFirst ihSecond => exact ihFirst.trans ihSecond

end Directory

end Path

namespace Config

/-- Ignored are the places at and below those of the ignored paths, where the place of a path is its
normal form.  Other spellings of the path and of the ignored paths give the same answer, and all
below an ignored path is ignored. -/
theorem ignores_by_normalForm {directory : String} (rooted : Path.isAbsolute directory = true)
    (config : Config) (path : String) :
    (∀ path, ∃! names, Path.IsNormalForm directory path names) ∧
    (config.ignores (Path.location [] directory) path = true ↔
      ∃ ignored ∈ config.ignorePaths, ∃ above here, Path.IsNormalForm directory ignored above ∧
        Path.IsNormalForm directory path here ∧ above <+: here) ∧
    (∀ other ignorePaths, Relation.EqvGen (Path.Respelling directory) path other →
      List.Forall₂ (Relation.EqvGen (Path.Respelling directory)) config.ignorePaths ignorePaths →
      { config with ignorePaths }.ignores (Path.location [] directory) other =
        config.ignores (Path.location [] directory) path) ∧
    (config.ignores (Path.location [] directory) path = true →
      ∀ names, (∀ name ∈ names, Path.IsName name) →
        config.ignores (Path.location [] directory) (Path.below path names) = true) := by
  refine ⟨?_, ?_, ?_, ?_⟩
  · intro path
    refine ⟨_, (Path.isNormalForm_iff rooted).mpr rfl, ?_⟩
    intro names normal
    exact (Path.isNormalForm_iff rooted).mp normal
  · unfold ignores
    simp only [Path.isNormalForm_iff rooted, List.any_eq_true,  List.isPrefixOf_iff_prefix,
      exists_eq_left, exists_and_left]
  · intro other ignorePaths spelled ignored
    unfold ignores
    rw [Path.location_eq_of_respelled rooted spelled]
    generalize config.ignorePaths = known at ignored
    induction ignored with
    | nil => rfl
    | cons first _rest ih =>
        rw [List.any_cons, List.any_cons, ih, Path.location_eq_of_respelled rooted first]
  · intro ignored names plain
    exact ignores_below plain ignored

theorem ignores_by_normalForm_generated :
    Path.isAbsolute "/srv" = true ∧
      (Config.default.withIgnorePath "out/generated").ignores (Path.location [] "/srv")
        "out/generated" = true ∧
      (Config.default.withIgnorePath "/srv/out/generated/").ignores (Path.location [] "/srv")
        "out/src/../generated" = true ∧
      (Config.default.withIgnorePath "out/generated").ignores (Path.location [] "/srv")
        "out/generated/models.py" = true := by
  have rooted : Path.isAbsolute "/srv" = true := by decide
  have laws := ignores_by_normalForm rooted (Config.default.withIgnorePath "out/generated")
    "out/generated"
  obtain ⟨_unique, places, spellings, inside⟩ := laws
  have ignored := places.mpr ⟨"out/generated", by decide, ["srv", "out", "generated"],
    ["srv", "out", "generated"], (Path.isNormalForm_iff rooted).mpr (by decide),
    (Path.isNormalForm_iff rooted).mpr (by decide), List.prefix_refl _⟩
  have valid : Path.IsName "src" := by decide
  have detour : Path.Respelling "/srv" "out/generated" "out/src/../generated" :=
    @Path.Respelling.insert "/srv" "out/generated" "out/src/../generated" ["out"] ["src", ".."]
      ["generated"] (.detour valid) (by decide) (by decide) (by decide)
  have slash : Path.Respelling "/srv" "/srv/out/generated" "/srv/out/generated/" :=
    @Path.Respelling.insert "/srv" "/srv/out/generated" "/srv/out/generated/"
      ["", "srv", "out", "generated"] [""] [] .empty (by decide) (by decide) (by decide)
  have resolved : Path.Respelling "/srv" "out/generated" "/srv/out/generated" :=
    .resolve (by decide)
  have respelled := spellings "out/src/../generated" ["/srv/out/generated/"] (.rel _ _ detour)
    (.cons (.trans _ _ _ (.rel _ _ resolved) (.rel _ _ slash)) .nil)
  exact ⟨rooted, ignored, respelled.trans ignored, inside ignored ["models.py"] (by decide)⟩

end Config

end DocHarvest
