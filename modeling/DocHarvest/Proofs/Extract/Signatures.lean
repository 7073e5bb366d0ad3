import Mathlib.Data.List.Basic
import DocHarvest.Extract.Definition
import DocHarvest.Proofs.Extract.Renderings

/-!
Parameters of signatures.

Every part of a parameter list that declares a parameter gives one entry, in source order, and no
other part gives any.  The kind of an entry is that of its own part, except that a plain parameter
behind a bare star or a list splat can be given by keyword only.
-/

namespace DocHarvest

namespace Extract

open Program (Kind Role Tree)

/-! ### Shapes -/

/-- Whether a part of a parameter list declares a parameter. -/
def isParameter (part : Tree) : Bool :=
  [.identifier, .listSplatPattern, .dictionarySplatPattern, .typedParameter, .defaultParameter,
    .typedDefaultParameter].contains part.kind

/-- Whether a part is a splat of a kind, with an annotation or without. -/
def isSplat (kind : Kind) (part : Tree) : Bool :=
  part.kind == kind ||
    (part.kind == .typedParameter && (Tree.named part).head?.any fun inner => inner.kind == kind)

/-- Whether parameters behind a part can be given by keyword only. -/
def opensKeywords (part : Tree) : Bool :=
  part.kind == .keywordSeparator || isSplat .listSplatPattern part

def carriesDefault (part : Tree) : Bool :=
  (Tree.part? part .value).isSome

/-- The part of a parameter that is its name, with the stars of a splat. -/
def nameBearer? (part : Tree) : Option Tree :=
  match part.kind with
  | .typedParameter => (Tree.named part).head?
  | .defaultParameter | .typedDefaultParameter => Tree.part? part .name
  | _ => some part

/-- What the grammar says about the parts of parameter lists: an annotation stands behind a name or
a splat, and exactly the two kinds of parameters with a default have a value, and a name before
it. -/
structure ParameterShape (part : Tree) : Prop where
  typed : part.kind = .typedParameter → (Tree.named part).head?.any (fun inner =>
    [.identifier, .listSplatPattern, .dictionarySplatPattern].contains inner.kind) = true
  named : part.kind = .defaultParameter ∨ part.kind = .typedDefaultParameter →
    (Tree.part? part .name).isSome = true
  valued : carriesDefault part = true ↔
    part.kind = .defaultParameter ∨ part.kind = .typedDefaultParameter

instance (part : Tree) : Decidable (ParameterShape part) :=
  decidable_of_iff
    ((part.kind = .typedParameter → (Tree.named part).head?.any (fun inner =>
        [.identifier, .listSplatPattern, .dictionarySplatPattern].contains inner.kind) = true) ∧
      (part.kind = .defaultParameter ∨ part.kind = .typedDefaultParameter →
        (Tree.part? part .name).isSome = true) ∧
      (carriesDefault part = true ↔
        part.kind = .defaultParameter ∨ part.kind = .typedDefaultParameter))
    ⟨fun ⟨typed, named, valued⟩ => ⟨typed, named, valued⟩,
      fun shape => ⟨shape.typed, shape.named, shape.valued⟩⟩

/-! ### One parameter -/

section Readings

variable {part : Tree}

/-- The kind of a parameter by the part that declares it, behind a part that opens the parameters
for keywords or not. -/
def kindBehind (keywordOnly : Bool) (part : Tree) : ParameterKind :=
  if isSplat .listSplatPattern part then .variadic
  else if isSplat .dictionarySplatPattern part then .variadicKeyword
  else if keywordOnly then .keywordOnly
  else .positional

/-- The kind of a parameter by the kind of its name or splat. -/
def kindOfBearer (kind : Kind) : ParameterKind :=
  if kind = .listSplatPattern then .variadic
  else if kind = .dictionarySplatPattern then .variadicKeyword
  else .positional

theorem parameterOf?_bearer
    (kind : part.kind ∈ [Kind.identifier, .listSplatPattern, .dictionarySplatPattern]) :
    parameterOf? part =
      some ((Parameter.ofName (String.ofList part.text)).withKind (kindOfBearer part.kind)) := by
  unfold parameterOf?
  rw [Grammar.Tree.fold_eq]
  simp only [List.mem_cons, List.not_mem_nil, or_false] at kind
  rcases kind with kind | kind | kind
  · simp only [kind]
    rfl
  · simp only [kind]
    rfl
  · simp only [kind]
    rfl

theorem parameterOf?_typed (kind : part.kind = .typedParameter) {inner : Tree} {rest : List Tree}
    (first : Tree.named part = inner :: rest) :
    parameterOf? part = (parameterOf? inner).map (annotate part) := by
  unfold parameterOf?
  rw [Grammar.Tree.fold_eq, ofNamed_map, first]
  simp only [kind, List.map_cons]

theorem parameterOf?_default
    (kind : part.kind = .defaultParameter ∨ part.kind = .typedDefaultParameter)
    {name value : Tree} (named : Tree.part? part .name = some name)
    (valued : Tree.part? part .value = some value) :
    parameterOf? part =
      some ((annotate part (Parameter.ofName (String.ofList name.text))).withDefault
        (String.ofList (defaultText value))) := by
  unfold parameterOf?
  rw [Grammar.Tree.fold_eq]
  rcases kind with kind | kind
  · simp only [kind, named, valued, Option.map_some]
  · simp only [kind, named, valued, Option.map_some]

theorem parameterOf?_eq_none (other : isParameter part = false) : parameterOf? part = none := by
  unfold isParameter at other
  unfold parameterOf?
  rw [Grammar.Tree.fold_eq]
  dsimp only
  split
  all_goals simp_all

/-- What a part says about its parameter by itself. -/
structure Reads (part : Tree) (parameter : Parameter) : Prop where
  name : (nameBearer? part).map (fun bearer => String.ofList bearer.text) = some parameter.name
  kind : parameter.kind = kindBehind false part
  hasDefault : parameter.hasDefault = carriesDefault part
  defaultText : parameter.defaultText.isSome = carriesDefault part

theorem annotate_eq (tree : Tree) (parameter : Parameter) :
    ∃ typeText, annotate tree parameter = { parameter with typeText } := by
  unfold annotate
  split
  · exact ⟨_, rfl⟩
  · exact ⟨parameter.typeText, rfl⟩

namespace ParameterShape

variable (shape : ParameterShape part)

include shape

theorem reads_default
    (valued : part.kind = .defaultParameter ∨ part.kind = .typedDefaultParameter) :
    ∃ parameter, parameterOf? part = some parameter ∧ Reads part parameter := by
  have carries := shape.valued.mpr valued
  obtain ⟨name, named⟩ := Option.isSome_iff_exists.mp (shape.named valued)
  obtain ⟨value, given⟩ := Option.isSome_iff_exists.mp carries
  obtain ⟨typeText, annotated⟩ := annotate_eq part (Parameter.ofName (String.ofList name.text))
  refine ⟨_, parameterOf?_default valued named given, ?_, ?_, carries.symm, carries.symm⟩
  · rw [annotated]
    rcases valued with kind | kind
    · simp [nameBearer?, kind, named, Parameter.withDefault, Parameter.ofName]
    · simp [nameBearer?, kind, named, Parameter.withDefault, Parameter.ofName]
  · rw [annotated]
    rcases valued with kind | kind
    · simp [kindBehind, isSplat, kind, Parameter.withDefault, Parameter.ofName]
    · simp [kindBehind, isSplat, kind, Parameter.withDefault, Parameter.ofName]

theorem not_carriesDefault
    (plain : ¬(part.kind = .defaultParameter ∨ part.kind = .typedDefaultParameter)) :
    carriesDefault part = false := by
  rw [Bool.eq_false_iff]
  exact fun carries => plain (shape.valued.mp carries)

theorem reads_typed (typed : part.kind = .typedParameter) :
    ∃ parameter, parameterOf? part = some parameter ∧ Reads part parameter := by
  have bare := shape.not_carriesDefault (by simp [typed])
  obtain ⟨inner, opening, bearer⟩ := (Option.any_eq_true _ _).mp (shape.typed typed)
  obtain ⟨rest, first⟩ := List.head?_eq_some_iff.mp opening
  rw [List.contains_iff_mem] at bearer
  obtain ⟨typeText, annotated⟩ := annotate_eq part
    ((Parameter.ofName (String.ofList inner.text)).withKind (kindOfBearer inner.kind))
  have read := parameterOf?_typed typed first
  rw [parameterOf?_bearer bearer, Option.map_some, annotated] at read
  refine ⟨_, read, ?_, ?_, bare.symm, bare.symm⟩
  · simp [nameBearer?, typed, first, Parameter.withKind, Parameter.ofName]
  · simp [kindBehind, isSplat, typed, first, Parameter.withKind, kindOfBearer]

theorem reads_bearer
    (bearer : part.kind ∈ [Kind.identifier, .listSplatPattern, .dictionarySplatPattern]) :
    ∃ parameter, parameterOf? part = some parameter ∧ Reads part parameter := by
  have read := parameterOf?_bearer bearer
  simp only [List.mem_cons, List.not_mem_nil, or_false] at bearer
  have bare := shape.not_carriesDefault (by rcases bearer with kind | kind | kind <;> simp [kind])
  refine ⟨_, read, ?_, ?_, bare.symm, bare.symm⟩
  · rcases bearer with kind | kind | kind
    all_goals simp [nameBearer?, kind, Parameter.withKind, Parameter.ofName]
  · rcases bearer with kind | kind | kind
    all_goals simp [kindBehind, isSplat, kind, Parameter.withKind, kindOfBearer]

theorem reads (declared : isParameter part = true) :
    ∃ parameter, parameterOf? part = some parameter ∧ Reads part parameter := by
  unfold isParameter at declared
  rw [List.contains_iff_mem] at declared
  simp only [List.mem_cons, List.not_mem_nil, or_false] at declared
  rcases declared with name | list | dictionary | typed | valued
  · exact shape.reads_bearer (by simp [name])
  · exact shape.reads_bearer (by simp [list])
  · exact shape.reads_bearer (by simp [dictionary])
  · exact shape.reads_typed typed
  · exact shape.reads_default valued

theorem isSome_parameterOf? : (parameterOf? part).isSome = isParameter part := by
  cases declared : isParameter part with
  | false => rw [parameterOf?_eq_none declared, Option.isSome_none]
  | true =>
      obtain ⟨parameter, read, _reading⟩ := shape.reads declared
      rw [read, Option.isSome_some]

end ParameterShape

theorem isParameter_of_isSplat (splat : isSplat .listSplatPattern part = true) :
    isParameter part = true := by
  unfold isSplat at splat
  unfold isParameter
  rw [Bool.or_eq_true, Bool.and_eq_true, beq_iff_eq, beq_iff_eq] at splat
  rcases splat with kind | ⟨kind, _inner⟩
  · rw [kind]
    rfl
  · rw [kind]
    rfl

theorem isSplat_dictionary_of_list (splat : isSplat .listSplatPattern part = true) :
    isSplat .dictionarySplatPattern part = false := by
  unfold isSplat at splat ⊢
  rw [Bool.or_eq_true, Bool.and_eq_true, beq_iff_eq, beq_iff_eq] at splat
  rcases splat with kind | ⟨kind, inner⟩
  · simp [kind]
  · cases first : (Tree.named part).head? with
    | none => simp [kind]
    | some bearer =>
        rw [first, Option.any_some, beq_iff_eq] at inner
        simp [kind, inner]

end Readings

/-! ### Parameter lists -/

/-- A parameter where plain ones can be given by keyword only, or not. -/
def asKeyword (keywordOnly : Bool) (parameter : Parameter) : Parameter :=
  if keywordOnly && parameter.kind == .positional then parameter.withKind .keywordOnly
  else parameter

/-- The entry of a part where plain parameters can be given by keyword only, or not. -/
def parameterAfter? (keywordOnly : Bool) (part : Tree) : Option Parameter :=
  (parameterOf? part).map (asKeyword keywordOnly)

section Entries

variable {part : Tree} {parameter : Parameter} {keywordOnly : Bool}

theorem kindBehind_eq_variadic :
    kindBehind keywordOnly part = .variadic ↔ isSplat .listSplatPattern part = true := by
  unfold kindBehind
  split_ifs with list dictionary
  all_goals simp [list]

theorem kindBehind_eq_variadicKeyword :
    kindBehind keywordOnly part = .variadicKeyword ↔
      isSplat .dictionarySplatPattern part = true := by
  unfold kindBehind
  split_ifs with list dictionary
  · simp [isSplat_dictionary_of_list list]
  all_goals simp [dictionary]

theorem kindBehind_eq_keywordOnly :
    kindBehind keywordOnly part = .keywordOnly ↔
      isSplat .listSplatPattern part = false ∧ isSplat .dictionarySplatPattern part = false ∧
        keywordOnly = true := by
  unfold kindBehind
  split_ifs with list dictionary plain
  all_goals simp [*]

theorem kindBehind_eq_positional :
    kindBehind keywordOnly part = .positional ↔
      isSplat .listSplatPattern part = false ∧ isSplat .dictionarySplatPattern part = false ∧
        keywordOnly = false := by
  unfold kindBehind
  split_ifs with list dictionary plain
  all_goals simp [*]

theorem Reads.kind_asKeyword (reading : Reads part parameter) :
    (asKeyword keywordOnly parameter).kind = kindBehind keywordOnly part := by
  have kind := reading.kind
  unfold asKeyword
  cases keywordOnly with
  | false => exact kind
  | true =>
      unfold kindBehind at kind ⊢
      rw [if_neg Bool.false_ne_true] at kind
      split at kind
      · next list => simp [kind, list]
      · next list =>
          split at kind
          · next dictionary => simp [kind, list, dictionary]
          · next dictionary => simp [kind, list, dictionary, Parameter.withKind]

theorem parametersFrom_cons_of_other (other : isParameter part = false) (rest : List Tree) :
    parametersFrom keywordOnly (part :: rest) =
      parametersFrom (keywordOnly || opensKeywords part) rest := by
  have nothing := parameterOf?_eq_none other
  have plain : isSplat .listSplatPattern part = false := by
    rw [Bool.eq_false_iff]
    intro splat
    rw [isParameter_of_isSplat splat] at other
    cases other
  rw [parametersFrom, nothing, opensKeywords, plain, Bool.or_false]
  split
  · next kind => rw [kind, beq_self_eq_true, Bool.or_true]
  · next kind => rw [kind, beq_eq_false_iff_ne.mpr (by decide), Bool.or_false]
  · next kind => rw [kind, beq_eq_false_iff_ne.mpr (by decide), Bool.or_false]
  · next separator _ _ => rw [beq_eq_false_iff_ne.mpr separator, Bool.or_false]

theorem parametersFrom_cons_of_reads (declared : isParameter part = true)
    (read : parameterOf? part = some parameter) (reading : Reads part parameter)
    (rest : List Tree) :
    parametersFrom keywordOnly (part :: rest) =
      asKeyword keywordOnly parameter ::
        parametersFrom (keywordOnly || opensKeywords part) rest := by
  have kept {kind : Kind} (same : part.kind = kind)
      (passed : kind ∈ [Kind.keywordSeparator, .positionalSeparator, .comment]) : False := by
    rw [isParameter, same] at declared
    simp only [List.mem_cons, List.not_mem_nil, or_false] at passed
    rcases passed with rfl | rfl | rfl
    all_goals cases declared
  have opens : opensKeywords part = decide (parameter.kind = .variadic) := by
    have separator : part.kind ≠ .keywordSeparator := fun same => kept same (by decide)
    rw [opensKeywords, beq_eq_false_iff_ne.mpr separator, Bool.false_or, Bool.eq_iff_iff,
      decide_eq_true_iff, reading.kind, kindBehind_eq_variadic]
  rw [parametersFrom, read, opens]
  unfold asKeyword
  split
  · next same => exact (kept same (by decide)).elim
  · next same => exact (kept same (by decide)).elim
  · next same => exact (kept same (by decide)).elim
  · cases kind : parameter.kind with
    | positional =>
        cases keywordOnly with
        | false => simp [kind]
        | true => simp [kind]
    | variadic => simp [kind]
    | keywordOnly => simp [kind]
    | variadicKeyword => simp [kind]

end Entries

theorem parametersFrom_cons {part : Tree} (shape : ParameterShape part) (keywordOnly : Bool)
    (rest : List Tree) :
    parametersFrom keywordOnly (part :: rest) =
      (parameterAfter? keywordOnly part).toList ++
        parametersFrom (keywordOnly || opensKeywords part) rest := by
  unfold parameterAfter?
  cases declared : isParameter part with
  | false =>
      rw [parametersFrom_cons_of_other declared, parameterOf?_eq_none declared, Option.map_none,
        Option.toList_none, List.nil_append]
  | true =>
      obtain ⟨parameter, read, reading⟩ := shape.reads declared
      rw [parametersFrom_cons_of_reads declared read reading, read, Option.map_some,
        Option.toList_some, List.singleton_append]

theorem parametersFrom_append {front : List Tree} (shaped : ∀ part ∈ front, ParameterShape part)
    (keywordOnly : Bool) (back : List Tree) :
    parametersFrom keywordOnly (front ++ back) =
      parametersFrom keywordOnly front ++
        parametersFrom (keywordOnly || front.any opensKeywords) back := by
  induction front generalizing keywordOnly with
  | nil => rw [List.nil_append, List.any_nil, Bool.or_false, parametersFrom, List.nil_append]
  | cons part front ih =>
      obtain ⟨here, later⟩ := List.forall_mem_cons.mp shaped
      rw [List.cons_append, parametersFrom_cons here, parametersFrom_cons here, ih later,
        List.any_cons, Bool.or_assoc, List.append_assoc]

theorem length_parametersFrom {parts : List Tree} (shaped : ∀ part ∈ parts, ParameterShape part)
    (keywordOnly : Bool) :
    (parametersFrom keywordOnly parts).length = (parts.filter isParameter).length := by
  induction parts generalizing keywordOnly with
  | nil => rfl
  | cons part rest ih =>
      obtain ⟨here, later⟩ := List.forall_mem_cons.mp shaped
      have counted : (parameterAfter? keywordOnly part).isSome = isParameter part := by
        rw [parameterAfter?, Option.isSome_map, here.isSome_parameterOf?]
      rw [parametersFrom_cons here, List.length_append, ih later, List.filter_cons, ← counted]
      cases parameterAfter? keywordOnly part with
      | none => simp
      | some parameter => simp [Nat.add_comm]

/-- What a signature says about a parameter: by the part that declares it, and by the parts before
that one. -/
structure Describes (earlier : List Tree) (part : Tree) (parameter : Parameter) : Prop where
  name : (nameBearer? part).map (fun bearer => String.ofList bearer.text) = some parameter.name
  variadic : parameter.kind = .variadic ↔ isSplat .listSplatPattern part = true
  variadicKeyword : parameter.kind = .variadicKeyword ↔ isSplat .dictionarySplatPattern part = true
  keywordOnly : parameter.kind = .keywordOnly ↔
    isSplat .listSplatPattern part = false ∧ isSplat .dictionarySplatPattern part = false ∧
      ∃ before ∈ earlier, opensKeywords before = true
  positional : parameter.kind = .positional ↔
    isSplat .listSplatPattern part = false ∧ isSplat .dictionarySplatPattern part = false ∧
      ∀ before ∈ earlier, opensKeywords before = false
  hasDefault : parameter.hasDefault = true ↔ carriesDefault part = true
  defaultText : parameter.defaultText.isSome = true ↔ carriesDefault part = true

theorem Reads.describes {part : Tree} {parameter : Parameter} (reading : Reads part parameter)
    (earlier : List Tree) :
    Describes earlier part (asKeyword (earlier.any opensKeywords) parameter) := by
  have opened : (∃ before ∈ earlier, opensKeywords before = true) ↔
      earlier.any opensKeywords = true := List.any_eq_true.symm
  have closed : (∀ before ∈ earlier, opensKeywords before = false) ↔
      earlier.any opensKeywords = false := by simp
  have kind := @Reads.kind_asKeyword _ _ (earlier.any opensKeywords) reading
  refine ⟨?_, ?_, ?_, ?_, ?_, ?_, ?_⟩
  · rw [reading.name]
    unfold asKeyword
    split <;> rfl
  · rw [kind, kindBehind_eq_variadic]
  · rw [kind, kindBehind_eq_variadicKeyword]
  · rw [kind, opened, kindBehind_eq_keywordOnly]
  · rw [kind, closed, kindBehind_eq_positional]
  · rw [← reading.hasDefault]
    unfold asKeyword
    split <;> rfl
  · rw [← reading.defaultText]
    unfold asKeyword
    split <;> rfl

/-- A signature has one entry for each part that declares a parameter, in source order, and the
entry is what the part and the parts before it say. -/
theorem parameters_describe (list : Tree)
    (shaped : ∀ part ∈ Tree.named list, ParameterShape part) :
    (parameters list).length = ((Tree.named list).filter isParameter).length ∧
    ∀ front part back, Tree.named list = front ++ part :: back → isParameter part = true →
      ∃ parameter, (parameters list)[(front.filter isParameter).length]? = some parameter ∧
        Describes front part parameter := by
  refine ⟨length_parametersFrom shaped false, ?_⟩
  intro front part back split declared
  rw [split, List.forall_mem_append, List.forall_mem_cons] at shaped
  obtain ⟨before, here, _behind⟩ := shaped
  obtain ⟨parameter, read, reading⟩ := here.reads declared
  refine ⟨_, ?_, reading.describes front⟩
  unfold parameters
  rw [split, parametersFrom_append before, ← length_parametersFrom before false,
    List.getElem?_append_right (Nat.le_refl _), Nat.sub_self, parametersFrom_cons here,
    parameterAfter?, read, Bool.false_or]
  rfl

/-! ### A signature with parts of every kind -/

def bareLeaf (kind : Kind) (text : String) : Tree :=
  .leaf none kind [] text.toList .origin

def mark (text : String) : Tree :=
  bareLeaf (.literal text) text

/-- The annotated splat `*rest: int`. -/
def annotatedSplat : Tree :=
  .node none .typedParameter
    [.node none .listSplatPattern [mark "*", bareLeaf .identifier "rest"],
      mark ":", .node (some .type) .type [bareLeaf .identifier "int"]]

/-- The parameter `last=1`. -/
def lastWithDefault : Tree :=
  .node none .defaultParameter
    [(bareLeaf .identifier "last").inRole (some .name), mark "=",
      (bareLeaf .integer "1").inRole (some .value)]

/-- The signature `(first, /, (left, right), *rest: int, # note`, then `last=1, **options)`. -/
def mixedSignature : Tree :=
  .node none .parameters
    [mark "(", bareLeaf .identifier "first", mark ",",
      .node none .positionalSeparator [mark "/"], mark ",",
      .node none .tuplePattern
        [mark "(", bareLeaf .identifier "left", mark ",",
          bareLeaf .identifier "right", mark ")"],
      mark ",", annotatedSplat, mark ",", bareLeaf .comment "# note",
      lastWithDefault, mark ",",
      .node none .dictionarySplatPattern [mark "**", bareLeaf .identifier "options"],
      mark ")"]

theorem parameters_describe_mixedSignature :
    (∀ part ∈ Tree.named mixedSignature, ParameterShape part) ∧
      (parameters mixedSignature).length = 4 ∧
      (∃ parameter, (parameters mixedSignature)[1]? = some parameter ∧
        parameter.name = "*rest" ∧ parameter.kind = .variadic ∧ parameter.hasDefault = false) ∧
      ∃ parameter, (parameters mixedSignature)[2]? = some parameter ∧
        parameter.name = "last" ∧ parameter.kind = .keywordOnly ∧ parameter.hasDefault = true := by
  have shaped : ∀ part ∈ Tree.named mixedSignature, ParameterShape part := by decide
  obtain ⟨count, each⟩ := parameters_describe mixedSignature shaped
  obtain ⟨rest, foundRest, describesRest⟩ :=
    each ((Tree.named mixedSignature).take 3) annotatedSplat ((Tree.named mixedSignature).drop 4)
      rfl rfl
  obtain ⟨last, foundLast, describesLast⟩ :=
    each ((Tree.named mixedSignature).take 5) lastWithDefault ((Tree.named mixedSignature).drop 6)
      rfl rfl
  refine ⟨shaped, count.trans (by decide), ⟨rest, foundRest, ?_, ?_, ?_⟩,
    ⟨last, foundLast, ?_, ?_, ?_⟩⟩
  · exact (Option.some.inj describesRest.name).symm
  · exact describesRest.variadic.mpr (by decide)
  · exact Bool.eq_false_iff.mpr fun given => absurd (describesRest.hasDefault.mp given) (by decide)
  · exact (Option.some.inj describesLast.name).symm
  · have before : annotatedSplat ∈ (Tree.named mixedSignature).take 5 :=
      List.mem_of_getElem? (show ((Tree.named mixedSignature).take 5)[3]? = _ from rfl)
    exact describesLast.keywordOnly.mpr ⟨by decide, by decide, annotatedSplat, before, by decide⟩
  · exact describesLast.hasDefault.mpr (by decide)

end Extract

end DocHarvest
