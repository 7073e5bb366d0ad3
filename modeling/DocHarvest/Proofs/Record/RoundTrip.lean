import DocHarvest.Proofs.Inheritance.Groups
import DocHarvest.Proofs.Record.Fields

/-!
Records survive their text.

Every record is read back from the text that is written of it, as long as its counts fit into 64
bits and each ancestor has one group of inherited methods.
-/

namespace DocHarvest

open Json

/-! ### Docstrings -/

theorem DocParameter.restores (parameter : DocParameter) :
    Restores toJson ofJson? parameter := by
  have typeName := Restores.textOrNull parameter.typeName
  refine Restores.record (by decide) (List.Sublist.refl _) ?plain ?decoded
  case plain => simp [typeName.plain]
  case decoded => simp [typeName.decoded]

theorem DocReturn.restores (returns : DocReturn) : Restores toJson ofJson? returns := by
  have typeName := Restores.textOrNull returns.typeName
  refine Restores.record (by decide) (List.Sublist.refl _) ?plain ?decoded
  case plain => simp [typeName.plain]
  case decoded => simp [typeName.decoded]

theorem DocRaise.restores (raised : DocRaise) : Restores toJson ofJson? raised := by
  refine Restores.record (by decide) (List.Sublist.refl _) ?plain ?decoded
  case plain => simp
  case decoded => simp

theorem Docstring.restores (docstring : Docstring) : Restores toJson ofJson? docstring := by
  have parameters := Restores.list fun parameter (_ : parameter ∈ docstring.parameters) =>
    parameter.restores
  have returns := Restores.orNull rfl fun present (_ : present ∈ docstring.returns) =>
    present.restores
  have raises := Restores.list fun raised (_ : raised ∈ docstring.raises) => raised.restores
  have examples := Restores.texts docstring.examples
  refine Restores.record (by decide) (List.Sublist.refl _) ?plain ?decoded
  case plain => simp [parameters.plain, returns.plain, raises.plain, examples.plain]
  case decoded => simp [parameters.decoded, returns.decoded, raises.decoded, examples.decoded]

/-! ### Functions -/

theorem ParameterKind.restores (kind : ParameterKind) : Restores toJson ofJson? kind := by
  refine ⟨.string kind.token, ?_⟩
  cases kind <;> rfl

theorem Parameter.restores (parameter : Parameter) : Restores toJson ofJson? parameter := by
  have typeText := Restores.textOrNull parameter.typeText
  have defaultText := Restores.textOrNull parameter.defaultText
  have kind := parameter.kind.restores
  refine Restores.record (by decide) (List.Sublist.refl _) ?plain ?decoded
  case plain => simp [typeText.plain, defaultText.plain, kind.plain]
  case decoded => simp [typeText.decoded, defaultText.decoded, kind.decoded]

/-- Lines are counted with 64 bits. -/
def FunctionDoc.Representable (function : FunctionDoc) : Prop :=
  function.line < countLimit

theorem FunctionDoc.restores {function : FunctionDoc} (representable : function.Representable) :
    Restores toJson ofJson? function := by
  have parameters := Restores.list fun parameter (_ : parameter ∈ function.parameters) =>
    parameter.restores
  have returnType := Restores.textOrNull function.returnType
  have docstring := function.docstring.restores
  have decorators := Restores.texts function.decorators
  have line := Restores.count representable
  have overrides := Restores.textOrNull function.overrides
  have inheritedFrom := Restores.textOrNull function.inheritedFrom
  -- the first thirteen fields are always written, the last three only when they are set
  refine Restores.record (by decide) ?keys ?plain ?decoded
  case keys =>
    simp only [memberIfTrue_eq, List.map_append]
    exact (((List.Sublist.refl _).append (keys_memberIfSome _ _ _)).append
      (keys_memberIfSome _ _ _)).append (keys_memberIfSome _ _ _)
  case plain =>
    simp only [memberIfTrue_eq, List.forall_mem_append]
    refine ⟨⟨⟨?_, plain_memberIfSome overrides.plain⟩, plain_memberIfSome (plain_flagged _)⟩,
      plain_memberIfSome inheritedFrom.plain⟩
    simp [parameters.plain, returnType.plain, docstring.plain, decorators.plain, line.plain]
  case decoded =>
    simp [memberIfTrue_eq, parameters.decoded, returnType.decoded, docstring.decoded,
      decorators.decoded, line.decoded, readOr_ifSome overrides, readOr_flagged,
      readOr_ifSome inheritedFrom]

/-! ### Inherited methods -/

namespace Inherited

/-- Groups that were opened and appended to; these are the ones with distinct ancestors. -/
inductive Built : Inherited → Prop
  | empty : Built empty
  | extend {inherited : Inherited} (built : Built inherited) (ancestor : String)
      (methods : List FunctionDoc) : Built (inherited.extend ancestor methods)

private theorem foldl_extend_new (known entries : List (String × List FunctionDoc))
    (distinct : ((known ++ entries).map Prod.fst).Nodup) :
    entries.foldl (fun (inherited : Inherited) (ancestor, methods) =>
      inherited.extend ancestor methods) (.mk known) = .mk (known ++ entries) := by
  induction entries generalizing known with
  | nil =>
      rw [List.append_nil]
      rfl
  | cons entry entries ih =>
      obtain ⟨ancestor, methods⟩ := entry
      have new : ancestor ∉ known.map Prod.fst := by
        intro member
        rw [List.map_append, List.nodup_append] at distinct
        exact distinct.2.2 ancestor member ancestor List.mem_cons_self rfl
      rw [List.append_cons] at distinct ⊢
      rw [List.foldl_cons, ← ih _ distinct]
      simp only [extend, extendGroups_new methods new]

/-- Groups of distinct ancestors are gathered as they are. -/
theorem ofEntries_groups {inherited : Inherited} (distinct : inherited.ancestors.Nodup) :
    ofEntries inherited.groups = inherited :=
  foldl_extend_new [] inherited.groups distinct

theorem built_ofEntries (entries : List (String × List FunctionDoc)) :
    Built (ofEntries entries) :=
  List.foldlRecOn entries _ .empty fun _ built entry _ => built.extend entry.1 entry.2

theorem built_iff {inherited : Inherited} : Built inherited ↔ inherited.ancestors.Nodup := by
  constructor
  · intro built
    induction built with
    | empty => exact List.nodup_nil
    | extend _ ancestor methods ih => exact nodup_ancestors_extend _ ancestor methods ih
  · intro distinct
    rw [← ofEntries_groups distinct]
    exact built_ofEntries inherited.groups

structure Representable (inherited : Inherited) : Prop where
  built : Built inherited
  methods : ∀ group ∈ inherited.groups, ∀ method ∈ group.2, method.Representable

theorem restores {inherited : Inherited} (representable : inherited.Representable) :
    Restores toJson ofJson? inherited := by
  have group : ∀ entry ∈ inherited.groups,
      Restores (fun methods => .array (methods.map FunctionDoc.toJson))
        (list? FunctionDoc.ofJson?) entry.2 := by
    intro entry member
    exact Restores.list fun method known =>
      FunctionDoc.restores (representable.methods entry member method known)
  constructor
  · apply Plain.object
    intro member present
    obtain ⟨entry, known, rfl⟩ := List.mem_map.mp present
    exact (group entry known).plain
  · have entries : (inherited.groups.map fun (ancestor, methods) =>
        (ancestor, Json.array (methods.map FunctionDoc.toJson))).mapM groupOfJson? =
          some inherited.groups := by
      generalize inherited.groups = groups at group
      induction groups with
      | nil => rfl
      | cons entry groups ih =>
          have first := (group entry List.mem_cons_self).decoded
          have later := ih fun entry member => group entry (List.mem_cons_of_mem _ member)
          simp [groupOfJson?, first, later]
    have distinct := built_iff.mp representable.built
    rw [toJson, ofJson?, entries, Option.map_some, ofEntries_groups distinct]

end Inherited

/-! ### Classes, files and batches -/

structure ClassDoc.Representable (record : ClassDoc) : Prop where
  line : record.line < countLimit
  methods : ∀ method ∈ record.methods, method.Representable
  inherited : ∀ inherited ∈ record.inherited, inherited.Representable

theorem ClassDoc.restores {record : ClassDoc} (representable : record.Representable) :
    Restores toJson ofJson? record := by
  have baseNames := Restores.texts record.baseNames
  have methods := Restores.list fun method known =>
    FunctionDoc.restores (representable.methods method known)
  have docstring := record.docstring.restores
  have decorators := Restores.texts record.decorators
  have line := Restores.count representable.line
  have chain := Restores.orNull rfl fun names (_ : names ∈ record.chain) => Restores.texts names
  have inherited := Restores.orNull rfl fun inherited known =>
    Inherited.restores (representable.inherited inherited known)
  have resolutionOrder := Restores.orNull rfl fun names (_ : names ∈ record.resolutionOrder) =>
    Restores.texts names
  refine Restores.record (by decide) ?keys ?plain ?decoded
  case keys =>
    simp only [List.map_append]
    exact (((List.Sublist.refl _).append (keys_memberIfSome _ _ _)).append
      (keys_memberIfSome _ _ _)).append (keys_memberIfSome _ _ _)
  case plain =>
    simp only [List.forall_mem_append]
    refine ⟨⟨⟨?_, plain_memberIfSome chain.plain⟩, plain_memberIfSome inherited.plain⟩,
      plain_memberIfSome resolutionOrder.plain⟩
    simp [baseNames.plain, methods.plain, docstring.plain, decorators.plain, line.plain]
  case decoded =>
    simp [baseNames.decoded, methods.decoded, docstring.decoded, decorators.decoded, line.decoded,
      readOr_ifSome chain, readOr_ifSome inherited, readOr_ifSome resolutionOrder]

structure FileDoc.Representable (file : FileDoc) : Prop where
  functions : ∀ function ∈ file.functions, function.Representable
  classes : ∀ record ∈ file.classes, record.Representable

theorem FileDoc.restores {file : FileDoc} (representable : file.Representable) :
    Restores toJson ofJson? file := by
  have moduleDocstring := Restores.orNull rfl
    fun docstring (_ : docstring ∈ file.moduleDocstring) => docstring.restores
  have functions := Restores.list fun function known =>
    FunctionDoc.restores (representable.functions function known)
  have classes := Restores.list fun record known =>
    ClassDoc.restores (representable.classes record known)
  refine Restores.record (by decide) (List.Sublist.refl _) ?plain ?decoded
  case plain => simp [moduleDocstring.plain, functions.plain, classes.plain]
  case decoded => simp [moduleDocstring.decoded, functions.decoded, classes.decoded]

theorem Failure.restores (failure : Failure) : Restores toJson ofJson? failure := by
  refine Restores.record (by decide) (List.Sublist.refl _) ?plain ?decoded
  case plain => simp
  case decoded => simp

def Batch.Representable (batch : Batch) : Prop :=
  ∀ file ∈ batch.files, file.Representable

theorem Batch.restores {batch : Batch} (representable : batch.Representable) :
    Restores toJson ofJson? batch := by
  have files := Restores.list fun file known => FileDoc.restores (representable file known)
  have failures := Restores.list fun failure (_ : failure ∈ batch.failures) => failure.restores
  refine Restores.record (by decide) (List.Sublist.refl _) ?plain ?decoded
  case plain => simp [files.plain, failures.plain]
  case decoded => simp [files.decoded, failures.decoded]

/-! ### Configurations -/

theorem Style.restores (style : Style) : Restores toJson ofJson? style := by
  refine ⟨.string style.token, ?_⟩
  cases style <;> rfl

def Config.Representable (config : Config) : Prop :=
  config.maxFileSize < countLimit

theorem Config.restores {config : Config} (representable : config.Representable) :
    Restores toJson ofJson? config := by
  have style := config.style.restores
  have maxFileSize := Restores.count representable
  have fileExtensions := Restores.texts config.fileExtensions
  have excludeDirs := Restores.texts config.excludeDirs
  have ignorePaths := Restores.texts config.ignorePaths
  refine Restores.record (by decide) (List.Sublist.refl _) ?plain ?decoded
  case plain =>
    simp [style.plain, maxFileSize.plain, fileExtensions.plain, excludeDirs.plain,
      ignorePaths.plain]
  case decoded =>
    simp [style.decoded, maxFileSize.decoded, fileExtensions.decoded, excludeDirs.decoded,
      ignorePaths.decoded]

/-! ### Texts -/

/-- Every record is read back from its text, laid out or on one line. -/
theorem records_survive_text :
    (∀ file : FileDoc, file.Representable →
      (ofText? file.toText).bind FileDoc.ofJson? = some file ∧
        (ofText? file.toJson.toCompact).bind FileDoc.ofJson? = some file) ∧
    (∀ record : ClassDoc, record.Representable →
      Survives ClassDoc.toJson ClassDoc.ofJson? record) ∧
    (∀ function : FunctionDoc, function.Representable →
      Survives FunctionDoc.toJson FunctionDoc.ofJson? function) ∧
    (∀ docstring : Docstring, Survives Docstring.toJson Docstring.ofJson? docstring) ∧
    (∀ inherited : Inherited, inherited.Representable →
      Survives Inherited.toJson Inherited.ofJson? inherited) ∧
    (∀ batch : Batch, batch.Representable → Survives Batch.toJson Batch.ofJson? batch) ∧
    (∀ config : Config, config.Representable →
      Survives Config.toJson Config.ofJson? config) := by
  refine ⟨?file, ?record, ?function, ?docstring, ?inherited, ?batch, ?config⟩
  case file => exact fun file representable => (FileDoc.restores representable).survives
  case record => exact fun record representable => (ClassDoc.restores representable).survives
  case function =>
    exact fun function representable => (FunctionDoc.restores representable).survives
  case docstring => exact fun docstring => docstring.restores.survives
  case inherited =>
    exact fun inherited representable => (Inherited.restores representable).survives
  case batch => exact fun batch representable => (Batch.restores representable).survives
  case config => exact fun config representable => (Config.restores representable).survives

/-- A copy that sets what is otherwise left out, at the last line there can be. -/
def thornyMethod : FunctionDoc :=
  { (FunctionDoc.ofName "say \"\\\x01\u2028\"" (countLimit - 1)).inheritedCopy "Zebra" with
    parameters := [(Parameter.ofName "**rest").withKind .variadicKeyword]
    overrides := some "" }

/-- The ancestors are not in alphabetical order, and one of them has nothing to give. -/
def thornyInherited : Inherited :=
  ((Inherited.empty.push "Zebra" thornyMethod).ensure "null").push "Ape" thornyMethod

def thornyClass : ClassDoc :=
  { ClassDoc.ofName "C" 7 with chain := some [], inherited := some thornyInherited }

def thornyFile : FileDoc :=
  { FileDoc.empty "a\tb.py" with
    moduleDocstring := some .empty
    functions := [FunctionDoc.ofName "" 0]
    classes := [thornyClass] }

theorem records_survive_text_thornyFile :
    (thornyFile.Representable ∧ (ofText? thornyFile.toText).bind FileDoc.ofJson? = some thornyFile ∧
      (ofText? thornyFile.toJson.toCompact).bind FileDoc.ofJson? = some thornyFile) ∧
    (thornyClass.Representable ∧ Survives ClassDoc.toJson ClassDoc.ofJson? thornyClass) ∧
    (thornyMethod.Representable ∧ Survives FunctionDoc.toJson FunctionDoc.ofJson? thornyMethod) ∧
    (thornyInherited.Representable ∧
      Survives Inherited.toJson Inherited.ofJson? thornyInherited) ∧
    (Batch.Representable ⟨[thornyFile], [⟨"", "\n"⟩]⟩ ∧
      Survives Batch.toJson Batch.ofJson? ⟨[thornyFile], [⟨"", "\n"⟩]⟩) ∧
    (Config.default.Representable ∧ Survives Config.toJson Config.ofJson? .default) := by
  obtain ⟨files, classes, functions, _, inherited, batches, configs⟩ := records_survive_text
  have method : thornyMethod.Representable := by
    change countLimit - 1 < countLimit
    decide
  have gathered : thornyInherited.Representable := by
    refine ⟨.extend (.extend (.extend .empty _ _) _ _) _ _, ?_⟩
    have groups : thornyInherited.groups =
        [("Zebra", [thornyMethod]), ("null", []), ("Ape", [thornyMethod])] := rfl
    simp [groups, method]
  have record : thornyClass.Representable := by
    refine ⟨by decide, by simp [thornyClass, ClassDoc.ofName], ?_⟩
    simp [thornyClass, gathered]
  have file : thornyFile.Representable := by
    refine ⟨?_, by simp [thornyFile, record]⟩
    simp [thornyFile, FunctionDoc.Representable, FunctionDoc.ofName, countLimit]
  have batch : Batch.Representable ⟨[thornyFile], [⟨"", "\n"⟩]⟩ := by
    simp [Batch.Representable, file]
  have config : Config.default.Representable := by
    simp [Config.Representable, Config.default, countLimit]
  exact ⟨⟨file, files _ file⟩, ⟨record, classes _ record⟩, ⟨method, functions _ method⟩,
    ⟨gathered, inherited _ gathered⟩, ⟨batch, batches _ batch⟩, ⟨config, configs _ config⟩⟩

end DocHarvest
