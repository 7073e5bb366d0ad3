import DocHarvest.Config
import DocHarvest.Json.Value
import DocHarvest.Json.Reader
import DocHarvest.Json.Writer
import DocHarvest.Record.Batch

/-!
Records as JSON.

Fields are written in the order of their declaration.  Fields that inheritance sets are written
only when they are set.
-/

namespace DocHarvest

open Json (Fields ofOption ofStrings ofNat)

def memberIfSome {α : Type} (key : String) (write : α → Json) : Option α → List (String × Json)
  | some value => [(key, write value)]
  | none => []

/-! ### Docstrings -/

namespace DocParameter

def toJson (parameter : DocParameter) : Json :=
  .object [
    ("name", .string parameter.name),
    ("type", ofOption .string parameter.typeName),
    ("description", .string parameter.description)]

def ofJson? (json : Json) : Option DocParameter := do
  let fields ← Json.fields? ["name", "type", "description"] json
  let name ← fields.required "name" Json.text?
  let typeName ← fields.nullable "type" Json.text?
  let description ← fields.required "description" Json.text?
  some { name, typeName, description }

end DocParameter

namespace DocReturn

def toJson (returns : DocReturn) : Json :=
  .object [
    ("type", ofOption .string returns.typeName),
    ("description", .string returns.description)]

def ofJson? (json : Json) : Option DocReturn := do
  let fields ← Json.fields? ["type", "description"] json
  let typeName ← fields.nullable "type" Json.text?
  let description ← fields.required "description" Json.text?
  some { typeName, description }

end DocReturn

namespace DocRaise

def toJson (raised : DocRaise) : Json :=
  .object [
    ("exception_type", .string raised.exceptionType),
    ("description", .string raised.description)]

def ofJson? (json : Json) : Option DocRaise := do
  let fields ← Json.fields? ["exception_type", "description"] json
  let exceptionType ← fields.required "exception_type" Json.text?
  let description ← fields.required "description" Json.text?
  some { exceptionType, description }

end DocRaise

namespace Docstring

def toJson (docstring : Docstring) : Json :=
  .object [
    ("description", .string docstring.description),
    ("parameters", .array (docstring.parameters.map DocParameter.toJson)),
    ("returns", ofOption DocReturn.toJson docstring.returns),
    ("raises", .array (docstring.raises.map DocRaise.toJson)),
    ("examples", ofStrings docstring.examples)]

def ofJson? (json : Json) : Option Docstring := do
  let fields ← Json.fields? ["description", "parameters", "returns", "raises", "examples"] json
  let description ← fields.required "description" Json.text?
  let parameters ← fields.required "parameters" (Json.list? DocParameter.ofJson?)
  let returns ← fields.nullable "returns" DocReturn.ofJson?
  let raises ← fields.required "raises" (Json.list? DocRaise.ofJson?)
  let examples ← fields.required "examples" (Json.list? Json.text?)
  some { description, parameters, returns, raises, examples }

end Docstring

/-! ### Functions -/

namespace ParameterKind

def toJson (kind : ParameterKind) : Json := .string kind.token

def ofJson? (json : Json) : Option ParameterKind := Json.word? ofToken? json

end ParameterKind

namespace Parameter

def toJson (parameter : Parameter) : Json :=
  .object [
    ("name", .string parameter.name),
    ("type_annotation", ofOption .string parameter.typeText),
    ("has_default", .bool parameter.hasDefault),
    ("default_literal", ofOption .string parameter.defaultText),
    ("kind", parameter.kind.toJson)]

def ofJson? (json : Json) : Option Parameter := do
  let fields ← Json.fields?
    ["name", "type_annotation", "has_default", "default_literal", "kind"] json
  let name ← fields.required "name" Json.text?
  let typeText ← fields.nullable "type_annotation" Json.text?
  let hasDefault ← fields.required "has_default" Json.bool?
  let defaultText ← fields.nullable "default_literal" Json.text?
  let kind ← fields.defaulted "kind" ParameterKind.ofJson? .positional
  some { name, typeText, hasDefault, defaultText, kind }

end Parameter

namespace FunctionDoc

def fieldNames : List String :=
  ["name", "parameters", "return_type_annotation", "docstring", "is_async", "is_static_method",
    "is_class_method", "is_property", "decorators", "source_line", "is_method", "is_special",
    "is_constructor", "overrides", "is_inherited", "inherited_from"]

def toJson (function : FunctionDoc) : Json :=
  .object ([
    ("name", .string function.name),
    ("parameters", .array (function.parameters.map Parameter.toJson)),
    ("return_type_annotation", ofOption .string function.returnType),
    ("docstring", function.docstring.toJson),
    ("is_async", .bool function.isAsync),
    ("is_static_method", .bool function.isStaticMethod),
    ("is_class_method", .bool function.isClassMethod),
    ("is_property", .bool function.isProperty),
    ("decorators", ofStrings function.decorators),
    ("source_line", ofNat function.line),
    ("is_method", .bool function.isMethod),
    ("is_special", .bool function.isSpecial),
    ("is_constructor", .bool function.isConstructor)] ++
    memberIfSome "overrides" .string function.overrides ++
    (if function.isInherited then [("is_inherited", .bool true)] else []) ++
    memberIfSome "inherited_from" .string function.inheritedFrom)

def ofJson? (json : Json) : Option FunctionDoc := do
  let fields ← Json.fields? fieldNames json
  let name ← fields.required "name" Json.text?
  let parameters ← fields.required "parameters" (Json.list? Parameter.ofJson?)
  let returnType ← fields.nullable "return_type_annotation" Json.text?
  let docstring ← fields.required "docstring" Docstring.ofJson?
  let isAsync ← fields.required "is_async" Json.bool?
  let isStaticMethod ← fields.required "is_static_method" Json.bool?
  let isClassMethod ← fields.required "is_class_method" Json.bool?
  let isProperty ← fields.required "is_property" Json.bool?
  let decorators ← fields.required "decorators" (Json.list? Json.text?)
  let line ← fields.required "source_line" Json.count?
  let isMethod ← fields.defaulted "is_method" Json.bool? false
  let isSpecial ← fields.defaulted "is_special" Json.bool? false
  let isConstructor ← fields.defaulted "is_constructor" Json.bool? false
  let overrides ← fields.defaulted "overrides" (Json.orNull? Json.text?) none
  let isInherited ← fields.defaulted "is_inherited" Json.bool? false
  let inheritedFrom ← fields.defaulted "inherited_from" (Json.orNull? Json.text?) none
  some { name, parameters, returnType, docstring, isAsync, isStaticMethod, isClassMethod,
         isProperty, decorators, line, isMethod, isSpecial, isConstructor, overrides, isInherited,
         inheritedFrom }

end FunctionDoc

/-! ### Classes -/

namespace Inherited

def toJson (inherited : Inherited) : Json :=
  .object (inherited.groups.map fun (ancestor, methods) =>
    (ancestor, .array (methods.map FunctionDoc.toJson)))

def groupOfJson? (entry : String × Json) : Option (String × List FunctionDoc) :=
  (Json.list? FunctionDoc.ofJson? entry.2).map fun methods => (entry.1, methods)

/-- An object of groups; a repeated key adds to the group before. -/
def ofJson? : Json → Option Inherited
  | .object members => (members.mapM groupOfJson?).map ofEntries
  | _ => none

end Inherited

namespace ClassDoc

def fieldNames : List String :=
  ["name", "base_names", "methods", "docstring", "decorators", "source_line",
    "inheritance_chain", "inherited_methods", "method_resolution_order"]

def toJson (record : ClassDoc) : Json :=
  .object ([
    ("name", .string record.name),
    ("base_names", ofStrings record.baseNames),
    ("methods", .array (record.methods.map FunctionDoc.toJson)),
    ("docstring", record.docstring.toJson),
    ("decorators", ofStrings record.decorators),
    ("source_line", ofNat record.line)] ++
    memberIfSome "inheritance_chain" ofStrings record.chain ++
    memberIfSome "inherited_methods" Inherited.toJson record.inherited ++
    memberIfSome "method_resolution_order" ofStrings record.resolutionOrder)

def ofJson? (json : Json) : Option ClassDoc := do
  let fields ← Json.fields? fieldNames json
  let name ← fields.required "name" Json.text?
  let baseNames ← fields.required "base_names" (Json.list? Json.text?)
  let methods ← fields.required "methods" (Json.list? FunctionDoc.ofJson?)
  let docstring ← fields.required "docstring" Docstring.ofJson?
  let decorators ← fields.defaulted "decorators" (Json.list? Json.text?) []
  let line ← fields.defaulted "source_line" Json.count? 0
  let chain ← fields.defaulted "inheritance_chain" (Json.orNull? (Json.list? Json.text?)) none
  let inherited ← fields.defaulted "inherited_methods" (Json.orNull? Inherited.ofJson?) none
  let resolutionOrder ←
    fields.defaulted "method_resolution_order" (Json.orNull? (Json.list? Json.text?)) none
  some { name, baseNames, methods, docstring, decorators, line, chain, inherited,
         resolutionOrder }

end ClassDoc

/-! ### Files -/

namespace FileDoc

def toJson (file : FileDoc) : Json :=
  .object [
    ("path", .string file.path),
    ("module_docstring", ofOption Docstring.toJson file.moduleDocstring),
    ("functions", .array (file.functions.map FunctionDoc.toJson)),
    ("classes", .array (file.classes.map ClassDoc.toJson))]

def ofJson? (json : Json) : Option FileDoc := do
  let fields ← Json.fields? ["path", "module_docstring", "functions", "classes"] json
  let path ← fields.required "path" Json.text?
  let moduleDocstring ← fields.nullable "module_docstring" Docstring.ofJson?
  let functions ← fields.required "functions" (Json.list? FunctionDoc.ofJson?)
  let classes ← fields.required "classes" (Json.list? ClassDoc.ofJson?)
  some { path, moduleDocstring, functions, classes }

def toText (file : FileDoc) : String := file.toJson.toPretty

end FileDoc

namespace Failure

def toJson (failure : Failure) : Json :=
  .object [("path", .string failure.path), ("message", .string failure.message)]

def ofJson? (json : Json) : Option Failure := do
  let fields ← Json.fields? ["path", "message"] json
  let path ← fields.required "path" Json.text?
  let message ← fields.required "message" Json.text?
  some { path, message }

end Failure

namespace Batch

def toJson (batch : Batch) : Json :=
  .object [
    ("files", .array (batch.files.map FileDoc.toJson)),
    ("failures", .array (batch.failures.map Failure.toJson))]

def ofJson? (json : Json) : Option Batch := do
  let fields ← Json.fields? ["files", "failures"] json
  let files ← fields.required "files" (Json.list? FileDoc.ofJson?)
  let failures ← fields.required "failures" (Json.list? Failure.ofJson?)
  some { files, failures }

end Batch

/-! ### Configuration -/

namespace Style

def toJson (style : Style) : Json := .string style.token

def ofJson? (json : Json) : Option Style := Json.word? ofToken? json

end Style

namespace Config

def fieldNames : List String :=
  ["docstring_style", "resolve_inheritance", "max_file_size", "file_extensions", "exclude_dirs",
    "ignore_paths"]

def toJson (config : Config) : Json :=
  .object [
    ("docstring_style", config.style.toJson),
    ("resolve_inheritance", .bool config.resolveInheritance),
    ("max_file_size", ofNat config.maxFileSize),
    ("file_extensions", ofStrings config.fileExtensions),
    ("exclude_dirs", ofStrings config.excludeDirs),
    ("ignore_paths", ofStrings config.ignorePaths)]

/-- A configuration; fields that are not written have their default values. -/
def ofJson? (json : Json) : Option Config := do
  let fields ← Json.fields? fieldNames json
  let style ← fields.defaulted "docstring_style" Style.ofJson? default.style
  let resolveInheritance ←
    fields.defaulted "resolve_inheritance" Json.bool? default.resolveInheritance
  let maxFileSize ← fields.defaulted "max_file_size" Json.count? default.maxFileSize
  let texts := Json.list? Json.text?
  let fileExtensions ← fields.defaulted "file_extensions" texts default.fileExtensions
  let excludeDirs ← fields.defaulted "exclude_dirs" texts default.excludeDirs
  let ignorePaths ← fields.defaulted "ignore_paths" texts default.ignorePaths
  some { style, resolveInheritance, maxFileSize, fileExtensions, excludeDirs, ignorePaths }

end Config

end DocHarvest
