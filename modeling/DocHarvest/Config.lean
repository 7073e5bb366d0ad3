import DocHarvest.Docstring.Model
import DocHarvest.Path.Basic

/-!
The configuration of a harvest, and what can go wrong in one.
-/

namespace DocHarvest

/-! ### Errors -/

inductive ReadFault where
  | notFound
  | notDirectory
  | isDirectory
  | tooManyLinks
  | notText
deriving DecidableEq, Repr

inductive Error where
  | unreadable (path : String) (fault : ReadFault)
  /-- The source does not have the form of a program, at a line and column counted from one. -/
  | malformed (path : String) (line column : Nat) (detail : String)
  | tooLarge (path : String) (size : Nat)
  | unsupported (path : String)
  | unknownStyle (token : String)
  | invalidConfig (reason : String)
  | unwalkable (path : String) (reason : String)
  | unparsable (path : String) (reason : String)
deriving DecidableEq, Repr

def ReadFault.message : ReadFault → String
  | .notFound => "No such file or directory (os error 2)"
  | .notDirectory => "Not a directory (os error 20)"
  | .isDirectory => "Is a directory (os error 21)"
  | .tooManyLinks => "Too many levels of symbolic links (os error 40)"
  | .notText => "stream did not contain valid UTF-8"

def Error.message : Error → String
  | .unreadable path fault => "IO error reading " ++ path ++ ": " ++ fault.message
  | .malformed path line column detail =>
      "Syntax error in " ++ path ++ ":" ++ toString line ++ ":" ++ toString column ++ ": " ++ detail
  | .tooLarge path size =>
      "File " ++ path ++ " exceeds maximum size (" ++ toString size ++ " bytes)"
  | .unsupported path => "Unsupported file type: " ++ path
  | .unknownStyle token =>
      "Invalid docstring style '" ++ token ++ "' (expected one of: google, numpy, rest)"
  | .invalidConfig reason => "Invalid configuration: " ++ reason
  | .unwalkable path reason => "Failed to walk " ++ path ++ ": " ++ reason
  | .unparsable path reason => "Parse error in " ++ path ++ ": " ++ reason

/-! ### Configuration -/

structure Config where
  style : Style
  resolveInheritance : Bool
  /-- Larger files are not read; in bytes. -/
  maxFileSize : Nat
  fileExtensions : List String
  excludeDirs : List String
  /-- Places that are passed over with all that lies below them, as paths in UTF-8. -/
  ignorePaths : List String
deriving DecidableEq, Repr

namespace Config

def default : Config :=
  { style := .google
    resolveInheritance := true
    maxFileSize := 10 * 1024 * 1024
    fileExtensions := [".py"]
    excludeDirs := ["__pycache__", ".git", ".venv", ".tox", ".eggs", "*.egg-info"]
    ignorePaths := [] }

instance : Inhabited Config := ⟨default⟩

def withStyle (config : Config) (style : Style) : Config := { config with style }

def withInheritance (config : Config) (resolve : Bool) : Config :=
  { config with resolveInheritance := resolve }

def withMaxFileSize (config : Config) (size : Nat) : Config := { config with maxFileSize := size }

def withIgnorePath (config : Config) (path : String) : Config :=
  { config with ignorePaths := config.ignorePaths ++ [path] }

def validate (config : Config) : Except Error Unit :=
  if config.maxFileSize = 0 then
    .error (.invalidConfig "max_file_size must be greater than 0")
  else if config.fileExtensions.isEmpty then
    .error (.invalidConfig "file_extensions cannot be empty")
  else .ok ()

/-- An extension without the dots in front. -/
def bareExtension (extension : String) : List Char :=
  extension.toList.dropWhile (· == '.')

def acceptsExtension (config : Config) (extension : String) : Bool :=
  config.fileExtensions.any fun accepted => bareExtension extension == bareExtension accepted

def canParse (config : Config) (path : String) : Bool :=
  match Path.extension? path with
  | some extension => config.acceptsExtension extension
  | none => false

def occursIn (part : List Char) : List Char → Bool
  | [] => part.isEmpty
  | character :: rest => part.isPrefixOf (character :: rest) || occursIn part rest

/-- Whether a directory name matches an excluded one.  In a pattern with stars the stars are
dropped, and the name only has to contain the rest. -/
def matchesExcluded (name excluded : String) : Bool :=
  if excluded.toList.contains '*' then
    occursIn (excluded.toList.filter (· != '*')) name.toList
  else name == excluded

def excludesDir (config : Config) (name : String) : Bool :=
  config.excludeDirs.any (matchesExcluded name)

/-- Whether a path lies at or below an ignored one, as seen from a working directory. -/
def ignores (config : Config) (workingDirectory : List String) (path : String) : Bool :=
  config.ignorePaths.any fun ignored =>
    (Path.location workingDirectory ignored).isPrefixOf (Path.location workingDirectory path)

end Config

end DocHarvest
