import SolverConfig.Json.Value
import SolverConfig.Toml.Document

/-!
# Loading

A configuration file is read in the format that the extension of its name tells.
-/

namespace SolverConfig

/-- Why a file cannot be read: a failure of the system, or a name or content that is no text. -/
inductive FileError where
  | system (description : String) (code : Nat)
  | nulByte
  | encoding
  deriving DecidableEq

def FileError.message : FileError → String
  | .system description code => description ++ " (os error " ++ toString code ++ ")"
  | .nulByte => "file name contained an unexpected NUL byte"
  | .encoding => "stream did not contain valid UTF-8"

def pathParts (path : String) : List String := path.splitOn "/"

inductive FileFormat where
  | json
  | toml
  deriving DecidableEq

namespace FileFormat

/-- The name that a path ends in, if it is no reference to a directory above. -/
def fileName? (path : String) : Option String :=
  match ((pathParts path).filter fun part => part != "" && part != ".").getLast? with
  | some ".." => none
  | name => name

/-- What follows the last point of a name. A point in front of the whole name does not count. -/
def extension? (name : String) : Option String :=
  match name.toList.reverse.span (· != '.') with
  | (_, []) => none
  | (_, [_]) => none
  | (reversed, _) => some (String.ofList reversed.reverse)

def ofPath? (path : String) : Option FileFormat :=
  match (fileName? path).bind extension? with
  | some extension =>
    if extension.toLower = "json" then some .json
    else if extension.toLower = "toml" then some .toml
    else none
  | none => none

end FileFormat

inductive LoadError where
  | file (path : String) (e : FileError)
  | json (fault : Json.Fault)
  | toml
  | unsupportedFormat (path : String)
  deriving DecidableEq

namespace LoadError

/-- Stands for the words of a parser about a text that it cannot read. -/
def malformed : String := "malformed text"

def cause? : LoadError → Option String
  | .file _ e => some e.message
  | .json fault => some (fault.message?.getD malformed)
  | .toml => some malformed
  | .unsupportedFormat _ => none

def message (e : LoadError) : String :=
  let cause := e.cause?.getD ""
  match e with
  | .file path _ => "failed to read " ++ path ++ ": " ++ cause
  | .json _ => "invalid JSON: " ++ cause
  | .toml => "invalid TOML: " ++ cause
  | .unsupportedFormat path =>
    "unsupported configuration format for " ++ path ++ "; expected a .json or .toml file"

end LoadError

namespace FileFormat

def parse : FileFormat → String → Except LoadError Tree
  | .json, s => (Tree.ofJson s).mapError .json
  | .toml, s =>
    match Tree.ofToml? s with
    | some t => .ok t
    | none => .error .toml

end FileFormat

def Tree.load (read : String → Except FileError ByteArray) (path : String) :
    Except LoadError Tree :=
  match FileFormat.ofPath? path with
  | none => .error (.unsupportedFormat path)
  | some format =>
    match read path with
    | .error e => .error (.file path e)
    | .ok content =>
      match String.fromUTF8? content with
      | none => .error (.file path .encoding)
      | some s => format.parse s

end SolverConfig
