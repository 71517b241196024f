import SolverConfig.Factory.Binding
import SolverConfig.Load
import SolverConfig.Parse.Basic

/-!
# The command line

The arguments of the program, and what it answers to them: a configuration file is parsed and bound
to the reference executor, or the components are listed.
-/

namespace SolverConfig

structure ParseRequest where
  file : String
  kind : String
  valueType : String
  indexType : String
  strictness : Strictness
  deriving DecidableEq

inductive Command where
  | version
  | types
  | parse (r : ParseRequest)
  deriving DecidableEq

section Arguments

/-- The arguments of a request as far as they have been read. Each may be given once. -/
structure PartialRequest where
  verbose : Bool := false
  lenient : Bool := false
  file : Option String := none
  kind : Option String := none
  valueType : Option String := none
  indexType : Option String := none

namespace PartialRequest

def setVerbose (r : PartialRequest) : Option PartialRequest :=
  if r.verbose then none else some { r with verbose := true }

def setLenient (r : PartialRequest) : Option PartialRequest :=
  if r.lenient then none else some { r with lenient := true }

def setFile (r : PartialRequest) (file : String) : Option PartialRequest :=
  if r.file.isSome || file.isEmpty then none else some { r with file := some file }

def setOption (r : PartialRequest) (name value : String) : Option PartialRequest :=
  if name = "--kind" then
    if r.kind.isSome then none else some { r with kind := some value }
  else if name = "--value-type" then
    if r.valueType.isSome then none else some { r with valueType := some value }
  else if name = "--index-type" then
    if r.indexType.isSome then none else some { r with indexType := some value }
  else none

def request? (r : PartialRequest) : Option ParseRequest :=
  r.file.map fun file =>
    { file
      kind := r.kind.getD Family.linOp.name
      valueType := r.valueType.getD ({} : Instantiation).value.name
      indexType := r.indexType.getD ({} : Instantiation).index.name
      strictness := if r.lenient then .lenient else .strict }

end PartialRequest

/-- Whether an argument is an option by its form; a single dash is none. -/
def isOption (argument : String) : Bool := argument.startsWith "-" && argument != "-"

def splitOption? (argument : String) : Option (String × String) :=
  match argument.toList.span (· != '=') with
  | (name, _ :: value) => some (String.ofList name, String.ofList value)
  | (_, []) => none

def readFiles (r : PartialRequest) (files : List String) : Option PartialRequest :=
  files.foldlM PartialRequest.setFile r

def readRequest (r : PartialRequest) : List String → Option PartialRequest
  | [] => some r
  | "--" :: rest => readFiles r rest
  | argument :: rest =>
    if argument = "-v" ∨ argument = "--verbose" then
      r.setVerbose.bind fun r => readRequest r rest
    else if argument = "--lenient" then r.setLenient.bind fun r => readRequest r rest
    else if isOption argument then
      match splitOption? argument, rest with
      | some (name, value), rest => (r.setOption name value).bind fun r => readRequest r rest
      | none, value :: rest =>
        if isOption value then none
        else (r.setOption argument value).bind fun r => readRequest r rest
      | none, [] => none
    else (r.setFile argument).bind fun r => readRequest r rest

def readTypes (verbose : Bool) : List String → Option Unit
  | [] => some ()
  | ["--"] => some ()
  | argument :: rest =>
    if !verbose && (argument = "-v" || argument = "--verbose") then readTypes true rest else none

/-- Whether an argument asks for the version, at which reading stops. Short flags may stand
together in one argument. -/
def asksVersion (verbose : Bool) (argument : String) : Bool :=
  match argument.toList with
  | '-' :: 'V' :: _ => true
  | '-' :: 'v' :: 'V' :: _ => !verbose
  | _ => argument == "--version"

def readCommand (verbose : Bool) : List String → Option Command
  | [] => none
  | argument :: rest =>
    if asksVersion verbose argument then some .version
    else if argument = "-v" ∨ argument = "--verbose" then
      if verbose then none else readCommand true rest
    else if argument = "types" then (readTypes false rest).map fun _ => .types
    else if argument = "parse" then
      ((readRequest {} rest).bind PartialRequest.request?).map .parse
    else none

def Command.ofArguments? (arguments : List String) : Option Command :=
  readCommand false arguments

end Arguments

inductive Failure where
  | unknownKind (name : String)
  | types (e : ConfigError)
  | loading (file : String) (e : LoadError)
  | parsing (file : String) (e : ConfigError)
  deriving DecidableEq

namespace Failure

def message : Failure → String
  | .unknownKind name => "unknown kind '" ++ name ++ "'"
  | .types _ => "invalid root type descriptor"
  | .loading file _ => "loading " ++ file
  | .parsing file _ => "parsing " ++ file

def causes : Failure → List String
  | .unknownKind _ => []
  | .types e | .parsing _ e => [e.message]
  | .loading _ e => e.message :: e.cause?.toList

/-- A text with a margin in front of every line but the first. -/
def indented (margin text : String) : String :=
  String.ofList (text.toList.flatMap fun c => if c = '\n' then '\n' :: margin.toList else [c])

def causeLines : List String → List String
  | [cause] => ["    " ++ indented "    " cause]
  | causes =>
    causes.mapIdx fun n cause => "    " ++ toString n ++ ": " ++ indented "       " cause

def report (f : Failure) : String :=
  let head := "Error: " ++ f.message
  match f.causes with
  | [] => head
  | causes => head ++ "\n\nCaused by:\n" ++ "\n".intercalate (causeLines causes)

end Failure

namespace ParseRequest

def run (read : String → Except FileError ByteArray) (r : ParseRequest) :
    Except Failure Deferred :=
  match Kind.find? r.kind with
  | none => .error (.unknownKind r.kind)
  | some kind =>
    match Instantiation.ofNames r.valueType r.indexType with
    | .error e => .error (.types e)
    | .ok types =>
      match Tree.load read r.file with
      | .error e => .error (.loading r.file e)
      | .ok tree =>
        ((Context.bare r.strictness).parse kind tree types).result.mapError (.parsing r.file)

end ParseRequest

def Deferred.summary (d : Deferred) : String :=
  let (f, _) := d.bind (.reference 0) 0
  d.familyOutline.pretty ++ "\nbound " ++ f.info.text ++ " (" ++ f.family.name ++ ") on " ++
    f.executor.name ++ "\n"

def padRight (width : Nat) (s : String) : String :=
  s ++ String.ofList (List.replicate (width - s.length) ' ')

def Component.line (c : Component) : String :=
  let values := Vocabulary.all.filter fun v => c.supported.any (·.value == v)
  let indices := Vocabulary.all.filter fun i => c.supported.any (·.index == i)
  padRight 28 c.name ++ " " ++ padRight 16 c.family.name ++ " value: " ++
    Outline.commaSeparated (values.map ValueType.name) ++ "; index: " ++
    Outline.commaSeparated (indices.map IndexType.name) ++ "\n"

/-- What a run of the program leaves: its exit code, what it prints, and what it says of an error.
The log lines that may come before that are left out. -/
structure Report where
  code : UInt32
  output : String
  errors : String
  deriving DecidableEq

namespace Report

def success (output : String) : Report := ⟨0, output, ""⟩

def failure (f : Failure) : Report := ⟨1, "", f.report ++ "\n"⟩

def usage : String :=
  "usage: solvent parse FILE [--kind KIND] [--value-type TYPE] [--index-type TYPE] [--lenient]\n" ++
  "       solvent types\n"

def refusal : Report := ⟨2, "", usage⟩

end Report

def report (read : String → Except FileError ByteArray) (arguments : List String) : Report :=
  match Command.ofArguments? arguments with
  | none => .refusal
  | some .version => .success "solvent 0.1.0\n"
  | some .types => .success (String.join ((Vocabulary.all : List Component).map Component.line))
  | some (.parse r) =>
    match r.run read with
    | .ok d => .success d.summary
    | .error f => .failure f

end SolverConfig
