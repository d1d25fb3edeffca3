import ReaderGen.FileTree
import ReaderGen.Notation.Parser
import ReaderGen.Yaml.Schema

/-!
# ReaderGen.SchemaFile -- schemas in files

A schema file is YAML if its extension is `yaml` or `yml` in any case, and else the
schema notation. The extension is what stands behind the last dot of the last name of
the path; **a dot that starts the name starts no extension.** Slashes and `.` at the end
of the path do not count, and `..` is no name.

A failure keeps its cause, and its diagnostic ends with it. Why a text is no schema in
YAML is told in the words of the YAML library, which are a parameter here: `explain` gives
them for a text.
-/

namespace ReaderGen

/-! ## Formats -/

/-- How a schema is written. -/
inductive SchemaFormat where
  | asdl
  | yaml
  deriving DecidableEq, Repr

/-- The last name of a path, if it ends with a name. -/
def fileName? (path : String) : Option String :=
  match ((pathComponents path).filter fun name => name ≠ "" && name ≠ ".").getLast? with
  | some ".." => none
  | other => other

/-- The extension of a path. -/
def extension? (path : String) : Option String := do
  let name := (← fileName? path).toList.reverse
  let after := name.takeWhile (· ≠ '.')
  match name.drop after.length with
  | [] => none
  | [_] => none
  | _ => some (String.ofList after.reverse)

/-- The format of a file. -/
def SchemaFormat.ofPath (path : String) : SchemaFormat :=
  match (extension? path).map fun text => text.map Char.toLower with
  | some "yaml" | some "yml" => .yaml
  | _ => .asdl

/-! ## Reading -/

/-- Why a text is not a schema. -/
inductive SchemaError where
  | text (error : Notation.ParseError)
  | yaml (cause : String)
  deriving DecidableEq, Repr

/-- The diagnostic for a text that is not a schema. -/
def SchemaError.message : SchemaError → String
  | text error => error.message
  | yaml cause => "invalid YAML schema: " ++ cause

/-- Reads a schema in a format. -/
def readSchema (explain : String → String) (format : SchemaFormat) (source : String) :
    Except SchemaError Schema :=
  match format with
  | .asdl => (Notation.parse source).mapError .text
  | .yaml =>
    match Yaml.schemaOfText? source with
    | some schema => .ok schema
    | none => .error (.yaml (explain source))

/-- Why a file gives no schema. -/
inductive LoadError where
  | read (path : String) (cause : ReadError)
  | parse (path : String) (cause : SchemaError)
  deriving DecidableEq, Repr

/-- The diagnostic for a file that gives no schema. -/
def LoadError.message : LoadError → String
  | read path cause => "failed to read schema file " ++ path ++ ": " ++ cause.message
  | parse path cause => "failed to parse schema file " ++ path ++ ": " ++ cause.message

/-- The schema that the text of a file holds, if there is a text. -/
def loadSchema (explain : String → String) (path : String) (text : Except ReadError String) :
    Except LoadError Schema :=
  match text with
  | .error cause => .error (.read path cause)
  | .ok source => (readSchema explain (.ofPath path) source).mapError (.parse path)

end ReaderGen
