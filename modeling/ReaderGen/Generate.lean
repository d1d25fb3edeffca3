import ReaderGen.Json.Pretty
import ReaderGen.Layout.Build
import ReaderGen.Layout.Record
import ReaderGen.Reader.Unit
import ReaderGen.SchemaFile

/-!
# ReaderGen.Generate -- from a request to the generated text

A request names an action, a schema file and the parameters of the encoding. The only
action is to generate a reader; the same request may ask for the record of the layout
in place of the reader. **The parts of a request are checked in this order: the action,
the presence of a schema, the parameters, the file, the schema, the lines.**
-/

namespace ReaderGen

/-! ## A schema's reader -/

/-- Why a schema gives no reader. -/
inductive ReaderError where
  | invalid (schemaName : String) (cause : BuildError)
  | format (cause : Reflow.Unbreakable)
  deriving DecidableEq, Repr

/-- The diagnostic for a schema that gives no reader. -/
def ReaderError.message : ReaderError → String
  | invalid schemaName cause => "schema '" ++ schemaName ++ "' is invalid: " ++ cause.message
  | format cause => "internal formatting error: " ++ cause.message

/-- The layout of a schema; a fault names the schema. -/
def layoutOf (schema : Schema) (encoding : Encoding) : Except ReaderError Layout :=
  (Layout.build schema encoding).mapError (.invalid schema.name)

/-- The text of the reader of a schema. -/
def readerOf (schema : Schema) (encoding : Encoding) : Except ReaderError String :=
  match layoutOf schema encoding with
  | .error fault => .error fault
  | .ok layout => (Reader.unitText {} layout).mapError .format

/-! ## Requests -/

/-- What is asked for. -/
structure Request where
  action : Option String := none
  schemaPath : Option String := none
  alignment : UInt32 := 4
  refWidth : UInt32 := 3
  printLayout : Bool := false
  deriving DecidableEq, Repr

/-- Why a request gives no text. -/
inductive RequestError where
  | actionRequired
  | invalidAction (action : String)
  | schemaPathRequired
  | encoding (cause : EncodingError)
  | load (cause : LoadError)
  | reader (cause : ReaderError)
  deriving DecidableEq, Repr

/-- The diagnostic for a request that gives no text. A line that cannot be wrapped is
reported with its cause behind it once more. -/
def RequestError.message : RequestError → String
  | actionRequired => "Action required"
  | invalidAction action => "Invalid action '" ++ action ++ "'"
  | schemaPathRequired => "Schema path required for action 'cpp'"
  | encoding cause => cause.message
  | load cause => cause.message
  | reader (.format cause) => (ReaderError.format cause).message ++ ": " ++ cause.message
  | reader cause => cause.message

/-- The path of the schema, if the action is known and there is a path. -/
def Request.schemaPath? (request : Request) : Except RequestError String :=
  match request.action, request.schemaPath with
  | none, _ => .error .actionRequired
  | some "cpp", some path => .ok path
  | some "cpp", none => .error .schemaPathRequired
  | some action, _ => .error (.invalidAction action)

/-- The parameters that a request asks for. -/
def Request.encoding (request : Request) : Except EncodingError Encoding :=
  match Encoding.ofAlignment request.alignment with
  | .error fault => .error fault
  | .ok encoding => encoding.withRefWidth request.refWidth

/-- The record of a layout as text, ended by a newline. -/
def layoutText (layout : Layout) : String := layout.toJson.pretty ++ "\n"

/-- The text that a request gives for a schema. -/
def Request.output (request : Request) (schema : Schema) (encoding : Encoding) :
    Except ReaderError String :=
  if request.printLayout then (layoutOf schema encoding).map layoutText
  else readerOf schema encoding

/-- The text that a request gives, where `read` gives the text of a file and `explain` tells why
a text is no schema in YAML. -/
def Request.run (request : Request) (read : String → Except ReadError String)
    (explain : String → String) : Except RequestError String :=
  match request.schemaPath? with
  | .error fault => .error fault
  | .ok path =>
    match request.encoding with
    | .error fault => .error (.encoding fault)
    | .ok encoding =>
      match loadSchema explain path (read path) with
      | .error fault => .error (.load fault)
      | .ok schema => (request.output schema encoding).mapError .reader

end ReaderGen
