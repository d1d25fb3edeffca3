import ReaderGen.Schema
import ReaderGen.Yaml.Node

/-!
# ReaderGen.Yaml.Schema -- schemas written in YAML

A schema in YAML has the same records as one in JSON. **Any scalar is a text where a
text is wanted**, whatever its tag or style; a flag is one of six plain words; a list
may also be an empty plain scalar. A record must be a mapping with scalar keys: an
unknown key is skipped, a known key may stand only once. The body of a definition is a
mapping of one entry whose tag, if it has one, names no choice.
-/

namespace ReaderGen.Yaml

/-- The entries of a record, each under the text of its key. -/
abbrev Entries := List (String × Node)

namespace Document

variable (document : Document)

/-! ## Scalars and lists -/

/-- The text of a scalar. -/
def text? (node : Node) : Reading String := do
  match ← document.resolve node with
  | .scalar _ _ text => pure text
  | _ => failure

/-- The words of a flag. -/
def flagOf? (text : String) : Option Bool :=
  if text = "true" ∨ text = "True" ∨ text = "TRUE" then some true
  else if text = "false" ∨ text = "False" ∨ text = "FALSE" then some false
  else none

/-- A flag: a plain scalar, or a literal one with the tag of truth values. -/
def flag? (node : Node) : Reading Bool := do
  match ← document.resolve node with
  | .scalar _ .plain text => flagOf? text
  | .scalar (some tag) .literal text => if tag = truthTag then flagOf? text else failure
  | _ => failure

/-- A list of what `read` reads. -/
def list? {α : Type} (read : Node → Reading α) (node : Node) : Reading (List α) := do
  match ← document.resolve node with
  | .sequence _ items => items.mapM read
  | .scalar _ .plain "" => pure []
  | _ => failure

/-! ## Records -/

/-- The entries of a mapping whose keys are scalars. -/
def entries? (pairs : List (Node × Node)) : Reading Entries :=
  pairs.mapM fun (key, value) => (·, value) <$> document.text? key

/-- The entries of a record, if no known key stands twice. -/
def record? (keys : List String) (node : Node) : Reading Entries := do
  match ← document.resolve node with
  | .mapping _ pairs =>
    let entries ← document.entries? pairs
    if keys.all fun key => (entries.filter fun entry => entry.1 = key).length ≤ 1
    then pure entries else failure
  | _ => failure

/-- The value of a key that must be there. -/
def required {α : Type} (key : String) (read : Node → Reading α) (entries : Entries) :
    Reading α :=
  match entries.lookup key with
  | none => failure
  | some node => read node

/-- The value of a key, or the default where it is missing. -/
def orElse {α : Type} (key : String) (default : α) (read : Node → Reading α)
    (entries : Entries) : Reading α :=
  match entries.lookup key with
  | none => pure default
  | some node => read node

/-! ## Schemas -/

/-- The field that a record holds. -/
def field? (node : Node) : Reading Field := do
  let entries ← document.record? ["name", "type", "is-sequence", "is-optional"] node
  let name ← required "name" document.text? entries
  let typeName ← required "type" document.text? entries
  let isSequence ← orElse "is-sequence" false document.flag? entries
  let isOptional ← orElse "is-optional" false document.flag? entries
  pure ⟨name, typeName, isSequence, isOptional⟩

/-- The fields that a list holds. -/
def fields? (node : Node) : Reading (List Field) := document.list? document.field? node

/-- The constructor that a record holds. -/
def constructor? (node : Node) : Reading Constructor := do
  let entries ← document.record? ["name", "fields"] node
  let name ← required "name" document.text? entries
  let fields ← orElse "fields" [] document.fields? entries
  pure ⟨name, fields⟩

/-- The sum that a record holds. -/
def sum? (node : Node) : Reading Sum := do
  let entries ← document.record? ["variants", "attributes"] node
  let variants ← required "variants" (document.list? document.constructor?) entries
  let attributes ← orElse "attributes" [] document.fields? entries
  pure ⟨variants, attributes⟩

/-- The product that a record holds. -/
def product? (node : Node) : Reading Product := do
  let entries ← document.record? ["fields", "attributes"] node
  let fields ← required "fields" document.fields? entries
  let attributes ← orElse "attributes" [] document.fields? entries
  pure ⟨fields, attributes⟩

/-- The body that a mapping of one entry holds. -/
def body? (node : Node) : Reading Body := do
  match ← document.resolve node with
  | .mapping tag [(key, value)] =>
    if isChoiceTag tag then failure
    else
      match ← document.text? key with
      | "sum" => Body.sum <$> document.sum? value
      | "product" => Body.product <$> document.product? value
      | _ => failure
  | _ => failure

/-- The definition that a record holds. -/
def definition? (node : Node) : Reading Definition := do
  let entries ← document.record? ["name", "body"] node
  let name ← required "name" document.text? entries
  let body ← required "body" document.body? entries
  pure ⟨name, body⟩

/-- The schema that the root of a document holds. -/
def schemaRecord? : Reading Schema := do
  let entries ← document.record? ["name", "types"] document.root
  let name ← required "name" document.text? entries
  let types ← orElse "types" [] (document.list? document.definition?) entries
  pure ⟨name, types⟩

/-- The schema that a document holds. -/
def schema? : Option Schema := document.schemaRecord?.run' document.maxFollowed

end Document

/-- The schema that a text in YAML holds. -/
def schemaOfText? (source : String) : Option Schema := do
  (← Document.ofText? source).schema?

end ReaderGen.Yaml
