import ReaderGen.Schema

/-!
# ReaderGen.TypeTable -- names of a schema and what they refer to

The table holds the definitions of one schema by name, in declaration order. It
exists only for a schema whose names are pairwise distinct. **A builtin name always
means the builtin type**, also where a definition has the same name; every other name
must be defined, and means an enumeration or a class after the shape of its
definition.

A walk visits every definition once, in declaration order, and then finishes. A
visitor is a record of hooks over a state of its own; each hook may fail, and the walk
stops there, with the state that the failing hook left.
-/

namespace ReaderGen

/-! ## Faults -/

/-- Why a name cannot be used. -/
inductive ResolveError where
  | duplicateType (typeName : String)
  | unknownType (owner field typeName : String)
  deriving DecidableEq, Repr

/-- The diagnostic for an unusable name. -/
def ResolveError.message : ResolveError → String
  | duplicateType typeName => "type '" ++ typeName ++ "' is defined more than once"
  | unknownType owner field typeName =>
    "unknown type '" ++ typeName ++ "' for field '" ++ field ++ "' of '" ++ owner ++ "'"

/-! ## The table -/

/-- The definitions of a schema, each under its name. -/
structure TypeTable where
  schema : Schema
  entries : List (String × Definition)
  deriving Repr

namespace TypeTable

/-- Adds definitions at the end of the entries; a name that is taken is a fault. -/
def insertAll (entries : List (String × Definition)) :
    List Definition → Except ResolveError (List (String × Definition))
  | [] => .ok entries
  | definition :: rest =>
    if (entries.lookup definition.name).isSome then .error (.duplicateType definition.name)
    else insertAll (entries ++ [(definition.name, definition)]) rest

/-- The table of a schema. -/
def ofSchema (schema : Schema) : Except ResolveError TypeTable :=
  (insertAll [] schema.types).map (TypeTable.mk schema)

/-- The definition of a name. -/
def get? (table : TypeTable) (name : String) : Option Definition :=
  table.entries.lookup name

/-- The definitions in declaration order. -/
def definitions (table : TypeTable) : List Definition :=
  table.entries.map Prod.snd

end TypeTable

/-! ## References -/

/-- What the type name of a field refers to. -/
inductive Reference where
  | builtin (builtin : Builtin)
  | enumeration (definition : Definition)
  | object (definition : Definition)
  deriving DecidableEq, Repr

/-- What a field of `owner` refers to. -/
def TypeTable.resolve (table : TypeTable) (owner : String) (field : Field) :
    Except ResolveError Reference :=
  match field.builtin? with
  | some builtin => .ok (.builtin builtin)
  | none =>
    match table.get? field.typeName with
    | none => .error (.unknownType owner field.name field.typeName)
    | some definition =>
      if definition.shape.isClass then .ok (.object definition) else .ok (.enumeration definition)

/-! ## Walks -/

/-- One step of a visitor: the state afterwards, and the fault if it failed. -/
abbrev VisitStep (σ ε : Type) := σ → σ × Except ε Unit

/-- The step that does nothing. -/
def VisitStep.skip {σ ε : Type} : VisitStep σ ε := fun state => (state, .ok ())

/-- What to do at each definition, and at the end. -/
structure Visitor (σ ε : Type) where
  simpleSum : TypeTable → String → Sum → VisitStep σ ε := fun _ _ _ => .skip
  compoundSum : TypeTable → String → Sum → VisitStep σ ε := fun _ _ _ => .skip
  product : TypeTable → String → Product → VisitStep σ ε := fun _ _ _ => .skip
  finish : TypeTable → VisitStep σ ε := fun _ => .skip

namespace Visitor

variable {σ ε : Type}

/-- The hook for one definition. -/
def visit (visitor : Visitor σ ε) (table : TypeTable) (definition : Definition) : VisitStep σ ε :=
  match definition.shape with
  | .simpleSum sum => visitor.simpleSum table definition.name sum
  | .compoundSum sum => visitor.compoundSum table definition.name sum
  | .product product => visitor.product table definition.name product

/-- Visits definitions in order, then finishes. -/
def walkFrom (visitor : Visitor σ ε) (table : TypeTable) : List Definition → VisitStep σ ε
  | [], state => visitor.finish table state
  | definition :: rest, state =>
    match visitor.visit table definition state with
    | (after, .ok ()) => visitor.walkFrom table rest after
    | (after, .error fault) => (after, .error fault)

/-- Visits every definition of a table, then finishes. -/
def walk (visitor : Visitor σ ε) (table : TypeTable) : VisitStep σ ε :=
  visitor.walkFrom table table.definitions

end Visitor

end ReaderGen
