import ReaderGen.Proofs.Json.Amended
import ReaderGen.Schema.Record

/-!
# ReaderGen.Proofs.Schema.Record -- a schema is read back from its record

What `toJson` writes, `ofJson?` reads, also when the record was amended on the way: any of the
default values left out at any level, unknown keys put into any record. **The defaults are
false for the two marks of a field, and no definitions, no attributes and no fields of a
constructor**; the fields of a product and the constructors of a sum are always there. A body
is no record with keys of its own but one alternative under its name, and takes no other key.

One relation and one lemma for each kind of record, from the field to the schema.
-/

namespace ReaderGen

open Json (ListAmended RecordAmended Restores restores_bool restores_list restores_str)

/-! ## What may stand for a record -/

/-- The empty list, as a document. -/
def Json.emptyList : Json := .arr []

/-- The keys of a field. Both marks are false by default. -/
def Field.keys : List Key :=
  [{ name := "name" }, { name := "type" },
    { name := "is-sequence", default? := some (.bool false) },
    { name := "is-optional", default? := some (.bool false) }]

/-- A field, amended. -/
def Field.Amended : Json → Json → Prop := RecordAmended Field.keys

/-- The keys of a constructor, which has no fields by default. -/
def Constructor.keys : List Key :=
  [{ name := "name" },
    { name := "fields", default? := some .emptyList, amends := ListAmended Field.Amended }]

/-- A constructor, amended. -/
def Constructor.Amended : Json → Json → Prop := RecordAmended Constructor.keys

/-- The key of the attributes, of which there are none by default. -/
def attributesKey : Key :=
  { name := "attributes", default? := some .emptyList, amends := ListAmended Field.Amended }

/-- The keys of a sum. -/
def Sum.keys : List Key :=
  [{ name := "variants", amends := ListAmended Constructor.Amended }, attributesKey]

/-- A sum, amended. -/
def Sum.Amended : Json → Json → Prop := RecordAmended Sum.keys

/-- The keys of a product. -/
def Product.keys : List Key :=
  [{ name := "fields", amends := ListAmended Field.Amended }, attributesKey]

/-- A product, amended. -/
def Product.Amended : Json → Json → Prop := RecordAmended Product.keys

/-- A body with its one alternative amended. -/
inductive Body.Amended : Json → Json → Prop
  | sum {json written : Json} : Sum.Amended json written →
      Body.Amended (.obj [("sum", json)]) (.obj [("sum", written)])
  | product {json written : Json} : Product.Amended json written →
      Body.Amended (.obj [("product", json)]) (.obj [("product", written)])

/-- The keys of a definition. -/
def Definition.keys : List Key := [{ name := "name" }, { name := "body", amends := Body.Amended }]

/-- A definition, amended. -/
def Definition.Amended : Json → Json → Prop := RecordAmended Definition.keys

/-- The keys of a schema, which has no definitions by default. -/
def Schema.keys : List Key :=
  [{ name := "name" },
    { name := "types", default? := some .emptyList, amends := ListAmended Definition.Amended }]

/-- A schema, amended. -/
def Schema.Amended : Json → Json → Prop := RecordAmended Schema.keys

/-! ## Records as they are written -/

theorem Field.amended_self (field : Field) : Field.Amended field.toJson field.toJson :=
  .self (by simp [Field.keys])

theorem Field.list_amended_self (fields : List Field) :
    ListAmended Field.Amended (Field.listToJson fields) (Field.listToJson fields) :=
  .self Field.amended_self fields

theorem Constructor.amended_self (variant : Constructor) :
    Constructor.Amended variant.toJson variant.toJson :=
  .self (by simp [Constructor.keys, Field.list_amended_self])

theorem Sum.amended_self (sum : Sum) : Sum.Amended sum.toJson sum.toJson :=
  .self (by simp [Sum.keys, attributesKey, Field.list_amended_self,
    ListAmended.self Constructor.amended_self])

theorem Product.amended_self (product : Product) :
    Product.Amended product.toJson product.toJson :=
  .self (by simp [Product.keys, attributesKey, Field.list_amended_self])

theorem Body.amended_self : (body : Body) → Body.Amended body.toJson body.toJson
  | .sum choice => .sum choice.amended_self
  | .product record => .product record.amended_self

theorem Definition.amended_self (definition : Definition) :
    Definition.Amended definition.toJson definition.toJson :=
  .self (by simp [Definition.keys, Body.amended_self])

theorem Schema.amended_self (schema : Schema) : Schema.Amended schema.toJson schema.toJson :=
  .self (by simp [Schema.keys, ListAmended.self Definition.amended_self])

/-! ## Reading -/

/-- Where a list is written as the empty one, it is the default. -/
theorem eq_nil_of_emptyList {α : Type} {write : α → Json} {values : List α}
    (h : some Json.emptyList = some (.arr (values.map write))) : values = [] := by
  simpa [Json.emptyList, eq_comm] using h

theorem eq_false_of_default {flag : Bool} (h : some (Json.bool false) = some (.bool flag)) :
    flag = false := by
  simpa [eq_comm] using h

theorem Field.restores (field : Field) :
    Restores Field.Amended Field.ofJson? field.toJson field := by
  intro json hjson
  obtain ⟨members, rfl, hretain⟩ := RecordAmended.members hjson rfl (by decide)
  simp only [Field.keys, List.forall₂_cons] at hretain
  obtain ⟨hname, htype, hsequence, hoptional, -⟩ := hretain
  have hname := hname.required rfl (restores_str field.name)
  have htype := htype.required rfl (restores_str field.typeName)
  have hsequence := hsequence.orElse eq_false_of_default (restores_bool field.isSequence)
  have hoptional := hoptional.orElse eq_false_of_default (restores_bool field.isOptional)
  simp [Field.ofJson?, Json.members?, hname, htype, hsequence, hoptional]

theorem Field.list_restores (fields : List Field) :
    Restores (ListAmended Field.Amended) Field.listOfJson? (Field.listToJson fields) fields :=
  restores_list Field.restores fields

theorem Constructor.restores (variant : Constructor) :
    Restores Constructor.Amended Constructor.ofJson? variant.toJson variant := by
  intro json hjson
  obtain ⟨members, rfl, hretain⟩ := RecordAmended.members hjson rfl (by decide)
  simp only [Constructor.keys, List.forall₂_cons] at hretain
  obtain ⟨hname, hfields, -⟩ := hretain
  have hname := hname.required rfl (restores_str variant.name)
  have hfields := hfields.orElse eq_nil_of_emptyList (Field.list_restores variant.fields)
  simp [Constructor.ofJson?, Json.members?, hname, hfields]

theorem Sum.restores (sum : Sum) : Restores Sum.Amended Sum.ofJson? sum.toJson sum := by
  intro json hjson
  obtain ⟨members, rfl, hretain⟩ := RecordAmended.members hjson rfl (by decide)
  simp only [Sum.keys, List.forall₂_cons] at hretain
  obtain ⟨hvariants, hattributes, -⟩ := hretain
  have hvariants := hvariants.required rfl (restores_list Constructor.restores sum.variants)
  have hattributes :=
    hattributes.orElse eq_nil_of_emptyList (Field.list_restores sum.attributes)
  rw [attributesKey] at hattributes
  simp [Sum.ofJson?, Json.members?, hvariants, hattributes]

theorem Product.restores (product : Product) :
    Restores Product.Amended Product.ofJson? product.toJson product := by
  intro json hjson
  obtain ⟨members, rfl, hretain⟩ := RecordAmended.members hjson rfl (by decide)
  simp only [Product.keys, List.forall₂_cons] at hretain
  obtain ⟨hfields, hattributes, -⟩ := hretain
  have hfields := hfields.required rfl (Field.list_restores product.fields)
  have hattributes :=
    hattributes.orElse eq_nil_of_emptyList (Field.list_restores product.attributes)
  rw [attributesKey] at hattributes
  simp [Product.ofJson?, Json.members?, hfields, hattributes]

theorem Body.restores (body : Body) : Restores Body.Amended Body.ofJson? body.toJson body := by
  intro json hjson
  generalize hwritten : body.toJson = written at hjson
  cases hjson with
  | sum hamended =>
    cases body with
    | sum choice =>
      simp only [Body.toJson, Json.obj.injEq, List.cons.injEq, Prod.mk.injEq, true_and,
        and_true] at hwritten
      subst hwritten
      simp [Body.ofJson?, Sum.restores choice _ hamended]
    | product record => simp [Body.toJson] at hwritten
  | product hamended =>
    cases body with
    | sum choice => simp [Body.toJson] at hwritten
    | product record =>
      simp only [Body.toJson, Json.obj.injEq, List.cons.injEq, Prod.mk.injEq, true_and,
        and_true] at hwritten
      subst hwritten
      simp [Body.ofJson?, Product.restores record _ hamended]

theorem Definition.restores (definition : Definition) :
    Restores Definition.Amended Definition.ofJson? definition.toJson definition := by
  intro json hjson
  obtain ⟨members, rfl, hretain⟩ := RecordAmended.members hjson rfl (by decide)
  simp only [Definition.keys, List.forall₂_cons] at hretain
  obtain ⟨hname, hbody, -⟩ := hretain
  have hname := hname.required rfl (restores_str definition.name)
  have hbody := hbody.required rfl (Body.restores definition.body)
  simp [Definition.ofJson?, Json.members?, hname, hbody]

theorem Schema.restores (schema : Schema) :
    Restores Schema.Amended Schema.ofJson? schema.toJson schema := by
  intro json hjson
  obtain ⟨members, rfl, hretain⟩ := RecordAmended.members hjson rfl (by decide)
  simp only [Schema.keys, List.forall₂_cons] at hretain
  obtain ⟨hname, htypes, -⟩ := hretain
  have hname := hname.required rfl (restores_str schema.name)
  have htypes :=
    htypes.orElse eq_nil_of_emptyList (restores_list Definition.restores schema.types)
  simp [Schema.ofJson?, Json.members?, hname, htypes]

/-- **The record of a schema loses nothing, and its defaults are neutral.** It is read as that
schema; and so is every record that differs from it only by default values left out, unknown
keys put in and the order of keys, at any depth. -/
theorem written_schema_faithful :
    (∀ schema : Schema, Schema.ofJson? schema.toJson = some schema) ∧
    ∀ (schema : Schema) (json : Json), Schema.Amended json schema.toJson →
      Schema.ofJson? json = some schema :=
  ⟨fun schema => schema.restores _ schema.amended_self, Schema.restores⟩

/-- A simple sum, and a product with a repeated field. -/
def demoSchema : Schema :=
  ⟨"demo", [⟨"color", .sum ⟨[⟨"Red", []⟩], []⟩⟩,
    ⟨"point", .product ⟨[⟨"tags", "string", true, false⟩], []⟩⟩]⟩

/-- Something that no record knows. -/
def demoNote : String × Json := ("note", .null)

/-- That schema without its defaults, with a note in every record that may have one, and with
the keys of the field and of the schema in reverse. -/
def demoRecord : Json :=
  .obj [demoNote, ("types", .arr [
      .obj [("name", .str "color"), demoNote, ("body", .obj [("sum", .obj [
        ("variants", .arr [.obj [("name", .str "Red"), demoNote]]), demoNote])])],
      .obj [("name", .str "point"), ("body", .obj [("product", .obj [demoNote,
        ("fields", .arr [.obj [demoNote, ("is-sequence", .bool true), ("type", .str "string"),
          ("name", .str "tags")]])])]), demoNote]]),
    ("name", .str "demo")]

/-- That record holds the schema. -/
theorem written_demo_faithful :
    Schema.Amended demoRecord demoSchema.toJson ∧
      Schema.ofJson? demoRecord = some demoSchema := by
  have hred : Constructor.Amended (.obj [("name", .str "Red"), demoNote])
      (Constructor.toJson ⟨"Red", []⟩) :=
    .intro (.refl _) (.keep (.head _) rfl
      (.add (by decide) (.drop (.tail _ (.head _)) rfl .nil)))
  have hsum : Sum.Amended
      (.obj [("variants", .arr [.obj [("name", .str "Red"), demoNote]]), demoNote])
      (Sum.toJson ⟨[⟨"Red", []⟩], []⟩) :=
    .intro (.refl _) (.keep (.head _) (.intro (.cons hred .nil))
      (.add (by decide) (.drop (.tail _ (.head _)) rfl .nil)))
  have htags : Field.Amended (.obj [demoNote, ("is-sequence", .bool true), ("type", .str "string"),
      ("name", .str "tags")]) (Field.toJson ⟨"tags", "string", true, false⟩) :=
    .intro (List.reverse_perm _).symm
      (.keep (.head _) rfl (.keep (.tail _ (.head _)) rfl (.keep (.tail _ (.tail _ (.head _))) rfl
        (.add (by decide) (.drop (.tail _ (.tail _ (.tail _ (.head _)))) rfl .nil)))))
  have hproduct : Product.Amended (.obj [demoNote, ("fields", .arr [.obj [demoNote,
      ("is-sequence", .bool true), ("type", .str "string"), ("name", .str "tags")]])])
      (Product.toJson ⟨[⟨"tags", "string", true, false⟩], []⟩) :=
    .intro (.refl _) (.add (by decide) (.keep (.head _) (.intro (.cons htags .nil))
      (.drop (.tail _ (.head _)) rfl .nil)))
  have hamended : Schema.Amended demoRecord demoSchema.toJson := by
    refine .intro (List.reverse_perm _).symm
      (.keep (.head _) rfl (.keep (.tail _ (.head _)) (.intro (.cons ?color (.cons ?point .nil)))
        (.add (by decide) .nil)))
    case color =>
      exact .intro (.refl _) (.keep (.head _) rfl
        (.add (by decide) (.keep (.tail _ (.head _)) (.sum hsum) .nil)))
    case point =>
      exact .intro (.refl _) (.keep (.head _) rfl
        (.keep (.tail _ (.head _)) (.product hproduct) (.add (by decide) .nil)))
  exact ⟨hamended, written_schema_faithful.2 demoSchema demoRecord hamended⟩

end ReaderGen
