import ReaderGen.Layout.Record
import ReaderGen.Proofs.Json.Rearranged

/-!
# ReaderGen.Proofs.Layout.Record -- a layout is read back from its record

One lemma for each kind of record, from the leaves to the layout: what `toJson` writes,
`ofJson?` reads, in any order of the keys. A record of known members is read member by
member; a choice is read by its tag first, and then as the record of its alternative.
-/

namespace ReaderGen

open Json (Reads Rigour)

/-! ## Constructors, attributes and classes -/

theorem Builtin.ofName?_name (builtin : Builtin) : Builtin.ofName? builtin.name = some builtin :=
  Builtin.ofName?_eq_some_iff.mpr rfl

theorem EnumVariant.reads (variant : EnumVariant) :
    Reads EnumVariant.ofJson? variant.toJson variant := by
  intro json hjson
  obtain ⟨members, rfl, hold⟩ := hjson.members (by simp)
  have hname := hold.required "name" rfl (Json.reads_str variant.name)
  have hvalue := hold.required "value" rfl (Json.reads_uint8 variant.value)
  simp [EnumVariant.ofJson?, Json.members?, hname, hvalue]

theorem Attribute.reads (rigour : Rigour) (member : Attribute) :
    Reads (Attribute.ofJson? rigour) member.toJson member := by
  intro json hjson
  obtain ⟨members, rfl, hold⟩ := hjson.members (by simp)
  have hname := hold.required "name" rfl (Json.reads_str member.name)
  have hbuiltin :=
    hold.required "builtin" rfl (Json.reads_plainChoice rigour member.builtin.name)
  simp [Attribute.ofJson?, Json.members?, hname, hbuiltin, Builtin.ofName?_name]

theorem ClassRef.reads (rigour : Rigour) (ref : ClassRef) :
    Reads (ClassRef.ofJson? rigour) ref.toJson ref := by
  intro json hjson
  cases ref with
  | product typeName =>
    obtain ⟨members, rfl, hold⟩ := hjson.members (by simp)
    have htype := hold.required "type_name" rfl (Json.reads_str typeName)
    simp [ClassRef.ofJson?, hold.tagged "kind" rfl, Json.members?, htype]
  | variant sumName constructor =>
    obtain ⟨members, rfl, hold⟩ := hjson.members (by simp)
    have hsum := hold.required "sum_name" rfl (Json.reads_str sumName)
    have hconstructor := hold.required "constructor" rfl (Json.reads_str constructor)
    simp [ClassRef.ofJson?, hold.tagged "kind" rfl, Json.members?, hsum, hconstructor]

/-! ## Accessors -/

theorem ValueKind.reads (rigour : Rigour) (value : ValueKind) :
    Reads (ValueKind.ofJson? rigour) value.toJson value := by
  intro json hjson
  cases value with
  | int | bool | str | id =>
    obtain ⟨members, rfl, hold⟩ := hjson.members (by simp)
    simp [ValueKind.ofJson?, hold.tagged "kind" rfl, Json.members?]
  | enumeration typeName =>
    obtain ⟨members, rfl, hold⟩ := hjson.members (by simp)
    have htype := hold.required "type_name" rfl (Json.reads_str typeName)
    simp [ValueKind.ofJson?, hold.tagged "kind" rfl, Json.members?, htype]
  | object typeName isOptional =>
    obtain ⟨members, rfl, hold⟩ := hjson.members (by simp)
    have htype := hold.required "type_name" rfl (Json.reads_str typeName)
    have hoptional := hold.required "optional" rfl (Json.reads_bool isOptional)
    simp [ValueKind.ofJson?, hold.tagged "kind" rfl, Json.members?, htype, hoptional]

theorem Cardinality.reads (rigour : Rigour) (cardinality : Cardinality) :
    Reads (Cardinality.ofJson? rigour) cardinality.toJson cardinality := by
  intro json hjson
  cases cardinality with
  | single =>
    obtain ⟨members, rfl, hold⟩ := hjson.members (by simp)
    simp [Cardinality.ofJson?, hold.tagged "kind" rfl, Json.members?]
  | «repeated» stride =>
    obtain ⟨members, rfl, hold⟩ := hjson.members (by simp)
    have hstride := hold.required "stride" rfl (Json.reads_uint32 stride)
    simp [Cardinality.ofJson?, hold.tagged "kind" rfl, Json.members?, hstride]

theorem Accessor.reads (rigour : Rigour) (accessor : Accessor) :
    Reads (Accessor.ofJson? rigour) accessor.toJson accessor := by
  intro json hjson
  obtain ⟨members, rfl, hold⟩ := hjson.members (by simp)
  have hfield := hold.required "field" rfl (Json.reads_str accessor.field)
  have hoffset := hold.required "offset" rfl (Json.reads_uint32 accessor.offset)
  have hvalue := hold.required "value" rfl (ValueKind.reads rigour accessor.value)
  have hcardinality :=
    hold.required "cardinality" rfl (Cardinality.reads rigour accessor.cardinality)
  simp [Accessor.ofJson?, Json.members?, hfield, hoffset, hvalue, hcardinality]

/-! ## Declarations

The members of a body stand behind the tag of the declaration, and the body is read from the
record with its tag. -/

theorem Enumeration.reads (tag : Json) (body : Enumeration) :
    Reads Enumeration.ofJson? (.obj (("decl", tag) :: body.members)) body := by
  intro json hjson
  obtain ⟨members, rfl, hold⟩ := hjson.members (by simp [Enumeration.members])
  have htype := hold.required "type_name" rfl (Json.reads_str body.typeName)
  have hvariants :=
    hold.required "variants" rfl (Json.reads_list EnumVariant.reads body.variants)
  simp [Enumeration.ofJson?, Json.members?, htype, hvariants]

theorem TaggedBase.reads (rigour : Rigour) (tag : Json) (body : TaggedBase) :
    Reads (TaggedBase.ofJson? rigour) (.obj (("decl", tag) :: body.members)) body := by
  intro json hjson
  obtain ⟨members, rfl, hold⟩ := hjson.members (by simp [TaggedBase.members])
  have htype := hold.required "type_name" rfl (Json.reads_str body.typeName)
  have hattributes := hold.orElse "attributes" [] rfl
    (Json.reads_list (Attribute.reads rigour) body.attributes)
  simp [TaggedBase.ofJson?, Json.members?, htype, hattributes]

theorem AccessorClass.reads (rigour : Rigour) (tag : Json) (body : AccessorClass) :
    Reads (AccessorClass.ofJson? rigour) (.obj (("decl", tag) :: body.members)) body := by
  intro json hjson
  obtain ⟨members, rfl, hold⟩ := hjson.members (by simp [AccessorClass.members])
  have hclass := hold.required "class" rfl (ClassRef.reads rigour body.ref)
  have haccessors :=
    hold.required "accessors" rfl (Json.reads_list (Accessor.reads rigour) body.accessors)
  have hattributes := hold.orElse "attributes" [] rfl
    (Json.reads_list (Attribute.reads rigour) body.attributes)
  simp [AccessorClass.ofJson?, Json.members?, hclass, haccessors, hattributes]

theorem Declaration.reads (declaration : Declaration) :
    Reads Declaration.ofJson? declaration.toJson declaration := by
  intro json hjson
  cases declaration with
  | enumeration body =>
    have hbody := Enumeration.reads _ body json hjson
    obtain ⟨members, rfl, hold⟩ := hjson.members (by simp [Enumeration.members])
    simp [Declaration.ofJson?, hold.tagged "decl" rfl, hbody]
  | taggedBase body =>
    have hbody := TaggedBase.reads .loose _ body json hjson
    obtain ⟨members, rfl, hold⟩ := hjson.members (by simp [TaggedBase.members])
    simp [Declaration.ofJson?, hold.tagged "decl" rfl, hbody]
  | accessorClass body =>
    have hbody := AccessorClass.reads .loose _ body json hjson
    obtain ⟨members, rfl, hold⟩ := hjson.members (by simp [AccessorClass.members])
    simp [Declaration.ofJson?, hold.tagged "decl" rfl, hbody]

/-! ## Layouts -/

theorem Deferred.reads (deferred : Deferred) :
    Reads Deferred.ofJson? deferred.toJson deferred := by
  intro json hjson
  obtain ⟨members, rfl, hold⟩ := hjson.members (by simp)
  have howner := hold.required "owner" rfl (ClassRef.reads .strict deferred.owner)
  have haccessor := hold.required "accessor" rfl (Accessor.reads .strict deferred.accessor)
  simp [Deferred.ofJson?, Json.members?, howner, haccessor]

theorem Encoding.reads (encoding : Encoding) :
    Reads Encoding.ofJson? encoding.toJson encoding := by
  intro json hjson
  obtain ⟨members, rfl, hold⟩ := hjson.members (by simp)
  have halignment := hold.required "alignment" rfl (Json.reads_uint32 encoding.alignment)
  have hwidth := hold.required "ref-width" rfl (Json.reads_uint32 encoding.refWidth)
  have helement := hold.required "index-element-type" rfl
    (Json.reads_plainChoice .strict encoding.indexElement.name)
  have hstride := hold.required "array-stride" rfl (Json.reads_uint32 encoding.arrayStride)
  simp [Encoding.ofJson?, Json.members?, halignment, hwidth, helement, hstride,
    IndexElement.ofName?_name]

theorem Layout.reads (layout : Layout) : Reads Layout.ofJson? layout.toJson layout := by
  intro json hjson
  obtain ⟨members, rfl, hold⟩ := hjson.members (by simp)
  have hversion := hold.required "version" rfl (Json.reads_uint32 layout.version)
  have hmodule := hold.required "module_name" rfl (Json.reads_str layout.moduleName)
  have hencoding := hold.required "encoding" rfl (Encoding.reads layout.encoding)
  have hforwards :=
    hold.required "forward_decls" rfl (Json.reads_list Json.reads_str layout.forwards)
  have hdeclarations := hold.required "declarations" rfl
    (Json.reads_list Declaration.reads layout.declarations)
  have hdeferred := hold.required "deferred" rfl (Json.reads_list Deferred.reads layout.deferred)
  simp [Layout.ofJson?, Json.members?, hversion, hmodule, hencoding, hforwards, hdeclarations,
    hdeferred]

end ReaderGen
