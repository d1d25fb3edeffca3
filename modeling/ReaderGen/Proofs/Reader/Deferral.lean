import ReaderGen.Proofs.Layout.Exact
import ReaderGen.Proofs.Reader.Emitters
import ReaderGen.Proofs.Reader.Scan

/-!
# ReaderGen.Proofs.Reader.Deferral -- prototypes in the classes, bodies behind them

The two scans of a unit find the same queue of deferred accessors, in its order, so
**prototypes and bodies agree one by one** (`prototypes_agree_with_bodies`): return type,
parameters, qualified name, and a cast that fits the type. The last one rests on the
builder: no field is both repeated and optional.
-/

namespace ReaderGen.Reader

/-! ## Agreement -/

/-- What a function returns, is called and takes. -/
structure Signature where
  type : String
  name : String
  parameters : String
  deriving DecidableEq, Repr

namespace Signature

/-- The text of a signature. -/
def text (signature : Signature) : String :=
  "inline const " ++ signature.type ++ " " ++ signature.name ++ "(" ++ signature.parameters ++
    ") const"

/-- The same signature, outside the class `owner`. -/
def outside (signature : Signature) (owner : String) : Signature :=
  { signature with name := owner ++ "::" ++ signature.name }

end Signature

/-- The operand follows a slot that may be empty. -/
def IsOptionalCall (operand : String) : Prop :=
  ∃ slot, operand = "Optional(base, " ++ number slot ++ ")"

/-- The operand follows a slot, or a slot and then an element. -/
def IsRefChain (operand : String) : Prop :=
  ∃ slot, operand = "Ref(base, " ++ number slot ++ ")" ∨
    operand = "Ref(base, " ++ number slot ++ ").Ref(base, a)"

/-- A prototype in the class `owner` and a function outside have one signature, and the
function casts what it returns to its return type: to a pointer exactly what may be absent,
to a reference exactly what is there. -/
structure Agrees (signature : Signature) (owner parent operand : String) (prototype : Prototype)
    (outlined : Outlined) : Prop where
  scope : prototype.scope = some (opened ("class " ++ owner ++ " : public " ++ parent))
  text : prototype.text = signature.text ++ ";"
  head : outlined.head = opened (signature.outside owner).text
  returned : outlined.body.getLast? = some ("return " ++ castTo signature.type operand ++ ";")
  pointer_iff : Ends '*' signature.type ↔ IsOptionalCall operand
  reference_iff : Ends '&' signature.type ↔ IsRefChain operand

/-- How an accessor is shown in its class, on the lines that its emitter sends: without a body
exactly if it is in the queue, and otherwise as the function with its own header. The count of a
repeated field has a body and stands in front, in either case. -/
structure ShownInClass (layout : Layout) (cls : AccessorClass) (accessor : Accessor) : Prop where
  written : Writes (Writer.emitAccessor accessor layout.encoding.indexElement.typeName 1)
    (accessorLines accessor layout.encoding.indexElement.typeName 1)
  bodiless_iff :
    (∃ text, .line text 1 ∈ accessorLines accessor layout.encoding.indexElement.typeName 1 ∧
      IsPrototype text) ↔ ⟨cls.ref, accessor⟩ ∈ layout.deferred
  counted : ⟨cls.ref, accessor⟩ ∈ layout.deferred → ∃ text, IsPrototype text ∧
    accessorLines accessor layout.encoding.indexElement.typeName 1 =
      countLines accessor layout.encoding.indexElement.typeName 1 ++ [.line text 1]
  count_bodied : AllBodied 1 (countHeaders accessor layout.encoding.indexElement.typeName)
    (countLines accessor layout.encoding.indexElement.typeName 1)
  bodied : ⟨cls.ref, accessor⟩ ∉ layout.deferred →
    AllBodied 1 (countHeaders accessor layout.encoding.indexElement.typeName ++
        [ownHeader accessor layout.encoding.indexElement.typeName])
      (accessorLines accessor layout.encoding.indexElement.typeName 1)

/-- The parameters of an accessor that reads through the base. -/
def parametersOf (accessor : Accessor) (pointer : String) : String :=
  match accessor.cardinality with
  | .single => "const " ++ pointer ++ "* base"
  | .repeated _ => "const " ++ pointer ++ "* base, int index"

theorem signatureOf_eq (accessor : Accessor) (name pointer : String) :
    signatureOf accessor name pointer =
      (Signature.mk (valueType accessor.value) name (parametersOf accessor pointer)).text := by
  unfold signatureOf parametersOf Signature.text
  apply String.toList_injective
  cases accessor.cardinality with
  | single => simp [pointerSignature_eq]
  | «repeated» stride => simp [elementSignature_eq]

theorem not_isOptionalCall_of_starts {operand : String} (h : Starts "Ref" operand) :
    ¬ IsOptionalCall operand := by
  rintro ⟨slot, rfl⟩
  simp [Starts] at h

theorem not_isRefChain_of_starts {operand : String} (h : Starts "Optional" operand) :
    ¬ IsRefChain operand := by
  rintro ⟨slot, rfl | rfl⟩ <;> simp [Starts] at h

/-- **The type of an object decides its cast**, unless it is both optional and repeated. -/
theorem cast_agrees {accessor : Accessor} {typeName : String} {isOptional : Bool}
    (hvalue : accessor.value = .object typeName isOptional)
    (hmarks : isOptional = true → accessor.cardinality = .single) :
    (Ends '*' (valueType accessor.value) ↔ IsOptionalCall (operandOf accessor)) ∧
    (Ends '&' (valueType accessor.value) ↔ IsRefChain (operandOf accessor)) := by
  cases isOptional with
  | true =>
    have hsingle := hmarks rfl
    have hends : ∀ mark, Ends mark (valueType accessor.value) ↔ mark = '*' := by
      intro mark
      rw [hvalue, valueType, if_pos rfl]
      exact ends_append (by decide)
    have hoperand : operandOf accessor = "Optional(base, " ++ number accessor.offset ++ ")" := by
      rw [operandOf, hvalue, hsingle]
    have hnotRef : ¬ IsRefChain (operandOf accessor) := by
      apply not_isRefChain_of_starts
      rw [hoperand]
      simp [Starts]
    rw [hends, hends]
    exact ⟨iff_of_true rfl ⟨accessor.offset, hoperand⟩, iff_of_false (by decide) hnotRef⟩
  | false =>
    have hends : ∀ mark, Ends mark (valueType accessor.value) ↔ mark = '&' := by
      intro mark
      rw [hvalue, valueType, if_neg Bool.false_ne_true]
      exact ends_append (by decide)
    have hchain : operandOf accessor = "Ref(base, " ++ number accessor.offset ++ ")" ∨
        operandOf accessor = "Ref(base, " ++ number accessor.offset ++ ").Ref(base, a)" := by
      rw [operandOf, hvalue]
      cases accessor.cardinality with
      | single => exact Or.inl rfl
      | «repeated» stride => exact Or.inr rfl
    have hnotOptional : ¬ IsOptionalCall (operandOf accessor) := by
      apply not_isOptionalCall_of_starts
      rcases hchain with h | h <;> rw [h] <;> simp [Starts]
    rw [hends, hends]
    exact ⟨iff_of_false (by decide) hnotOptional, iff_of_true rfl ⟨accessor.offset, hchain⟩⟩

/-- The prototype and the body of one deferred accessor agree. -/
theorem agrees_of_object {deferred : Deferred} {typeName : String} {isOptional : Bool}
    (hvalue : deferred.accessor.value = .object typeName isOptional)
    (hmarks : isOptional = true → deferred.accessor.cardinality = .single) (pointer : String) :
    Agrees ⟨valueType deferred.accessor.value, deferred.accessor.field,
        parametersOf deferred.accessor pointer⟩
      (refName deferred.owner) (parentName deferred.owner) (operandOf deferred.accessor)
      (prototypeOf pointer deferred) (outlinedOf pointer deferred) where
  scope := rfl
  text := by rw [prototypeOf, signatureOf_eq]
  head := by
    show outlinedHead deferred pointer = _
    rw [outlinedHead, signatureOf_eq]
    rfl
  returned := by
    -- whatever names the place of an element, the cast is the last line
    show (placeLines deferred.accessor ++ [downcast deferred.accessor]).getLast? = _
    rw [List.getLast?_append, List.getLast?_singleton, Option.some_or, downcast_eq]
  pointer_iff := (cast_agrees hvalue hmarks).1
  reference_iff := (cast_agrees hvalue hmarks).2

/-- In the queue of a layout stand objects, and none that is both optional and repeated. -/
theorem object_of_mem_deferred {schema : Schema} {encoding : Encoding} {layout : Layout}
    (hbuild : Layout.build schema encoding = .ok layout) {deferred : Deferred}
    (hmem : deferred ∈ layout.deferred) :
    ∃ typeName isOptional, deferred.accessor.value = .object typeName isOptional ∧
      (isOptional = true → deferred.accessor.cardinality = .single) := by
  obtain ⟨declarations, hdenotes, rfl⟩ := Layout.build_eq_ok_iff.mp hbuild
  obtain ⟨cls, hcls, -, haccessor, hdeferred⟩ := Layout.exists_class_of_deferred hmem
  obtain ⟨definition, -, fields, -, hslots⟩ := hdenotes.hasClass_of_mem hcls
  obtain ⟨field, -, slot, haccessorOf⟩ := hslots.exists_field haccessor
  have hmarks := haccessorOf.one_mark
  have hcardinality := haccessorOf.cardinality_eq
  have hread := haccessorOf.value
  rw [Accessor.isDeferred] at hdeferred
  generalize hvalue : deferred.accessor.value = value at hread hdeferred
  cases hread with
  | @builtin builtin _ => cases builtin <;> cases hdeferred
  | enumeration => cases hdeferred
  | object =>
    refine ⟨field.typeName, field.isOptional, rfl, ?_⟩
    intro hoptional
    rw [hcardinality, if_neg (fun hsequence => hmarks ⟨hsequence, hoptional⟩)]

/-- **Prototypes and bodies agree.** On the lines that a unit is written as, an accessor stands
in its class without a body exactly if it is deferred; the prototypes are those of the queue; and
the functions outside the classes are one for each prototype, in the same order, with the
signature of the prototype under the name of its class and a cast that fits its type. -/
theorem prototypes_agree_with_bodies {schema : Schema} {encoding : Encoding} {layout : Layout}
    (hbuild : Layout.build schema encoding = .ok layout) :
    Writes (Writer.emitUnit layout) (unitEntries layout) ∧
    (∀ cls, .accessorClass cls ∈ layout.declarations → ∀ accessor ∈ cls.accessors,
      ShownInClass layout cls accessor) ∧
    prototypesFrom none (unitEntries layout) =
      layout.deferred.map (prototypeOf layout.encoding.indexElement.typeName) ∧
    List.Forall₂ (fun prototype outlined => ∃ signature owner parent operand,
        Agrees signature owner parent operand prototype outlined)
      (prototypesFrom none (unitEntries layout)) (outlinedFrom (unitEntries layout)) := by
  have hqueue : layout.deferred = layout.declarations.flatMap Declaration.deferred := by
    obtain ⟨declarations, -, rfl⟩ := Layout.build_eq_ok_iff.mp hbuild
    rfl
  have hprototypes : prototypesFrom none (unitEntries layout) =
      layout.deferred.map (prototypeOf layout.encoding.indexElement.typeName) := by
    rw [hqueue]
    exact prototypesFrom_unitEntries layout
  refine ⟨writes_emitUnit layout, ?_, hprototypes, ?_⟩
  · intro cls hcls accessor haccessor
    -- membership in the queue is decided by the accessor alone, whatever its class
    have hmem : ⟨cls.ref, accessor⟩ ∈ layout.deferred ↔ accessor.isDeferred = true := by
      constructor
      · intro h
        obtain ⟨typeName, isOptional, hobject, -⟩ := object_of_mem_deferred hbuild h
        have hvalue : accessor.value = .object typeName isOptional := hobject
        rw [Accessor.isDeferred, hvalue]
      · intro h
        rw [hqueue]
        refine List.mem_flatMap.mpr ⟨_, hcls, ?_⟩
        exact List.mem_map.mpr ⟨accessor, List.mem_filter.mpr ⟨haccessor, h⟩, rfl⟩
    refine ⟨writes_emitAccessor accessor _ 1,
      (exists_prototype_iff accessor _ 0).trans hmem.symm, ?_, countLines_allBodied accessor _ 1,
      ?_⟩
    · intro h
      exact ⟨_, signatureOf_isPrototype accessor accessor.field _,
        accessorLines_of_deferred (hmem.mp h) _ 1⟩
    · intro h
      have hbodied : accessor.isDeferred = false := by
        rw [← Bool.not_eq_true]
        exact fun hdeferred => h (hmem.mpr hdeferred)
      exact accessorLines_of_not_deferred hbodied _ 1
  · rw [hprototypes, outlinedFrom_unitEntries, List.forall₂_map_left_iff,
      List.forall₂_map_right_iff, List.forall₂_same]
    intro deferred hdeferred
    obtain ⟨_, _, hvalue, hmarks⟩ := object_of_mem_deferred hbuild hdeferred
    exact ⟨_, _, _, _, agrees_of_object hvalue hmarks _⟩

/-- A product that leads to itself in all three ways, behind a number. -/
def linkSchema : Schema :=
  ⟨"m", [⟨"node", .product ⟨[⟨"count", "int", false, false⟩, ⟨"next", "node", false, true⟩,
    ⟨"first", "node", false, false⟩, ⟨"all", "node", true, false⟩], []⟩⟩]⟩

theorem prototypes_agree_of_links :
    ∃ layout, Layout.build linkSchema .standard = .ok layout ∧ layout.deferred.length = 3 ∧
      List.Forall₂ (fun prototype outlined => ∃ signature owner parent operand,
          Agrees signature owner parent operand prototype outlined)
        (prototypesFrom none (unitEntries layout)) (outlinedFrom (unitEntries layout)) := by
  have hbuild : Layout.build linkSchema .standard = .ok _ := rfl
  exact ⟨_, hbuild, rfl, (prototypes_agree_with_bodies hbuild).2.2.2⟩

end ReaderGen.Reader
