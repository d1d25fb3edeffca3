import ReaderGen.Layout.Build
import ReaderGen.Proofs.Layout.Denotation

/-!
# ReaderGen.Proofs.Layout.Exact -- the builder against the denotation

The builder resolves names through a table, walks the definitions and appends to a
growing list. **Each of its functions has one lemma here, an equivalence between "it
returns this" and "the relation holds"**, from the tags of an enumeration up to the
layout of a schema (`build_eq_ok_iff`). A later argument about layouts opens the
relation and never the builder.
-/

namespace ReaderGen.Layout

/-! ## Enumerations and attributes -/

theorem numberFrom_names (value : Nat) (variants : List Constructor) :
    (numberFrom value variants).map EnumVariant.name = variants.map Constructor.name := by
  induction variants generalizing value with
  | nil => rfl
  | cons variant rest ih =>
    rw [numberFrom, List.map_cons, List.map_cons, ih]

theorem numberFrom_values (value : Nat) (variants : List Constructor)
    (h : value + variants.length ≤ 256) :
    (numberFrom value variants).map (fun variant => variant.value.toNat) =
      List.range' value variants.length := by
  induction variants generalizing value with
  | nil => rfl
  | cons variant rest ih =>
    rw [List.length_cons] at h
    have hvalue : (UInt8.ofNat value).toNat = value :=
      UInt8.toNat_ofNat_of_lt' (show value < 256 by omega)
    rw [numberFrom, List.map_cons, ih (value + 1) (by omega), hvalue, List.length_cons,
      List.range'_succ]

/-- Names and tag numbers determine the variants of an enumeration. -/
theorem variants_eq_of_names_values {these those : List EnumVariant}
    (hnames : these.map EnumVariant.name = those.map EnumVariant.name)
    (hvalues : these.map (fun variant => variant.value.toNat) =
      those.map fun variant => variant.value.toNat) : these = those := by
  induction these generalizing those with
  | nil =>
    cases those with
    | nil => rfl
    | cons _ _ => simp at hnames
  | cons this these ih =>
    cases those with
    | nil => simp at hnames
    | cons that those =>
      simp only [List.map_cons, List.cons.injEq] at hnames hvalues
      obtain ⟨thisName, thisValue⟩ := this
      obtain ⟨thatName, thatValue⟩ := that
      rw [ih hnames.2 hvalues.2]
      have hvalue : thisValue = thatValue := UInt8.toNat_inj.mp hvalues.1
      rw [show thisName = thatName from hnames.1, hvalue]

theorem enumerationOf_eq_ok_iff {name : String} {sum : Sum} {enumeration : Enumeration} :
    enumerationOf name sum = .ok enumeration ↔ EnumerationOf name sum enumeration := by
  unfold enumerationOf
  constructor
  · intro h
    split at h
    · cases h
    · next hcount =>
      cases h
      rw [maxConstructors] at hcount
      exact ⟨rfl, numberFrom_names 1 _, numberFrom_values 1 _ (by omega)⟩
  · intro h
    have hcount := h.length_le
    rw [if_neg (show ¬ maxConstructors < _ from Nat.not_lt.mpr hcount)]
    obtain ⟨typeName, variants⟩ := enumeration
    have hvariants : variants = numberFrom 1 sum.variants := by
      apply variants_eq_of_names_values
      · rw [numberFrom_names]
        exact h.names
      · rw [numberFrom_values 1 _ (by omega)]
        exact h.values
    rw [hvariants, show typeName = name from h.typeName_eq]

theorem attributesOf_eq_ok_iff {owner : String} {fields : List Field}
    {attributes : List Attribute} :
    attributesOf owner fields = .ok attributes ↔ List.Forall₂ AttributeOf fields attributes := by
  induction fields generalizing attributes with
  | nil => simp [attributesOf, eq_comm]
  | cons field rest ih =>
    rw [attributesOf, List.forall₂_cons_left_iff]
    cases hbuiltin : field.builtin? with
    | none =>
      constructor
      · intro h
        cases h
      · rintro ⟨member, _, hmember, -, -⟩
        have hnone := field.builtin?_eq_none_iff.mp hbuiltin
        exact absurd hmember.builtin_eq (hnone member.builtin)
    | some builtin =>
      have hname : builtin.name = field.typeName := Builtin.ofName?_eq_some_iff.mp hbuiltin
      constructor
      · intro h
        cases hrest : attributesOf owner rest with
        | error fault => simp [hrest] at h
        | ok attributes' =>
          simp only [hrest, Except.ok.injEq] at h
          exact ⟨_, _, ⟨rfl, hname⟩, ih.mp hrest, h.symm⟩
      · rintro ⟨⟨name, builtin'⟩, attributes', hmember, hrest, rfl⟩
        have hsame := Builtin.ofName?_eq_some_iff.mpr hmember.builtin_eq
        rw [Field.builtin?] at hbuiltin
        rw [hbuiltin, Option.some.injEq] at hsame
        simp only [ih.mpr hrest, ← hmember.name_eq, hsame]

/-! ## Accessors and classes -/

section Resolved

variable {schema : Schema} {table : TypeTable} {encoding : Encoding}

/-- What a reference is read as is what the field denotes. -/
theorem fieldValue_iff {field : Field} {value : ValueKind} :
    FieldValue schema field value ↔
      ∃ reference, RefersTo schema field.typeName reference ∧
        value = valueKind reference field.isOptional := by
  constructor
  · intro h
    cases h with
    | @builtin builtin hname =>
      refine ⟨.builtin builtin, .builtin hname, ?_⟩
      cases builtin <;> rfl
    | @enumeration definition hnone hmem hname henum =>
      exact ⟨_, .enumeration hnone hmem hname henum, by rw [valueKind, hname]⟩
    | @object definition hnone hmem hname hobject =>
      exact ⟨_, .object hnone hmem hname hobject, by rw [valueKind, hname]⟩
  · rintro ⟨reference, href, rfl⟩
    cases href with
    | @builtin builtin hname =>
      have hvalue : valueKind (.builtin builtin) field.isOptional = builtinValue builtin := by
        cases builtin <;> rfl
      rw [hvalue]
      exact .builtin hname
    | @enumeration definition hnone hmem hname henum =>
      rw [valueKind, hname]
      exact .enumeration hnone hmem hname henum
    | @object definition hnone hmem hname hobject =>
      rw [valueKind, hname]
      exact .object hnone hmem hname hobject

theorem accessorOf_eq_ok_iff (htable : TypeTable.ofSchema schema = .ok table) {owner : String}
    {field : Field} {offset : UInt32} {accessor : Accessor} :
    accessorOf table encoding owner field offset = .ok accessor ↔
      AccessorOf schema encoding offset field accessor := by
  unfold accessorOf
  by_cases hmarks : field.isSequence = true ∧ field.isOptional = true
  · rw [if_pos (by simpa using hmarks)]
    constructor
    · intro h
      cases h
    · intro h
      exact absurd hmarks h.one_mark
  · rw [if_neg (by simpa using hmarks)]
    constructor
    · intro h
      cases href : table.resolve owner field with
      | error fault => simp [href] at h
      | ok reference =>
        simp only [href, Except.ok.injEq] at h
        subst h
        have hvalue := fieldValue_iff.mpr ⟨reference, (TypeTable.resolve_eq_ok_iff htable).mp href,
          rfl⟩
        exact ⟨hmarks, rfl, rfl, hvalue, rfl⟩
    · intro h
      obtain ⟨reference, href, hvalue⟩ := fieldValue_iff.mp h.value
      obtain ⟨name, place, value, count⟩ := accessor
      have hname : name = field.name := h.field_eq
      have hplace : place = offset := h.offset_eq
      have hcount : count = cardinality encoding field := h.cardinality_eq
      simp only [(TypeTable.resolve_eq_ok_iff htable).mpr href, hname, hplace, hcount]
      rw [show value = valueKind reference field.isOptional from hvalue]

/-! ## Appending blocks -/

/-- The parts with a block of declarations behind them, and its deferred accessors. -/
def Parts.extend (parts : Parts) (block : List Declaration) : Parts :=
  parts.append ⟨block, block.flatMap Declaration.deferred⟩

@[simp] theorem Parts.extend_nil (parts : Parts) : parts.extend [] = parts := by
  simp [Parts.extend, Parts.append]

@[simp] theorem Parts.extend_extend (parts : Parts) (block more : List Declaration) :
    (parts.extend block).extend more = parts.extend (block ++ more) := by
  simp [Parts.extend, Parts.append]

/-! ## Classes -/

/-- The parts with the queue of some accessors of a class behind them. -/
def Parts.Queued (ref : ClassRef) (accessors : List Accessor) (parts after : Parts) : Prop :=
  ∃ queue, QueueOf ref accessors queue ∧ after = parts.append ⟨[], queue⟩

theorem Parts.queued_nil_iff {ref : ClassRef} {parts after : Parts} :
    Queued ref [] parts after ↔ after = parts := by
  constructor
  · rintro ⟨queue, hqueue, rfl⟩
    cases hqueue
    simp [append]
  · rintro rfl
    exact ⟨[], .nil, by simp [append]⟩

/-- **To queue an accessor and then the others is to queue them all**, whether or not the first
one reads an object. -/
theorem Parts.queued_cons_iff {ref : ClassRef} {accessor : Accessor} {accessors : List Accessor}
    {parts after : Parts} :
    Queued ref (accessor :: accessors) parts after ↔
      Queued ref accessors (parts.enqueue ref accessor) after := by
  by_cases hobject : accessor.ReadsObject
  · have hqueued : parts.enqueue ref accessor = parts.append ⟨[], [⟨ref, accessor⟩]⟩ :=
      if_pos (accessor.isDeferred_iff.mpr hobject)
    constructor
    · rintro ⟨_, hqueue, rfl⟩
      cases hqueue with
      | object _ hqueue => exact ⟨_, hqueue, by simp [hqueued, append]⟩
      | other hother _ => exact absurd hobject hother
    · rintro ⟨queue, hqueue, rfl⟩
      exact ⟨_, .object hobject hqueue, by simp [hqueued, append]⟩
  · have hsame : parts.enqueue ref accessor = parts :=
      if_neg (mt accessor.isDeferred_iff.mp hobject)
    constructor
    · rintro ⟨queue, hqueue, rfl⟩
      cases hqueue with
      | object hread _ => exact absurd hread hobject
      | other _ hqueue => exact ⟨queue, hqueue, by rw [hsame]⟩
    · rintro ⟨queue, hqueue, rfl⟩
      exact ⟨queue, .other hobject hqueue, by rw [hsame]⟩

/-- **The loop over the fields lays out their slots, and queues the accessors that read objects
as it builds them.** -/
theorem addAccessors_eq_ok_iff (htable : TypeTable.ofSchema schema = .ok table) {ref : ClassRef}
    {owner : String} {offset : UInt32} {fields : List Field} {accessors : List Accessor}
    {parts after : Parts} :
    addAccessors table encoding ref owner offset fields parts = (after, .ok accessors) ↔
      Slots schema encoding offset fields accessors ∧ Parts.Queued ref accessors parts after := by
  induction fields generalizing offset accessors parts with
  | nil =>
    rw [addAccessors]
    constructor
    · intro h
      cases h
      exact ⟨.nil, Parts.queued_nil_iff.mpr rfl⟩
    · rintro ⟨hslots, hqueued⟩
      cases hslots
      rw [Parts.queued_nil_iff.mp hqueued]
  | cons field rest ih =>
    rw [addAccessors]
    constructor
    · intro h
      cases haccessor : accessorOf table encoding owner field offset with
      | error fault => simp [haccessor] at h
      | ok accessor =>
        simp only [haccessor] at h
        rcases hrest : addAccessors table encoding ref owner (offset + encoding.refWidth) rest
          (parts.enqueue ref accessor) with ⟨between, _ | accessors⟩
        · simp [hrest] at h
        · simp only [hrest, Prod.mk.injEq, Except.ok.injEq] at h
          obtain ⟨rfl, rfl⟩ := h
          obtain ⟨hslots, hqueued⟩ := ih.mp hrest
          exact ⟨.cons ((accessorOf_eq_ok_iff htable).mp haccessor) hslots,
            Parts.queued_cons_iff.mpr hqueued⟩
    · rintro ⟨hslots, hqueued⟩
      cases hslots with
      | cons haccessor hslots =>
        simp only [(accessorOf_eq_ok_iff htable).mpr haccessor,
          ih.mpr ⟨hslots, Parts.queued_cons_iff.mp hqueued⟩]

/-- A class stands behind its own queue, so both lists have grown by the same block. -/
theorem Parts.Queued.append_class {ref : ClassRef} {accessors : List Accessor}
    {parts queued : Parts} (h : Queued ref accessors parts queued) (attributes : List Attribute) :
    queued.append ⟨[.accessorClass ⟨ref, accessors, attributes⟩], []⟩ =
      parts.extend [.accessorClass ⟨ref, accessors, attributes⟩] := by
  obtain ⟨queue, hqueue, rfl⟩ := h
  simp [extend, append, Declaration.deferred, AccessorClass.deferred, queueOf_iff.mp hqueue]

theorem addClass_eq_ok_iff (htable : TypeTable.ofSchema schema = .ok table) {ref : ClassRef}
    {owner : String} {fields : List Field} {offset : UInt32} {attributes : List Attribute}
    {parts after : Parts} :
    addClass table encoding ref owner fields offset attributes parts = (after, .ok ()) ↔
      ∃ accessors, Slots schema encoding offset fields accessors ∧
        after = parts.extend [.accessorClass ⟨ref, accessors, attributes⟩] := by
  unfold addClass
  constructor
  · intro h
    rcases hresult : addAccessors table encoding ref owner offset fields parts with
      ⟨queued, _ | accessors⟩
    · simp [hresult] at h
    · simp only [hresult, Prod.mk.injEq, and_true] at h
      obtain ⟨hslots, hqueued⟩ := (addAccessors_eq_ok_iff htable).mp hresult
      exact ⟨accessors, hslots, by rw [← h, hqueued.append_class]⟩
  · rintro ⟨accessors, hslots, rfl⟩
    have hqueued : Parts.Queued ref accessors parts _ := ⟨_, queueOf_iff.mpr rfl, rfl⟩
    simp only [(addAccessors_eq_ok_iff htable).mpr ⟨hslots, hqueued⟩, hqueued.append_class]

theorem addVariants_eq_ok_iff (htable : TypeTable.ofSchema schema = .ok table)
    {sumName : String} {variants : List Constructor} {parts after : Parts} :
    addVariants table encoding sumName variants parts = (after, .ok ()) ↔
      ∃ classes, List.Forall₂ (VariantClass schema encoding sumName)
          (variants.filter fun variant => !variant.fields.isEmpty) classes ∧
        after = parts.extend (classes.map .accessorClass) := by
  induction variants generalizing parts with
  | nil => simp [addVariants, eq_comm]
  | cons variant rest ih =>
    rw [addVariants, List.filter_cons]
    by_cases hempty : variant.fields.isEmpty = true
    · simp only [hempty, if_true, Bool.not_true, Bool.false_eq_true, if_false]
      exact ih
    · rw [Bool.not_eq_true] at hempty
      simp only [hempty, Bool.false_eq_true, if_false, Bool.not_false, if_true]
      constructor
      · intro h
        rcases hresult : addClass table encoding (.variant sumName variant.name) variant.name
          variant.fields 1 [] parts with ⟨between, outcome⟩
        rw [hresult] at h
        cases outcome with
        | error fault => simp at h
        | ok _ =>
          obtain ⟨accessors, hslots, rfl⟩ := (addClass_eq_ok_iff htable).mp hresult
          obtain ⟨classes, hclasses, rfl⟩ := ih.mp h
          let cls : AccessorClass := ⟨.variant sumName variant.name, accessors, []⟩
          exact ⟨cls :: classes, .cons ⟨rfl, hslots, .nil⟩ hclasses, by simp [cls]⟩
      · rintro ⟨classes, hclasses, rfl⟩
        obtain ⟨cls, classes', hcls, hrest, rfl⟩ := List.forall₂_cons_left_iff.mp hclasses
        obtain ⟨accessors, hslots, rfl⟩ := hcls.exists_accessors
        simp only [(addClass_eq_ok_iff htable).mpr ⟨accessors, hslots, rfl⟩]
        exact ih.mpr ⟨classes', hrest, by simp⟩

/-! ## Definitions -/

theorem addSimpleSum_eq_ok_iff {name : String} {sum : Sum} {parts after : Parts}
    (hsimple : ∀ variant ∈ sum.variants, variant.fields = []) :
    addSimpleSum name sum parts = (after, .ok ()) ↔
      ∃ block, Block schema encoding ⟨name, .sum sum⟩ block ∧ after = parts.extend block := by
  unfold addSimpleSum
  constructor
  · intro h
    cases henum : enumerationOf name sum with
    | error fault => simp [henum] at h
    | ok enumeration =>
      cases hattrs : attributesOf name sum.attributes with
      | error fault => simp [henum, hattrs] at h
      | ok attributes =>
        simp only [henum, hattrs, Prod.mk.injEq, and_true] at h
        refine ⟨_, .simpleSum hsimple (enumerationOf_eq_ok_iff.mp henum)
          (attributesOf_eq_ok_iff.mp hattrs), ?_⟩
        rw [← h]
        simp [Parts.extend, Declaration.deferred]
  · rintro ⟨block, hblock, rfl⟩
    cases hblock with
    | simpleSum _ henum hattrs =>
      simp only [enumerationOf_eq_ok_iff.mpr henum, attributesOf_eq_ok_iff.mpr hattrs]
      simp [Parts.extend, Declaration.deferred]
    | compoundSum hcompound => exact absurd hsimple hcompound

theorem addCompoundSum_eq_ok_iff (htable : TypeTable.ofSchema schema = .ok table)
    {name : String} {sum : Sum} {parts after : Parts}
    (hcompound : ¬ (∀ variant ∈ sum.variants, variant.fields = [])) :
    addCompoundSum table encoding name sum parts = (after, .ok ()) ↔
      ∃ block, Block schema encoding ⟨name, .sum sum⟩ block ∧ after = parts.extend block := by
  have hfront : ∀ enumeration attributes,
      parts.append ⟨[.enumeration enumeration, .taggedBase ⟨name, attributes⟩], []⟩ =
        parts.extend [.enumeration enumeration, .taggedBase ⟨name, attributes⟩] := by
    intro enumeration attributes
    simp [Parts.extend, Declaration.deferred]
  unfold addCompoundSum
  constructor
  · intro h
    cases henum : enumerationOf name sum with
    | error fault => simp [henum] at h
    | ok enumeration =>
      cases hattrs : attributesOf name sum.attributes with
      | error fault => simp [henum, hattrs] at h
      | ok attributes =>
        simp only [henum, hattrs, hfront] at h
        obtain ⟨classes, hclasses, rfl⟩ := (addVariants_eq_ok_iff htable).mp h
        refine ⟨_, .compoundSum hcompound (enumerationOf_eq_ok_iff.mp henum)
          (attributesOf_eq_ok_iff.mp hattrs) hclasses, ?_⟩
        rw [Parts.extend_extend]
        rfl
  · rintro ⟨block, hblock, rfl⟩
    cases hblock with
    | simpleSum hsimple => exact absurd hsimple hcompound
    | @compoundSum _ _ enumeration attributes classes _ henum hattrs hclasses =>
      simp only [enumerationOf_eq_ok_iff.mpr henum, attributesOf_eq_ok_iff.mpr hattrs, hfront]
      refine (addVariants_eq_ok_iff htable).mpr ⟨classes, hclasses, ?_⟩
      rw [Parts.extend_extend]
      rfl

theorem addProduct_eq_ok_iff (htable : TypeTable.ofSchema schema = .ok table)
    {name : String} {product : Product} {parts after : Parts} :
    addProduct table encoding name product parts = (after, .ok ()) ↔
      ∃ block, Block schema encoding ⟨name, .product product⟩ block ∧
        after = parts.extend block := by
  unfold addProduct
  constructor
  · intro h
    cases hattrs : attributesOf name product.attributes with
    | error fault => simp [hattrs] at h
    | ok attributes =>
      simp only [hattrs] at h
      obtain ⟨accessors, hslots, rfl⟩ := (addClass_eq_ok_iff htable).mp h
      exact ⟨_, .product ⟨rfl, hslots, attributesOf_eq_ok_iff.mp hattrs⟩, rfl⟩
  · rintro ⟨block, hblock, rfl⟩
    cases hblock with
    | @product _ _ cls hcls =>
      obtain ⟨ref, accessors, attributes⟩ := cls
      have href : ref = .product name := hcls.ref_eq
      subst href
      simp only [attributesOf_eq_ok_iff.mpr hcls.attributes]
      exact (addClass_eq_ok_iff htable).mpr ⟨accessors, hcls.slots, rfl⟩

/-- **A visit appends the block of its definition, and nothing else.** -/
theorem visit_eq_ok_iff (htable : TypeTable.ofSchema schema = .ok table)
    {definition : Definition} {parts after : Parts} :
    (declarationBuilder encoding).visit table definition parts = (after, .ok ()) ↔
      ∃ block, Block schema encoding definition block ∧ after = parts.extend block := by
  obtain ⟨name, body⟩ := definition
  cases body with
  | product product => exact addProduct_eq_ok_iff htable
  | sum sum =>
    unfold Visitor.visit Definition.shape
    by_cases hsimple : sum.isSimple = true
    · simp only [hsimple, if_true]
      exact addSimpleSum_eq_ok_iff (sum.isSimple_iff.mp hsimple)
    · simp only [hsimple]
      exact addCompoundSum_eq_ok_iff htable (fun h => hsimple (sum.isSimple_iff.mpr h))

/-! ## The walk -/

/-- **A walk appends the blocks of its definitions, in order.** -/
theorem walkFrom_eq_ok_iff (htable : TypeTable.ofSchema schema = .ok table)
    {definitions : List Definition} {parts after : Parts} :
    (declarationBuilder encoding).walkFrom table definitions parts = (after, .ok ()) ↔
      ∃ blocks, List.Forall₂ (Block schema encoding) definitions blocks ∧
        after = parts.extend blocks.flatten := by
  induction definitions generalizing parts with
  | nil => simp [Visitor.walkFrom, declarationBuilder, VisitStep.skip, eq_comm]
  | cons definition rest ih =>
    rw [Visitor.walkFrom]
    constructor
    · intro h
      rcases hvisit : (declarationBuilder encoding).visit table definition parts with
        ⟨between, outcome⟩
      rw [hvisit] at h
      cases outcome with
      | error fault => simp at h
      | ok _ =>
        obtain ⟨block, hblock, rfl⟩ := (visit_eq_ok_iff htable).mp hvisit
        obtain ⟨blocks, hblocks, rfl⟩ := ih.mp h
        exact ⟨block :: blocks, .cons hblock hblocks, by simp⟩
    · rintro ⟨blocks, hblocks, rfl⟩
      obtain ⟨block, blocks', hblock, hrest, rfl⟩ := List.forall₂_cons_left_iff.mp hblocks
      simp only [(visit_eq_ok_iff htable).mpr ⟨block, hblock, rfl⟩]
      exact ih.mpr ⟨blocks', hrest, by simp⟩

end Resolved

/-- A visit of the collector adds the name of a definition with classes. -/
theorem forwardCollector_visit (table : TypeTable) (definition : Definition)
    (names : List String) :
    forwardCollector.visit table definition names = (names ++ classNames [definition], .ok ()) := by
  unfold Visitor.visit
  cases hshape : definition.shape <;>
    simp [forwardCollector, VisitStep.skip, classNames, hshape, Shape.isClass]

/-- The collector of names never fails and appends the names of definitions with classes. -/
theorem forwardCollector_walkFrom (table : TypeTable) (definitions : List Definition)
    (names : List String) :
    forwardCollector.walkFrom table definitions names =
      (names ++ classNames definitions, .ok ()) := by
  induction definitions generalizing names with
  | nil => simp [Visitor.walkFrom, forwardCollector, VisitStep.skip, classNames]
  | cons definition rest ih =>
    rw [Visitor.walkFrom, forwardCollector_visit]
    simp only [ih, List.append_assoc]
    rw [classNames_cons definition rest]

/-! ## Layouts -/

/-- **The builder is exact: its layouts are the denoted declarations, with the deferred
accessors of their classes and the names of the definitions that have classes.** -/
theorem build_eq_ok_iff {schema : Schema} {encoding : Encoding} {layout : Layout} :
    build schema encoding = .ok layout ↔
      ∃ declarations, Denotes schema encoding declarations ∧
        layout = ⟨currentVersion, schema.name, encoding, classNames schema.types, declarations,
          declarations.flatMap Declaration.deferred⟩ := by
  unfold build
  cases htable : TypeTable.ofSchema schema with
  | error fault =>
    constructor
    · intro h
      cases h
    · rintro ⟨_, hdenotes, -⟩
      rw [TypeTable.ofSchema_of_nodup hdenotes.distinct] at htable
      cases htable
  | ok table =>
    have hdistinct := (TypeTable.ofSchema_eq_ok_iff.mp htable).1
    simp only [ofTable, Visitor.walk, TypeTable.definitions_ofSchema htable,
      TypeTable.schema_ofSchema htable, forwardCollector_walkFrom, List.nil_append]
    constructor
    · intro h
      rcases hwalk : (declarationBuilder encoding).walkFrom table schema.types Parts.empty with
        ⟨parts, outcome⟩
      rw [hwalk] at h
      cases outcome with
      | error fault => simp at h
      | ok _ =>
        obtain ⟨blocks, hblocks, rfl⟩ := (walkFrom_eq_ok_iff htable).mp hwalk
        simp only [Except.ok.injEq] at h
        refine ⟨blocks.flatten, ⟨hdistinct, blocks, hblocks, rfl⟩, ?_⟩
        rw [← h]
        simp [Parts.extend, Parts.append, Parts.empty]
    · rintro ⟨_, ⟨-, blocks, hblocks, rfl⟩, rfl⟩
      simp only [(walkFrom_eq_ok_iff htable).mpr ⟨blocks, hblocks, rfl⟩]
      simp [Parts.extend, Parts.append, Parts.empty]

/-- **The declarations of a layout are exactly what the schema denotes**: a schema has a
layout with these declarations if and only if it denotes them, and their tags fit in a
byte without zero or repetition. -/
theorem build_declarations_iff (schema : Schema) (encoding : Encoding)
    (declarations : List Declaration) :
    ((∃ layout, build schema encoding = .ok layout ∧ layout.declarations = declarations) ↔
      Denotes schema encoding declarations) ∧
    (Denotes schema encoding declarations → ∀ enumeration,
      .enumeration enumeration ∈ declarations → TagsFit enumeration) := by
  refine ⟨⟨?_, ?_⟩, ?_⟩
  · rintro ⟨layout, hbuild, rfl⟩
    obtain ⟨declarations, hdenotes, rfl⟩ := build_eq_ok_iff.mp hbuild
    exact hdenotes
  · intro hdenotes
    exact ⟨_, build_eq_ok_iff.mpr ⟨declarations, hdenotes, rfl⟩, rfl⟩
  · rintro ⟨-, blocks, hblocks, rfl⟩ enumeration hmem
    obtain ⟨block, hblock, henum⟩ := List.mem_flatten.mp hmem
    obtain ⟨definition, -, hdef⟩ := exists_left_of_forall₂ hblocks hblock
    exact hdef.tagsFit henum

/-- A simple sum, a compound sum with a constructor of each kind, and a product that names
both, the sums after it. -/
theorem denotes_of_each_shape :
    Denotes
      ⟨"m", [⟨"pair", .product ⟨[⟨"op", "op", false, false⟩, ⟨"rest", "expr", true, false⟩], []⟩⟩,
        ⟨"op", .sum ⟨[⟨"Add", []⟩, ⟨"Sub", []⟩], []⟩⟩,
        ⟨"expr", .sum ⟨[⟨"Nil", []⟩, ⟨"Num", [⟨"value", "int", false, false⟩]⟩],
          [⟨"line", "int", false, false⟩]⟩⟩]⟩
      .standard
      [.accessorClass ⟨.product "pair", [⟨"op", 0, .enumeration "op", .single⟩,
          ⟨"rest", 3, .object "expr" false, .repeated 3⟩], []⟩,
        .enumeration ⟨"op", [⟨"Add", 1⟩, ⟨"Sub", 2⟩]⟩,
        .enumeration ⟨"expr", [⟨"Nil", 1⟩, ⟨"Num", 2⟩]⟩,
        .taggedBase ⟨"expr", [⟨"line", .int⟩]⟩,
        .accessorClass ⟨.variant "expr" "Num", [⟨"value", 1, .int, .single⟩], []⟩] :=
  (build_declarations_iff _ _ _).1.mp ⟨_, rfl, rfl⟩

end ReaderGen.Layout
