import ReaderGen.Proofs.Layout.DeferredQueue
import ReaderGen.Proofs.Layout.Faults

/-!
# ReaderGen.Proofs.Layout.History -- walks of visitors that have walked before

A visitor can be walked over one schema after another, also after a walk that failed. Its
state is then whatever the earlier walks have left, and after a failure the queue of deferred
accessors may be ahead of the declarations. **What a walk adds and how it ends do not depend
on that state** (`walk_ignores_history`).

A walk that succeeds adds the blocks of all definitions (`walkFrom_eq_ok_iff`). A walk that
fails adds the blocks of the definitions in front of the failing one and what that one had
completed (`Broken`). As on the side of success, each function of the builder has one
equivalence here, from the accessors of a class up to the walk.
-/

namespace ReaderGen.Layout

/-! ## What a failure leaves behind -/

/-- The faults of a definition in front of its fields: the number of constructors and the
attributes. -/
def headFaults (definition : Definition) : List BuildError :=
  faultUnless (definition.body.constructors.length ≤ 255)
      (.tooManyConstructors definition.name definition.body.constructors.length) ++
    definition.body.attributes.flatMap (attributeFaults definition.name)

/-- A class whose first faulty field has this fault: the accessors of the fields in front of it
are queued if they read an object. -/
def BrokenClass (schema : Schema) (encoding : Encoding) (ref : ClassRef) (owner : String)
    (offset : UInt32) (fields : List Field) (queue : List Deferred) (fault : BuildError) : Prop :=
  ∃ done field rest accessors, fields = done ++ field :: rest ∧
    Slots schema encoding offset done accessors ∧ QueueOf ref accessors queue ∧
    (fieldFaults schema (owner, field)).head? = some fault

/-- What a failing definition adds, and its fault. Nothing is added if it fails in front of its
fields. A sum that fails in a field of a constructor has added its enumeration, its base and the
classes of the constructors with fields in front of that one; a class that fails is never added
itself. -/
inductive Broken (schema : Schema) (encoding : Encoding) :
    Definition → Parts → BuildError → Prop
  | head {definition : Definition} {fault : BuildError} :
      (headFaults definition).head? = some fault →
      Broken schema encoding definition .empty fault
  | variant {name : String} {sum : Sum} {enumeration : Enumeration}
      {attributes : List Attribute} {before rest : List Constructor} {variant : Constructor}
      {classes : List AccessorClass} {done queue : List Deferred} {fault : BuildError} :
      EnumerationOf name sum enumeration →
      List.Forall₂ AttributeOf sum.attributes attributes →
      sum.withFields = before ++ variant :: rest →
      List.Forall₂ (VariantClass schema encoding name) before classes →
      Queues (classes.map .accessorClass) done →
      BrokenClass schema encoding (.variant name variant.name) variant.name 1 variant.fields
        queue fault →
      Broken schema encoding ⟨name, .sum sum⟩
        ⟨.enumeration enumeration :: .taggedBase ⟨name, attributes⟩ ::
          classes.map .accessorClass, done ++ queue⟩ fault
  | product {name : String} {product : Product} {attributes : List Attribute}
      {queue : List Deferred} {fault : BuildError} :
      List.Forall₂ AttributeOf product.attributes attributes →
      BrokenClass schema encoding (.product name) name 0 product.fields queue fault →
      Broken schema encoding ⟨name, .product product⟩ ⟨[], queue⟩ fault

/-! ## Parts behind parts -/

@[simp] theorem Parts.append_empty (parts : Parts) : parts.append .empty = parts := by
  simp [Parts.append, Parts.empty]

@[simp] theorem Parts.empty_append (parts : Parts) : Parts.empty.append parts = parts := by
  simp [Parts.append, Parts.empty]

theorem Parts.append_append (parts more rest : Parts) :
    (parts.append more).append rest = parts.append (more.append rest) := by
  simp [Parts.append]

/-- A block and its queue are added together. -/
theorem Parts.extend_eq_append {parts : Parts} {block : List Declaration} {queue : List Deferred}
    (h : Queues block queue) : parts.extend block = parts.append ⟨block, queue⟩ := by
  rw [Parts.extend, queues_iff.mp h]

/-! ## In front of the fields -/

theorem headFaults_sum_iff {name : String} {choice : Sum} {fault : BuildError} :
    (headFaults ⟨name, .sum choice⟩).head? = some fault ↔
      enumerationOf name choice = .error fault ∨
        ∃ enumeration, enumerationOf name choice = .ok enumeration ∧
          attributesOf name choice.attributes = .error fault := by
  have hverdict : verdict (headFaults ⟨name, .sum choice⟩) =
      (outcome (enumerationOf name choice)).bind
        fun _ => outcome (attributesOf name choice.attributes) := by
    rw [headFaults, verdict_append, enumerationOf_outcome, attributesOf_outcome]
    rfl
  rw [← verdict_eq_error_iff, hverdict]
  cases enumerationOf name choice with
  | error cause => simp [outcome, Except.map, Except.bind]
  | ok enumeration =>
    have hbehind : ((outcome (.ok enumeration)).bind
        fun _ => outcome (attributesOf name choice.attributes)) =
          outcome (attributesOf name choice.attributes) := rfl
    rw [hbehind, outcome_eq_error_iff]
    simp

theorem headFaults_product_iff {name : String} {record : Product} {fault : BuildError} :
    (headFaults ⟨name, .product record⟩).head? = some fault ↔
      attributesOf name record.attributes = .error fault := by
  rw [← outcome_eq_error_iff, attributesOf_outcome, verdict_eq_error_iff]
  rfl

/-- A simple sum has nothing behind its head that can fail. -/
theorem addSimpleSum_eq_headFault_iff {name : String} {choice : Sum} {parts after : Parts}
    {fault : BuildError} :
    addSimpleSum name choice parts = (after, .error fault) ↔
      (headFaults ⟨name, .sum choice⟩).head? = some fault ∧ after = parts := by
  rw [headFaults_sum_iff, addSimpleSum]
  cases enumerationOf name choice with
  | error cause => simp [and_comm, eq_comm]
  | ok enumeration =>
    cases attributesOf name choice.attributes with
    | error cause => simp [and_comm, eq_comm]
    | ok attributes => simp

/-! ## Classes -/

section Resolved

variable {schema : Schema} {table : TypeTable} {encoding : Encoding}

theorem accessorOf_eq_error_iff (htable : TypeTable.ofSchema schema = .ok table) {owner : String}
    {field : Field} {offset : UInt32} {fault : BuildError} :
    accessorOf table encoding owner field offset = .error fault ↔
      (fieldFaults schema (owner, field)).head? = some fault := by
  rw [← verdict_eq_error_iff, ← accessorOf_outcome htable encoding owner field offset,
    outcome_eq_error_iff]

/-- A class that fails leaves the queue of the accessors in front of its faulty field. -/
theorem addAccessors_eq_error_iff (htable : TypeTable.ofSchema schema = .ok table)
    {ref : ClassRef} {owner : String} {offset : UInt32} {fields : List Field}
    {parts after : Parts} {fault : BuildError} :
    addAccessors table encoding ref owner offset fields parts = (after, .error fault) ↔
      ∃ done field rest accessors, fields = done ++ field :: rest ∧
        Slots schema encoding offset done accessors ∧
        Parts.Queued ref accessors parts after ∧
        (fieldFaults schema (owner, field)).head? = some fault := by
  induction fields generalizing offset parts with
  | nil => simp [addAccessors]
  | cons field rest ih =>
    rw [addAccessors]
    constructor
    · intro h
      cases haccessor : accessorOf table encoding owner field offset with
      | error cause =>
        simp only [haccessor, Prod.mk.injEq, Except.error.injEq] at h
        obtain ⟨rfl, rfl⟩ := h
        exact ⟨[], field, rest, [], rfl, .nil, Parts.queued_nil_iff.mpr rfl,
          (accessorOf_eq_error_iff htable).mp haccessor⟩
      | ok accessor =>
        simp only [haccessor] at h
        rcases hrest : addAccessors table encoding ref owner (offset + encoding.refWidth) rest
          (parts.enqueue ref accessor) with ⟨between, cause | _⟩
        · simp only [hrest, Prod.mk.injEq, Except.error.injEq] at h
          obtain ⟨rfl, rfl⟩ := h
          obtain ⟨done, faulty, back, accessors, rfl, hslots, hqueued, hfault⟩ := ih.mp hrest
          exact ⟨field :: done, faulty, back, accessor :: accessors, rfl,
            .cons ((accessorOf_eq_ok_iff htable).mp haccessor) hslots,
            Parts.queued_cons_iff.mpr hqueued, hfault⟩
        · simp [hrest] at h
    · rintro ⟨done, faulty, back, accessors, hsplit, hslots, hqueued, hfault⟩
      -- the slots tell whether the first field is the faulty one
      cases hslots with
      | nil =>
        obtain ⟨rfl, rfl⟩ := List.cons.inj hsplit
        simp only [(accessorOf_eq_error_iff htable).mpr hfault, Parts.queued_nil_iff.mp hqueued]
      | @cons _ first done accessor accessors hof hslots =>
        obtain ⟨rfl, rfl⟩ := List.cons.inj hsplit
        simp only [(accessorOf_eq_ok_iff htable).mpr hof, ih.mpr ⟨done, faulty, back, accessors,
          rfl, hslots, Parts.queued_cons_iff.mp hqueued, hfault⟩]

theorem addClass_eq_error_iff (htable : TypeTable.ofSchema schema = .ok table) {ref : ClassRef}
    {owner : String} {fields : List Field} {offset : UInt32} {attributes : List Attribute}
    {parts after : Parts} {fault : BuildError} :
    addClass table encoding ref owner fields offset attributes parts = (after, .error fault) ↔
      ∃ queue, BrokenClass schema encoding ref owner offset fields queue fault ∧
        after = parts.append ⟨[], queue⟩ := by
  unfold addClass
  constructor
  · intro h
    rcases hresult : addAccessors table encoding ref owner offset fields parts with
      ⟨queued, cause | _⟩
    · simp only [hresult, Prod.mk.injEq, Except.error.injEq] at h
      obtain ⟨rfl, rfl⟩ := h
      obtain ⟨done, field, rest, accessors, hfields, hslots, ⟨queue, hqueue, rfl⟩, hfault⟩ :=
        (addAccessors_eq_error_iff htable).mp hresult
      exact ⟨queue, ⟨done, field, rest, accessors, hfields, hslots, hqueue, hfault⟩, rfl⟩
    · simp [hresult] at h
  · rintro ⟨queue, ⟨done, field, rest, accessors, hfields, hslots, hqueue, hfault⟩, rfl⟩
    have hresult : addAccessors table encoding ref owner offset fields parts =
        (parts.append ⟨[], queue⟩, .error fault) :=
      (addAccessors_eq_error_iff htable).mpr
        ⟨done, field, rest, accessors, hfields, hslots, ⟨queue, hqueue, rfl⟩, hfault⟩
    simp only [hresult]

/-- The constructors with fields in front of the failing one have their classes. -/
theorem addVariants_eq_error_iff (htable : TypeTable.ofSchema schema = .ok table)
    {sumName : String} {variants : List Constructor} {parts after : Parts} {fault : BuildError} :
    addVariants table encoding sumName variants parts = (after, .error fault) ↔
      ∃ before variant rest classes queue,
        (variants.filter fun variant => !variant.fields.isEmpty) = before ++ variant :: rest ∧
        List.Forall₂ (VariantClass schema encoding sumName) before classes ∧
        BrokenClass schema encoding (.variant sumName variant.name) variant.name 1 variant.fields
          queue fault ∧
        after = (parts.extend (classes.map .accessorClass)).append ⟨[], queue⟩ := by
  induction variants generalizing parts with
  | nil => simp [addVariants]
  | cons variant rest ih =>
    rw [addVariants, List.filter_cons]
    by_cases hempty : variant.fields.isEmpty = true
    · simp only [hempty, if_true, Bool.not_true, Bool.false_eq_true, if_false]
      exact ih
    · rw [Bool.not_eq_true] at hempty
      simp only [hempty, Bool.false_eq_true, if_false, Bool.not_false, if_true]
      constructor
      · intro h
        rcases hclass : addClass table encoding (.variant sumName variant.name) variant.name
          variant.fields 1 [] parts with ⟨between, cause | _⟩
        · simp only [hclass, Prod.mk.injEq, Except.error.injEq] at h
          obtain ⟨rfl, rfl⟩ := h
          obtain ⟨queue, hbroken, rfl⟩ := (addClass_eq_error_iff htable).mp hclass
          exact ⟨[], variant, _, [], queue, rfl, .nil, hbroken, by simp⟩
        · obtain ⟨accessors, hslots, rfl⟩ := (addClass_eq_ok_iff htable).mp hclass
          simp only [hclass] at h
          obtain ⟨before, failing, back, classes, queue, hsplit, hclasses, hbroken, rfl⟩ :=
            ih.mp h
          let cls : AccessorClass := ⟨.variant sumName variant.name, accessors, []⟩
          exact ⟨variant :: before, failing, back, cls :: classes, queue,
            congrArg (variant :: ·) hsplit, .cons ⟨rfl, hslots, .nil⟩ hclasses, hbroken,
            by simp [cls]⟩
      · rintro ⟨before, failing, back, classes, queue, hsplit, hclasses, hbroken, rfl⟩
        cases hclasses with
        | nil =>
          obtain ⟨rfl, -⟩ := List.cons.inj hsplit
          simp only [(addClass_eq_error_iff htable).mpr ⟨queue, hbroken, rfl⟩, List.map_nil,
            Parts.extend_nil]
        | @cons first cls before classes hcls hclasses =>
          obtain ⟨rfl, hrest⟩ := List.cons.inj hsplit
          obtain ⟨accessors, hslots, rfl⟩ := hcls.exists_accessors
          simp only [(addClass_eq_ok_iff htable).mpr ⟨accessors, hslots, rfl⟩]
          exact ih.mpr ⟨before, failing, back, classes, queue, hrest, hclasses, hbroken, by simp⟩

/-! ## Definitions -/

theorem addSimpleSum_eq_error_iff {name : String} {choice : Sum} {parts after : Parts}
    {fault : BuildError} (hsimple : ∀ variant ∈ choice.variants, variant.fields = []) :
    addSimpleSum name choice parts = (after, .error fault) ↔
      ∃ broken, Broken schema encoding ⟨name, .sum choice⟩ broken fault ∧
        after = parts.append broken := by
  rw [addSimpleSum_eq_headFault_iff]
  constructor
  · rintro ⟨hhead, rfl⟩
    exact ⟨.empty, .head hhead, (Parts.append_empty _).symm⟩
  · rintro ⟨broken, hbroken, rfl⟩
    cases hbroken with
    | head hhead => exact ⟨hhead, Parts.append_empty parts⟩
    | @variant _ _ _ _ before rest variant _ _ _ _ _ _ hsplit _ _ _ =>
      -- no constructor of a simple sum has fields that could fail
      have hmem : variant ∈ choice.withFields := by
        rw [hsplit]
        exact List.mem_append_right before (List.mem_cons_self ..)
      obtain ⟨hvariant, hfields⟩ := mem_withFields.mp hmem
      exact absurd (hsimple variant hvariant) hfields

/-- What a compound sum has added when a constructor fails. -/
theorem Parts.append_variants (parts : Parts) (front : List Declaration)
    (classes : List AccessorClass) (queue : List Deferred) :
    ((parts.append ⟨front, []⟩).extend (classes.map .accessorClass)).append ⟨[], queue⟩ =
      parts.append ⟨front ++ classes.map .accessorClass,
        (classes.map Declaration.accessorClass).flatMap Declaration.deferred ++ queue⟩ := by
  simp [Parts.extend, Parts.append]

theorem addCompoundSum_eq_error_iff (htable : TypeTable.ofSchema schema = .ok table)
    {name : String} {choice : Sum} {parts after : Parts} {fault : BuildError} :
    addCompoundSum table encoding name choice parts = (after, .error fault) ↔
      ∃ broken, Broken schema encoding ⟨name, .sum choice⟩ broken fault ∧
        after = parts.append broken := by
  unfold addCompoundSum
  constructor
  · intro h
    cases henum : enumerationOf name choice with
    | error cause =>
      simp only [henum, Prod.mk.injEq, Except.error.injEq] at h
      obtain ⟨rfl, rfl⟩ := h
      exact ⟨.empty, .head (headFaults_sum_iff.mpr (Or.inl henum)), (Parts.append_empty _).symm⟩
    | ok enumeration =>
      cases hattrs : attributesOf name choice.attributes with
      | error cause =>
        simp only [henum, hattrs, Prod.mk.injEq, Except.error.injEq] at h
        obtain ⟨rfl, rfl⟩ := h
        exact ⟨.empty, .head (headFaults_sum_iff.mpr (Or.inr ⟨_, henum, hattrs⟩)),
          (Parts.append_empty _).symm⟩
      | ok attributes =>
        simp only [henum, hattrs] at h
        obtain ⟨before, variant, rest, classes, queue, hsplit, hclasses, hclass, rfl⟩ :=
          (addVariants_eq_error_iff htable).mp h
        exact ⟨_, .variant (enumerationOf_eq_ok_iff.mp henum) (attributesOf_eq_ok_iff.mp hattrs)
          hsplit hclasses (queues_iff.mpr rfl) hclass, Parts.append_variants ..⟩
  · rintro ⟨broken, hbroken, rfl⟩
    cases hbroken with
    | head hhead =>
      rw [Parts.append_empty]
      obtain henum | ⟨enumeration, henum, hattrs⟩ := headFaults_sum_iff.mp hhead
      · simp only [henum]
      · simp only [henum, hattrs]
    | @variant _ _ enumeration attributes before rest variant classes done queue _ henum hattrs
        hsplit hclasses hdone hclass =>
      simp only [enumerationOf_eq_ok_iff.mpr henum, attributesOf_eq_ok_iff.mpr hattrs]
      refine (addVariants_eq_error_iff htable).mpr
        ⟨before, variant, rest, classes, queue, hsplit, hclasses, hclass, ?_⟩
      rw [Parts.append_variants, queues_iff.mp hdone]
      rfl

theorem addProduct_eq_error_iff (htable : TypeTable.ofSchema schema = .ok table)
    {name : String} {record : Product} {parts after : Parts} {fault : BuildError} :
    addProduct table encoding name record parts = (after, .error fault) ↔
      ∃ broken, Broken schema encoding ⟨name, .product record⟩ broken fault ∧
        after = parts.append broken := by
  unfold addProduct
  constructor
  · intro h
    cases hattrs : attributesOf name record.attributes with
    | error cause =>
      simp only [hattrs, Prod.mk.injEq, Except.error.injEq] at h
      obtain ⟨rfl, rfl⟩ := h
      exact ⟨.empty, .head (headFaults_product_iff.mpr hattrs), (Parts.append_empty _).symm⟩
    | ok attributes =>
      simp only [hattrs] at h
      obtain ⟨queue, hclass, rfl⟩ := (addClass_eq_error_iff htable).mp h
      exact ⟨_, .product (attributesOf_eq_ok_iff.mp hattrs) hclass, rfl⟩
  · rintro ⟨broken, hbroken, rfl⟩
    cases hbroken with
    | head hhead => simp only [headFaults_product_iff.mp hhead, Parts.append_empty]
    | product hattrs hclass =>
      simp only [attributesOf_eq_ok_iff.mpr hattrs]
      exact (addClass_eq_error_iff htable).mpr ⟨_, hclass, rfl⟩

/-- **A visit that fails adds what its definition had completed, and nothing else.** -/
theorem visit_eq_error_iff (htable : TypeTable.ofSchema schema = .ok table)
    {definition : Definition} {parts after : Parts} {fault : BuildError} :
    (declarationBuilder encoding).visit table definition parts = (after, .error fault) ↔
      ∃ broken, Broken schema encoding definition broken fault ∧ after = parts.append broken := by
  obtain ⟨name, body⟩ := definition
  cases body with
  | product product => exact addProduct_eq_error_iff htable
  | sum sum =>
    unfold Visitor.visit Definition.shape
    by_cases hsimple : sum.isSimple = true
    · simp only [hsimple, if_true]
      exact addSimpleSum_eq_error_iff (sum.isSimple_iff.mp hsimple)
    · simp only [hsimple]
      exact addCompoundSum_eq_error_iff htable

/-! ## The walk -/

/-- **A walk that fails adds the blocks of the definitions in front of the failing one, and what
that one had completed.** -/
theorem walkFrom_eq_error_iff (htable : TypeTable.ofSchema schema = .ok table)
    {definitions : List Definition} {parts after : Parts} {fault : BuildError} :
    (declarationBuilder encoding).walkFrom table definitions parts = (after, .error fault) ↔
      ∃ front definition back blocks broken, definitions = front ++ definition :: back ∧
        List.Forall₂ (Block schema encoding) front blocks ∧
        Broken schema encoding definition broken fault ∧
        after = (parts.extend blocks.flatten).append broken := by
  induction definitions generalizing parts with
  | nil => simp [Visitor.walkFrom, declarationBuilder, VisitStep.skip]
  | cons definition rest ih =>
    rw [Visitor.walkFrom]
    constructor
    · intro h
      rcases hvisit : (declarationBuilder encoding).visit table definition parts with
        ⟨between, cause | _⟩
      · simp only [hvisit, Prod.mk.injEq, Except.error.injEq] at h
        obtain ⟨rfl, rfl⟩ := h
        obtain ⟨broken, hbroken, rfl⟩ := (visit_eq_error_iff htable).mp hvisit
        exact ⟨[], definition, rest, [], broken, rfl, .nil, hbroken, by simp⟩
      · obtain ⟨block, hblock, rfl⟩ := (visit_eq_ok_iff htable).mp hvisit
        simp only [hvisit] at h
        obtain ⟨front, failing, back, blocks, broken, rfl, hblocks, hbroken, rfl⟩ := ih.mp h
        exact ⟨definition :: front, failing, back, block :: blocks, broken, rfl,
          .cons hblock hblocks, hbroken, by simp⟩
    · rintro ⟨front, failing, back, blocks, broken, hsplit, hblocks, hbroken, rfl⟩
      cases hblocks with
      | nil =>
        obtain ⟨rfl, rfl⟩ := List.cons.inj hsplit
        simp only [(visit_eq_error_iff htable).mpr ⟨broken, hbroken, rfl⟩, List.flatten_nil,
          Parts.extend_nil]
      | @cons first block front blocks hblock hblocks =>
        obtain ⟨rfl, rfl⟩ := List.cons.inj hsplit
        simp only [(visit_eq_ok_iff htable).mpr ⟨block, hblock, rfl⟩]
        exact ih.mpr ⟨front, failing, back, blocks, broken, rfl, hblocks, hbroken, by simp⟩

/-- A walk adds the same parts and ends in the same way from any state. -/
theorem walk_eq_append (htable : TypeTable.ofSchema schema = .ok table) (parts : Parts) :
    (declarationBuilder encoding).walk table parts =
      (parts.append ((declarationBuilder encoding).walk table .empty).1,
        ((declarationBuilder encoding).walk table .empty).2) := by
  rw [Visitor.walk]
  -- either outcome is said by parts that do not mention the state in front of them
  rcases hfresh : (declarationBuilder encoding).walkFrom table table.definitions .empty with
    ⟨added, fault | _⟩
  · obtain ⟨front, definition, back, blocks, broken, hsplit, hblocks, hbroken, rfl⟩ :=
      (walkFrom_eq_error_iff htable).mp hfresh
    rw [(walkFrom_eq_error_iff htable).mpr
      ⟨front, definition, back, blocks, broken, hsplit, hblocks, hbroken, rfl⟩]
    simp [Parts.extend, Parts.append_append]
  · obtain ⟨blocks, hblocks, rfl⟩ := (walkFrom_eq_ok_iff htable).mp hfresh
    rw [(walkFrom_eq_ok_iff htable).mpr ⟨blocks, hblocks, rfl⟩]
    simp [Parts.extend]

/-- **The history of a visitor does not influence its walks.** From any names and any parts, a
walk over a schema with a table ends as it ends for a fresh visitor, and puts behind everything
that was collected before exactly what the fresh visitor holds afterwards. If it fails, that is
the blocks of the definitions in front of the failing one, with their queue, and what the
failing one had completed. -/
theorem walk_ignores_history (htable : TypeTable.ofSchema schema = .ok table)
    (names : List String) (parts : Parts) :
    forwardCollector.walk table names =
      (names ++ (forwardCollector.walk table []).1, (forwardCollector.walk table []).2) ∧
    (declarationBuilder encoding).walk table parts =
      (parts.append ((declarationBuilder encoding).walk table .empty).1,
        ((declarationBuilder encoding).walk table .empty).2) ∧
    ∀ after fault, (declarationBuilder encoding).walk table parts = (after, .error fault) ↔
      ∃ front definition back blocks queue broken, schema.types = front ++ definition :: back ∧
        List.Forall₂ (Block schema encoding) front blocks ∧ Queues blocks.flatten queue ∧
        Broken schema encoding definition broken fault ∧
        after = parts.append (.append ⟨blocks.flatten, queue⟩ broken) := by
  refine ⟨?_, walk_eq_append htable parts, ?_⟩
  · simp only [Visitor.walk, forwardCollector_walkFrom, List.nil_append]
  · intro after fault
    rw [Visitor.walk, TypeTable.definitions_ofSchema htable, walkFrom_eq_error_iff htable]
    constructor
    · rintro ⟨front, definition, back, blocks, broken, hsplit, hblocks, hbroken, rfl⟩
      refine ⟨front, definition, back, blocks, _, broken, hsplit, hblocks, queues_iff.mpr rfl,
        hbroken, ?_⟩
      rw [Parts.extend, Parts.append_append]
    · rintro ⟨front, definition, back, blocks, queue, broken, hsplit, hblocks, hqueue, hbroken,
        rfl⟩
      refine ⟨front, definition, back, blocks, broken, hsplit, hblocks, hbroken, ?_⟩
      rw [Parts.extend_eq_append hqueue, Parts.append_append]

end Resolved

/-- An enumeration, a product, and a sum whose third constructor has an unknown type behind
another object. -/
def brokenTree : Schema :=
  ⟨"m", [⟨"op", .sum ⟨[⟨"Add", []⟩, ⟨"Sub", []⟩], []⟩⟩,
    ⟨"pair", .product ⟨[⟨"kind", "op", false, false⟩, ⟨"rest", "tree", true, false⟩], []⟩⟩,
    ⟨"tree", .sum ⟨[⟨"Nil", []⟩, ⟨"Leaf", [⟨"value", "pair", false, false⟩]⟩,
        ⟨"Node", [⟨"left", "tree", false, true⟩, ⟨"right", "shrub", false, false⟩]⟩],
      [⟨"line", "int", false, false⟩]⟩⟩]⟩

/-- The parts after a failure: the queue is ahead of the declarations. -/
def staleParts : Parts :=
  ⟨[.enumeration ⟨"op", [⟨"Or", 1⟩]⟩], [⟨.product "gone", ⟨"x", 0, .object "op" false, .single⟩⟩]⟩

theorem walk_ignores_history_of_brokenTree :
    ∃ table, TypeTable.ofSchema brokenTree = .ok table ∧
      forwardCollector.walk table ["gone"] = (["gone", "pair", "tree"], .ok ()) ∧
      (declarationBuilder .standard).walk table staleParts =
        (staleParts.append
          ⟨[.enumeration ⟨"op", [⟨"Add", 1⟩, ⟨"Sub", 2⟩]⟩,
              .accessorClass ⟨.product "pair", [⟨"kind", 0, .enumeration "op", .single⟩,
                ⟨"rest", 3, .object "tree" false, .repeated 3⟩], []⟩,
              .enumeration ⟨"tree", [⟨"Nil", 1⟩, ⟨"Leaf", 2⟩, ⟨"Node", 3⟩]⟩,
              .taggedBase ⟨"tree", [⟨"line", .int⟩]⟩,
              .accessorClass ⟨.variant "tree" "Leaf",
                [⟨"value", 1, .object "pair" false, .single⟩], []⟩],
            [⟨.product "pair", ⟨"rest", 3, .object "tree" false, .repeated 3⟩⟩,
              ⟨.variant "tree" "Leaf", ⟨"value", 1, .object "pair" false, .single⟩⟩,
              ⟨.variant "tree" "Node", ⟨"left", 1, .object "tree" true, .single⟩⟩]⟩,
          .error (.resolve (.unknownType "Node" "right" "shrub"))) ∧
      ∃ front definition back blocks queue broken,
        brokenTree.types = front ++ definition :: back ∧
          List.Forall₂ (Block brokenTree .standard) front blocks ∧ Queues blocks.flatten queue ∧
          Broken brokenTree .standard definition broken
            (.resolve (.unknownType "Node" "right" "shrub")) := by
  have htable : TypeTable.ofSchema brokenTree =
      .ok ⟨brokenTree, TypeTable.entriesOf brokenTree.types⟩ := rfl
  obtain ⟨hnames, hparts, hfault⟩ :=
    @walk_ignores_history brokenTree _ .standard htable ["gone"] staleParts
  obtain ⟨front, definition, back, blocks, queue, broken, hsplit, hblocks, hqueue, hbroken, -⟩ :=
    (hfault _ _).mp hparts
  exact ⟨_, htable, hnames, hparts, front, definition, back, blocks, queue, broken, hsplit, hblocks,
    hqueue, hbroken⟩

end ReaderGen.Layout
