import ReaderGen.Proofs.Layout.Exact

/-!
# ReaderGen.Proofs.Layout.DeclarationOrder -- when an enumeration stands before its readers

An accessor of an enumeration has its body inside its class, so the enumeration must be
declared above the class. Objects have names that are declared ahead and bodies that
are deferred; enumerations have neither. **Declarations stand in the order of the
schema, so an enumeration stands before its readers exactly when the schema defines it
before every definition with a field of it** (`enumerationsFirst_iff`). A schema that
defines it later has a layout all the same, with the class above the enumeration.
-/

namespace ReaderGen

/-! ## Readers of an enumeration -/

/-- Some class of `user` has a field of the enumeration `used`. A name that is builtin
names no enumeration. -/
def Definition.ReadsEnumeration (user used : Definition) : Prop :=
  used.IsEnumeration ∧ NamesNoBuiltin used.name ∧
    ∃ ref fields, user.HasClass ref fields ∧ ∃ field ∈ fields, field.typeName = used.name

/-- Each class that reads an enumeration has the enumeration among the declarations before
its own position. -/
def Layout.EnumerationsFirst (layout : Layout) : Prop :=
  ∀ (k : ℕ) (cls : AccessorClass), layout.declarations[k]? = some (Declaration.accessorClass cls) →
    ∀ accessor ∈ cls.accessors, ∀ typeName, accessor.value = .enumeration typeName →
      ∃ j < k, ∃ enumeration,
        layout.declarations[j]? = some (Declaration.enumeration enumeration) ∧
          enumeration.typeName = typeName

theorem Definition.HasClass.not_isEnumeration {definition : Definition} {ref : ClassRef}
    {fields : List Field} (h : definition.HasClass ref fields) :
    ¬ definition.IsEnumeration := by
  rintro ⟨sum, hbody, hsimple⟩
  cases h with
  | product => cases hbody
  | variant hmem hfields =>
    cases hbody
    exact hfields (hsimple _ hmem)

namespace Layout

variable {schema : Schema} {encoding : Encoding}

/-! ## Enumerations in a block -/

theorem Block.typeName_of_mem {definition : Definition} {block : List Declaration}
    (h : Block schema encoding definition block) {enumeration : Enumeration}
    (hmem : .enumeration enumeration ∈ block) : enumeration.typeName = definition.name := by
  cases h with
  | simpleSum _ henum _ =>
    rw [List.mem_singleton, Declaration.enumeration.injEq] at hmem
    rw [hmem, henum.typeName_eq]
  | compoundSum _ henum _ _ =>
    simp only [List.mem_cons, List.mem_map, reduceCtorEq, and_false, exists_false, or_false,
      Declaration.enumeration.injEq] at hmem
    rw [hmem, henum.typeName_eq]
  | product _ =>
    rw [List.mem_singleton] at hmem
    cases hmem

theorem Block.exists_enumeration {definition : Definition} {block : List Declaration}
    (h : Block schema encoding definition block) (henum : definition.IsEnumeration) :
    ∃ enumeration : Enumeration, .enumeration enumeration ∈ block ∧
      enumeration.typeName = definition.name := by
  cases h with
  | simpleSum _ hof _ => exact ⟨_, List.mem_singleton_self _, hof.typeName_eq⟩
  | compoundSum _ hof _ _ => exact ⟨_, List.mem_cons_self .., hof.typeName_eq⟩
  | product _ =>
    obtain ⟨_, hbody, -⟩ := henum
    cases hbody

/-! ## Fields read as enumerations -/

theorem Slots.accessors {offset : UInt32} {fields : List Field} {accessors : List Accessor}
    (h : Slots schema encoding offset fields accessors) :
    List.Forall₂ (fun field accessor => FieldValue schema field accessor.value)
      fields accessors := by
  induction h with
  | nil => exact .nil
  | cons haccessor _ ih => exact .cons haccessor.value ih

/-- Names are distinct, so a field of an enumeration's name is read as that enumeration. -/
theorem FieldValue.eq_enumeration (hdistinct : (schema.types.map Definition.name).Nodup)
    {field : Field} {value : ValueKind} (h : FieldValue schema field value) {used : Definition}
    (hused : used ∈ schema.types) (henum : used.IsEnumeration)
    (hnone : NamesNoBuiltin used.name) (hname : field.typeName = used.name) :
    value = .enumeration used.name := by
  cases h with
  | @builtin builtin hbuiltin => exact absurd (hbuiltin.trans hname) (hnone builtin)
  | enumeration _ _ _ _ => rw [hname]
  | @object other _ hother hsame hobject =>
    have heq : other = used :=
      List.inj_on_of_nodup_map hdistinct hother hused (hsame.trans hname)
    rw [heq] at hobject
    exact absurd henum hobject

/-- A field that is read as an enumeration names an enumeration of the schema. -/
theorem FieldValue.definition {field : Field} {typeName : String}
    (h : FieldValue schema field (.enumeration typeName)) :
    ∃ used ∈ schema.types, used.IsEnumeration ∧ NamesNoBuiltin used.name ∧
      field.typeName = used.name ∧ typeName = used.name := by
  generalize hvalue : ValueKind.enumeration typeName = value at h
  cases h with
  | @builtin builtin _ => cases builtin <;> cases hvalue
  | @enumeration used hnone hused hname henum =>
    cases hvalue
    exact ⟨used, hused, henum, hname.symm ▸ hnone, hname.symm, hname.symm⟩
  | object => cases hvalue

/-! ## The order of declarations -/

/-- **Enumerations stand before their readers exactly when the schema defines them before.** -/
theorem enumerationsFirst_iff {layout : Layout} (hbuild : build schema encoding = .ok layout) :
    layout.EnumerationsFirst ↔
      schema.types.Pairwise fun earlier later => ¬ earlier.ReadsEnumeration later := by
  obtain ⟨_, ⟨hdistinct, blocks, hblocks, rfl⟩, rfl⟩ := build_eq_ok_iff.mp hbuild
  constructor
  · intro hfirst
    apply pairwise_of_split
    rintro before user after htypes used hused ⟨henum, hnone, ref, fields, hclass, field, hfield,
      hname⟩
    -- the class of the reader, and its position
    rw [htypes] at hblocks
    obtain ⟨front, block, back, rfl, hfront, hblock, -⟩ := forall₂_split_left hblocks
    obtain ⟨cls, hcls, -, hslots⟩ := hblock.exists_class hclass
    obtain ⟨accessor, haccessor, hvalue⟩ := exists_right_of_forall₂ hslots.accessors hfield
    have husedTypes : used ∈ schema.types := by
      rw [htypes]
      exact List.mem_append_right _ (List.mem_cons_of_mem _ hused)
    have hread := hvalue.eq_enumeration hdistinct husedTypes henum hnone hname
    obtain ⟨p, hp⟩ := List.mem_iff_getElem?.mp hcls
    have hposition : (front ++ block :: back).flatten[front.flatten.length + p]? =
        some (.accessorClass cls) := by
      rw [List.flatten_append, List.flatten_cons, List.getElem?_append_right (by omega),
        Nat.add_sub_cancel_left,
        List.getElem?_append_left (List.getElem?_eq_some_iff.mp hp).1, hp]
    obtain ⟨j, hj, enumeration, hat, htypeName⟩ :=
      hfirst _ cls hposition accessor haccessor _ hread
    -- what stands above the class belongs to an earlier definition or to the reader itself
    have habove : .enumeration enumeration ∈ (front ++ [block]).flatten := by
      have hlt : j < (front ++ [block]).flatten.length := by
        have hbound := (List.getElem?_eq_some_iff.mp hp).1
        simp only [List.flatten_append, List.flatten_singleton, List.length_append]
        omega
      rw [List.append_cons, List.flatten_append, List.getElem?_append_left hlt] at hat
      exact List.mem_of_getElem? hat
    obtain ⟨home, hhome, hmem⟩ := List.mem_flatten.mp habove
    obtain ⟨definition, hdefinition, hdefines⟩ :=
      exists_left_of_forall₂ (List.rel_append hfront (.cons hblock .nil)) hhome
    have hsame : definition.name = used.name := by
      rw [← hdefines.typeName_of_mem hmem, htypeName]
    -- but `used` comes later and names are distinct
    rw [htypes, List.append_cons, List.map_append, List.nodup_append] at hdistinct
    exact hdistinct.2.2 _ (List.mem_map_of_mem hdefinition) _ (List.mem_map_of_mem hused) hsame
  · intro hordered k cls hk accessor haccessor typeName hvalue
    obtain ⟨front, block, back, p, rfl, hp, rfl⟩ := getElem?_flatten_split hk
    obtain ⟨before, user, after, htypes, hbefore, hblock, -⟩ := forall₂_split_right hblocks
    obtain ⟨fields, hclass, hslots⟩ := hblock.hasClass_of_mem (List.mem_of_getElem? hp)
    obtain ⟨field, hfield, hread⟩ := exists_left_of_forall₂ hslots.accessors haccessor
    obtain ⟨used, hused, henum, hnone, hname, rfl⟩ :=
      (hvalue ▸ hread : FieldValue schema field (.enumeration typeName)).definition
    have hreads : user.ReadsEnumeration used :=
      ⟨henum, hnone, _, fields, hclass, field, hfield, hname⟩
    rw [htypes] at hused hordered
    rcases List.mem_append.mp hused with hearlier | hlater
    · obtain ⟨home, hhome, hdefines⟩ := exists_right_of_forall₂ hbefore hearlier
      obtain ⟨enumeration, hmem, htypeName⟩ := hdefines.exists_enumeration henum
      obtain ⟨j, hj⟩ := List.mem_iff_getElem?.mp (List.mem_flatten_of_mem hhome hmem)
      have hlt := (List.getElem?_eq_some_iff.mp hj).1
      refine ⟨j, by omega, enumeration, ?_, htypeName⟩
      rw [List.flatten_append, List.getElem?_append_left hlt, hj]
    · rcases List.mem_cons.mp hlater with rfl | hlater
      · exact absurd henum hclass.not_isEnumeration
      · have hnot := (List.pairwise_append.mp hordered).2.1
        exact absurd hreads (List.rel_of_pairwise_cons hnot hlater)

/-! ## One enumeration and one reader, in both orders -/

/-- The enumeration `e`. -/
def lateEnumeration : Definition :=
  ⟨"e", .sum ⟨[⟨"A", []⟩, ⟨"B", []⟩], []⟩⟩

/-- The product `p`, with a field that is read as `e`. -/
def earlyReader : Definition :=
  ⟨"p", .product ⟨[⟨"x", "e", false, false⟩], []⟩⟩

theorem enumerationsFirst_of_enumeration_above :
    ∃ layout, build ⟨"m", [lateEnumeration, earlyReader]⟩ .standard = .ok layout ∧
      layout.EnumerationsFirst := by
  have hbuild : build ⟨"m", [lateEnumeration, earlyReader]⟩ .standard = .ok _ := rfl
  refine ⟨_, hbuild, (enumerationsFirst_iff hbuild).mpr ?_⟩
  show List.Pairwise _ [lateEnumeration, earlyReader]
  rw [List.pairwise_pair]
  -- a product is no enumeration
  rintro ⟨⟨_, hbody, -⟩, -⟩
  cases hbody

/-- With the reader above, the class stands at position zero and the enumeration below it. -/
theorem not_enumerationsFirst_of_reader_above :
    ∃ layout, build ⟨"m", [earlyReader, lateEnumeration]⟩ .standard = .ok layout ∧
      ¬ layout.EnumerationsFirst := by
  refine ⟨_, rfl, ?_⟩
  intro hfirst
  obtain ⟨j, hj, -⟩ := hfirst 0 _ rfl _ (List.mem_singleton_self _) "e" rfl
  exact Nat.not_lt_zero j hj

end Layout

end ReaderGen
