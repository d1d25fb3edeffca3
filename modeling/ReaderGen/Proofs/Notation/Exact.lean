import ReaderGen.Proofs.Notation.Grammar
import Mathlib.Data.Set.Operations

/-!
# ReaderGen.Proofs.Notation.Exact -- the parser accepts exactly its grammar

Each reader of the parser returns an item exactly when the tokens start with the kinds
the item is written with and the item is well formed. Field lists end by themselves.
Everything that may end early needs to know what stands behind it: a constructor must
not be followed by a parenthesis, a sum not by a pipe, a definition not by an attribute
list. Inside a module that is always so (`closed_of_definitions`), which makes the whole
exact and **leaves one reading for every source** (`parse_eq_ok_iff`).
-/

namespace ReaderGen.Notation

section Readers

variable {tokens rest : List Token}

/-! ## Single tokens -/

theorem expect_eq_ok_iff {kind : TokenKind} {expected : Expected} :
    expect kind expected tokens = .ok rest ↔ Reads [kind] tokens rest := by
  rw [reads_singleton_iff]
  constructor
  · exact expect_eq_ok
  · rintro ⟨position, rfl⟩
    exact if_pos rfl

@[simp] theorem expect_cons_self {kind : TokenKind} {expected : Expected} {position : Position} :
    expect kind expected (⟨kind, position⟩ :: rest) = .ok rest :=
  expect_eq_ok_iff.mpr (reads_singleton_iff.mpr ⟨position, rfl⟩)

theorem expectIdent_eq_ok_iff {expected : Expected} {name : String} :
    (∃ position, expectIdent expected tokens = .ok (name, position, rest)) ↔
      Reads [.ident name] tokens rest := by
  rw [reads_singleton_iff]
  constructor
  · rintro ⟨position, h⟩
    exact ⟨position, expectIdent_eq_ok h⟩
  · rintro ⟨position, rfl⟩
    exact ⟨position, rfl⟩

/-! ## Fields -/

theorem fieldMark_reads {isSequence isOptional : Bool}
    (h : fieldMark tokens = (isSequence, isOptional, rest)) (name typeName : String) :
    Reads (Field.markKinds ⟨name, typeName, isSequence, isOptional⟩) tokens rest ∧
      Field.OneMark ⟨name, typeName, isSequence, isOptional⟩ := by
  unfold fieldMark at h
  split at h
  · cases h
    exact ⟨reads_singleton_iff.mpr ⟨_, rfl⟩, fun hboth => nomatch hboth.2⟩
  · cases h
    exact ⟨reads_singleton_iff.mpr ⟨_, rfl⟩, fun hboth => nomatch hboth.1⟩
  · cases h
    exact ⟨reads_nil_iff.mpr rfl, fun hboth => nomatch hboth.1⟩

theorem parseField_eq_ok_iff {field : Field} :
    (∃ position, parseField tokens = .ok (field, position, rest)) ↔
      Reads field.kinds tokens rest ∧ field.OneMark := by
  constructor
  · rintro ⟨position, h⟩
    unfold parseField at h
    split at h
    · cases h
    · next typeName place afterType htype =>
      rcases hmark : fieldMark afterType with ⟨isSequence, isOptional, afterMark⟩
      rw [hmark] at h
      simp only at h
      split at h
      · cases h
      · next name position left hname =>
        cases h
        obtain ⟨hreads, hone⟩ := fieldMark_reads hmark name typeName
        rw [expectIdent_eq_ok htype]
        exact ⟨(hreads.append (expectIdent_eq_ok_iff.mp ⟨position, hname⟩)).cons, hone⟩
  · rintro ⟨h, hone⟩
    obtain ⟨place, afterType, rfl, hrun⟩ := reads_cons_iff.mp h
    obtain ⟨afterMark, hmark, hname⟩ := reads_append_iff.mp hrun
    obtain ⟨position, rfl⟩ := reads_singleton_iff.mp hname
    -- the mark is a star, a question mark or nothing, and the name is no mark
    rcases field with ⟨name, typeName, isSequence, isOptional⟩
    cases isSequence with
    | true =>
      obtain ⟨_, rfl⟩ := reads_singleton_iff.mp hmark
      cases isOptional with
      | true => exact absurd ⟨rfl, rfl⟩ hone
      | false => exact ⟨position, rfl⟩
    | false =>
      cases isOptional with
      | true =>
        obtain ⟨_, rfl⟩ := reads_singleton_iff.mp hmark
        exact ⟨position, rfl⟩
      | false =>
        rw [reads_nil_iff.mp hmark]
        exact ⟨position, rfl⟩

/-! ## Names that have not been seen -/

/-- The names differ from each other and from those seen before. -/
structure Fresh (seen names : List String) : Prop where
  distinct : names.Nodup
  unseen : ∀ name ∈ names, name ∉ seen

theorem fresh_nil {seen : List String} : Fresh seen [] where
  distinct := List.nodup_nil
  unseen := fun _ hmem => absurd hmem List.not_mem_nil

/-- What a loop checks name by name: each is new, and is seen by those behind it. -/
theorem fresh_cons_iff {seen names : List String} {name : String} :
    Fresh seen (name :: names) ↔ name ∉ seen ∧ Fresh (name :: seen) names := by
  constructor
  · rintro ⟨hdistinct, hunseen⟩
    rw [List.nodup_cons] at hdistinct
    rw [List.forall_mem_cons] at hunseen
    refine ⟨hunseen.1, hdistinct.2, ?_⟩
    intro other hmem hold
    rcases List.mem_cons.mp hold with rfl | hold
    · exact hdistinct.1 hmem
    · exact hunseen.2 other hmem hold
  · rintro ⟨hname, hdistinct, hunseen⟩
    refine ⟨List.nodup_cons.mpr ⟨?_, hdistinct⟩, List.forall_mem_cons.mpr ⟨hname, ?_⟩⟩
    · intro hmem
      exact hunseen name hmem List.mem_cons_self
    · intro other hmem hold
      exact hunseen other hmem (List.mem_cons_of_mem _ hold)

theorem fresh_of_nodup {names : List String} (h : names.Nodup) : Fresh [] names where
  distinct := h
  unseen := fun _ _ => List.not_mem_nil

/-! ## Field lists -/

/-- A field list that was read has a field, and none of the names seen before. -/
theorem parseFieldItems_sound {owner : String} {seen : List String} {fields : List Field}
    (h : parseFieldItems owner seen tokens = .ok (fields, rest)) :
    fields ≠ [] ∧ Reads (fieldItemKinds fields) tokens rest ∧
      Fresh seen (fields.map Field.name) ∧ ∀ field ∈ fields, field.OneMark := by
  fun_induction parseFieldItems owner seen tokens generalizing fields rest with
  | case1 => cases h
  | case2 => cases h
  | case3 => cases h
  | case4 seen tokens field position hseen place tail hfield fields' left hitems _ ih =>
    cases h
    obtain ⟨hreads, hone⟩ := parseField_eq_ok_iff.mp ⟨position, hfield⟩
    obtain ⟨hne, hmore, hfresh, hall⟩ := ih hitems
    refine ⟨List.cons_ne_nil _ _, ?_, fresh_cons_iff.mpr ⟨hseen, hfresh⟩,
      List.forall_mem_cons.mpr ⟨hone, hall⟩⟩
    rw [fieldItemKinds_cons hne]
    exact hreads.append hmore.cons
  | case5 seen tokens field position hseen place tail hfield =>
    cases h
    obtain ⟨hreads, hone⟩ := parseField_eq_ok_iff.mp ⟨position, hfield⟩
    refine ⟨List.cons_ne_nil _ _, ?_, fresh_cons_iff.mpr ⟨hseen, fresh_nil⟩,
      List.forall_mem_singleton.mpr hone⟩
    rw [fieldItemKinds_singleton]
    exact hreads.append (reads_singleton_iff.mpr ⟨place, rfl⟩)
  | case6 => cases h

theorem parseFieldItems_last {owner : String} {seen : List String} {field : Field}
    {position place : Position}
    (hfield : parseField tokens = .ok (field, position, ⟨.closeParen, place⟩ :: rest))
    (hseen : field.name ∉ seen) : parseFieldItems owner seen tokens = .ok ([field], rest) := by
  rw [parseFieldItems]
  split
  · next e herror =>
    rw [hfield] at herror
    cases herror
  · next other after position hsame =>
    rw [hfield] at hsame
    cases hsame
    rw [if_neg hseen]

theorem parseFieldItems_comma {owner : String} {seen : List String} {field : Field}
    {fields : List Field} {position place : Position} {after : List Token}
    (hfield : parseField tokens = .ok (field, position, ⟨.comma, place⟩ :: after))
    (hseen : field.name ∉ seen)
    (hmore : parseFieldItems owner (field.name :: seen) after = .ok (fields, rest)) :
    parseFieldItems owner seen tokens = .ok (field :: fields, rest) := by
  rw [parseFieldItems]
  split
  · next e herror =>
    rw [hfield] at herror
    cases herror
  · next other after position hsame =>
    rw [hfield] at hsame
    cases hsame
    rw [if_neg hseen]
    simp only [hmore]

theorem parseFieldItems_complete {owner : String} {seen : List String} {fields : List Field}
    (hne : fields ≠ []) (hreads : Reads (fieldItemKinds fields) tokens rest)
    (hfresh : Fresh seen (fields.map Field.name)) (hone : ∀ field ∈ fields, field.OneMark) :
    parseFieldItems owner seen tokens = .ok (fields, rest) := by
  induction fields generalizing seen tokens with
  | nil => exact absurd rfl hne
  | cons field fields ih =>
    rw [List.map_cons, fresh_cons_iff] at hfresh
    rw [List.forall_mem_cons] at hone
    by_cases hlast : fields = []
    · subst hlast
      rw [fieldItemKinds_singleton] at hreads
      obtain ⟨middle, hfield, hclose⟩ := reads_append_iff.mp hreads
      obtain ⟨position, hfield⟩ := parseField_eq_ok_iff.mpr ⟨hfield, hone.1⟩
      obtain ⟨place, rfl⟩ := reads_singleton_iff.mp hclose
      exact parseFieldItems_last hfield hfresh.1
    · rw [fieldItemKinds_cons hlast] at hreads
      obtain ⟨middle, hfield, hcomma⟩ := reads_append_iff.mp hreads
      obtain ⟨position, hfield⟩ := parseField_eq_ok_iff.mpr ⟨hfield, hone.1⟩
      obtain ⟨place, after, rfl, hmore⟩ := reads_cons_iff.mp hcomma
      exact parseFieldItems_comma hfield hfresh.1 (ih hlast hmore hfresh.2 hone.2)

theorem parseFields_eq_ok_iff {owner : String} {fields : List Field} :
    parseFields owner tokens = .ok (fields, rest) ↔
      fields ≠ [] ∧ Reads (fieldListKinds fields) tokens rest ∧ FieldsWellFormed fields := by
  constructor
  · intro h
    unfold parseFields at h
    split at h
    · cases h
    · next after hopen =>
      obtain ⟨position, rfl⟩ := expect_eq_ok hopen
      obtain ⟨hne, hreads, hfresh, hone⟩ := parseFieldItems_sound h
      exact ⟨hne, hreads.cons, hfresh.distinct, hone⟩
  · rintro ⟨hne, hreads, hdistinct, hone⟩
    obtain ⟨position, after, rfl, hitems⟩ := reads_cons_iff.mp hreads
    rw [parseFields, expect_cons_self]
    exact parseFieldItems_complete hne hitems (fresh_of_nodup hdistinct) hone

/-! ## Attributes -/

theorem parseAttributes_eq_ok_iff {owner : String} {attributes : List Field}
    (hrest : ¬ AttributesAhead rest) :
    parseAttributes owner tokens = .ok (attributes, rest) ↔
      Reads (attributeKinds attributes) tokens rest ∧ FieldsWellFormed attributes := by
  constructor
  · intro h
    unfold parseAttributes at h
    split at h
    · obtain ⟨hne, hreads, hwf⟩ := parseFields_eq_ok_iff.mp h
      rw [attributeKinds, if_neg hne]
      exact ⟨hreads.cons, hwf⟩
    · cases h
      exact ⟨reads_nil_iff.mpr rfl, fieldsWellFormed_nil⟩
  · rintro ⟨hreads, hwf⟩
    by_cases hnil : attributes = []
    · subst hnil
      rw [reads_nil_iff.mp hreads]
      unfold parseAttributes
      split
      · next word place after =>
        exact absurd ⟨after, reads_cons_iff.mpr ⟨_, _, rfl, reads_singleton_iff.mpr ⟨_, rfl⟩⟩⟩
          hrest
      · rfl
    · rw [attributeKinds, if_neg hnil] at hreads
      obtain ⟨position, after, rfl, hlist⟩ := reads_cons_iff.mp hreads
      obtain ⟨place, items, rfl, -⟩ := reads_cons_iff.mp hlist
      exact parseFields_eq_ok_iff.mpr ⟨hnil, hlist, hwf⟩

/-- Neither an attribute list nor what may stand behind a definition goes on with the
constructor in front of it. -/
theorem closed_of_attributes {attributes : List Field}
    (h : Reads (attributeKinds attributes) tokens rest) (hrest : Closed rest) :
    (current tokens).kind ≠ .openParen ∧ (current tokens).kind ≠ .pipe := by
  by_cases hnil : attributes = []
  · subst hnil
    rw [reads_nil_iff.mp h]
    exact ⟨hrest.no_fields, hrest.no_variant⟩
  · rw [attributeKinds, if_neg hnil] at h
    rw [h.current_kind]
    exact ⟨nofun, nofun⟩

/-! ## Constructors -/

theorem parseConstructor_eq_ok_iff {variant : Constructor}
    (hrest : (current rest).kind ≠ .openParen) :
    parseConstructor tokens = .ok (variant, rest) ↔
      Reads variant.kinds tokens rest ∧ FieldsWellFormed variant.fields := by
  constructor
  · intro h
    unfold parseConstructor at h
    split at h
    · cases h
    · next name position afterName hname =>
      rw [expectIdent_eq_ok hname]
      split at h
      · split at h
        · cases h
        · next fields left hfields =>
          cases h
          obtain ⟨hne, hreads, hwf⟩ := parseFields_eq_ok_iff.mp hfields
          rw [Constructor.kinds, if_neg hne]
          exact ⟨hreads.cons, hwf⟩
      · cases h
        exact ⟨(reads_nil_iff.mpr rfl).cons, fieldsWellFormed_nil⟩
  · rintro ⟨hreads, hwf⟩
    rcases variant with ⟨name, fields⟩
    obtain ⟨position, afterName, rfl, hlist⟩ := reads_cons_iff.mp hreads
    by_cases hnil : fields = []
    · subst hnil
      rw [reads_nil_iff.mp hlist]
      -- no parenthesis follows, so the name stands alone
      unfold parseConstructor
      simp only [expectIdent]
    · rw [if_neg hnil] at hlist
      have hopen : (current afterName).kind = .openParen := hlist.current_kind
      have hfields : parseFields name afterName = .ok (fields, rest) :=
        parseFields_eq_ok_iff.mpr ⟨hnil, hlist, hwf⟩
      simp only [parseConstructor, expectIdent, hopen, hfields]

theorem parseConstructors_sound {variants : List Constructor}
    (h : parseConstructors tokens = .ok (variants, rest))
    (hrest : (current rest).kind ≠ .openParen) :
    variants ≠ [] ∧ Reads (variantKinds variants) tokens rest ∧
      ∀ variant ∈ variants, FieldsWellFormed variant.fields := by
  fun_induction parseConstructors tokens generalizing variants rest with
  | case1 => cases h
  | case2 => cases h
  | case3 tokens variant place tail hvariant variants' left htail _ ih =>
    cases h
    have hpipe : (current (⟨.pipe, place⟩ :: tail)).kind ≠ .openParen := by
      show TokenKind.pipe ≠ .openParen
      decide
    obtain ⟨hreads, hwf⟩ := (parseConstructor_eq_ok_iff hpipe).mp hvariant
    obtain ⟨hne, hmore, hall⟩ := ih htail hrest
    refine ⟨List.cons_ne_nil _ _, ?_, List.forall_mem_cons.mpr ⟨hwf, hall⟩⟩
    rw [variantKinds_cons hne]
    exact hreads.append hmore.cons
  | case4 tokens variant afterVariant hvariant =>
    cases h
    obtain ⟨hreads, hwf⟩ := (parseConstructor_eq_ok_iff hrest).mp hvariant
    refine ⟨List.cons_ne_nil _ _, ?_, List.forall_mem_singleton.mpr hwf⟩
    rw [variantKinds_singleton]
    exact hreads

theorem parseConstructors_last {variant : Constructor}
    (hvariant : parseConstructor tokens = .ok (variant, rest))
    (hrest : (current rest).kind ≠ .pipe) :
    parseConstructors tokens = .ok ([variant], rest) := by
  rw [parseConstructors]
  split
  · next e herror =>
    rw [hvariant] at herror
    cases herror
  · next variant' after hsame =>
    rw [hvariant] at hsame
    cases hsame
    split
    · exact absurd rfl hrest
    · rfl

theorem parseConstructors_pipe {variant : Constructor} {variants : List Constructor}
    {place : Position} {after : List Token}
    (hvariant : parseConstructor tokens = .ok (variant, ⟨.pipe, place⟩ :: after))
    (hmore : parseConstructors after = .ok (variants, rest)) :
    parseConstructors tokens = .ok (variant :: variants, rest) := by
  rw [parseConstructors]
  split
  · next e herror =>
    rw [hvariant] at herror
    cases herror
  · next other after hsame =>
    rw [hvariant] at hsame
    cases hsame
    simp only [hmore]

theorem parseConstructors_complete {variants : List Constructor} (hne : variants ≠ [])
    (hreads : Reads (variantKinds variants) tokens rest)
    (hwf : ∀ variant ∈ variants, FieldsWellFormed variant.fields)
    (hparen : (current rest).kind ≠ .openParen) (hpipe : (current rest).kind ≠ .pipe) :
    parseConstructors tokens = .ok (variants, rest) := by
  induction variants generalizing tokens with
  | nil => exact absurd rfl hne
  | cons variant variants ih =>
    rw [List.forall_mem_cons] at hwf
    by_cases hlast : variants = []
    · subst hlast
      rw [variantKinds_singleton] at hreads
      exact parseConstructors_last ((parseConstructor_eq_ok_iff hparen).mpr ⟨hreads, hwf.1⟩)
        hpipe
    · rw [variantKinds_cons hlast] at hreads
      obtain ⟨middle, hvariant, hpipes⟩ := reads_append_iff.mp hreads
      obtain ⟨place, after, rfl, hmore⟩ := reads_cons_iff.mp hpipes
      have hfollow : (current (⟨.pipe, place⟩ :: after)).kind ≠ .openParen := by
        show TokenKind.pipe ≠ .openParen
        decide
      exact parseConstructors_pipe ((parseConstructor_eq_ok_iff hfollow).mpr ⟨hvariant, hwf.1⟩)
        (ih hlast hmore hwf.2)

/-! ## Definitions -/

theorem variantKinds_eq_cons {variants : List Constructor} (h : variants ≠ []) :
    ∃ name kinds, variantKinds variants = .ident name :: kinds := by
  cases variants with
  | nil => exact absurd rfl h
  | cons variant variants =>
    by_cases hlast : variants = []
    · subst hlast
      exact ⟨variant.name, _, variantKinds_singleton⟩
    · exact ⟨variant.name, _, variantKinds_cons hlast⟩

/-- **A right-hand side is read exactly**, provided that what stands behind it is closed. -/
theorem parseBody_eq_ok_iff {name : String} {body : Body} (hrest : Closed rest) :
    parseBody name tokens = .ok (body, rest) ↔ Reads body.kinds tokens rest ∧ body.WellFormed := by
  constructor
  · intro h
    unfold parseBody at h
    split at h
    · split at h
      · cases h
      · next fields afterFields hfields =>
        obtain ⟨hne, hreads, hwf⟩ := parseFields_eq_ok_iff.mp hfields
        split at h
        · cases h
        · next attributes left hattributes =>
          cases h
          obtain ⟨hmore, hattrs⟩ :=
            (parseAttributes_eq_ok_iff hrest.no_attributes).mp hattributes
          exact ⟨hreads.append hmore, .product hne hwf hattrs⟩
    · split at h
      · cases h
      · next variants afterVariants hvariants =>
        split at h
        · cases h
        · next attributes left hattributes =>
          cases h
          obtain ⟨hmore, hattrs⟩ :=
            (parseAttributes_eq_ok_iff hrest.no_attributes).mp hattributes
          -- the attributes tell where the last constructor had to end
          obtain ⟨hne, hreads, hwf⟩ :=
            parseConstructors_sound hvariants (closed_of_attributes hmore hrest).1
          exact ⟨hreads.append hmore, .sum hne hwf hattrs⟩
  · rintro ⟨hreads, hwf⟩
    cases hwf with
    | @sum choice hne hvariants hattrs =>
      obtain ⟨middle, hfront, hmore⟩ := reads_append_iff.mp hreads
      obtain ⟨hparen, hpipe⟩ := closed_of_attributes hmore hrest
      have hread := parseConstructors_complete hne hfront hvariants hparen hpipe
      have hattributes : parseAttributes name middle = .ok (choice.attributes, rest) :=
        (parseAttributes_eq_ok_iff hrest.no_attributes).mpr ⟨hmore, hattrs⟩
      -- a sum starts with a name, so it is not taken for a product
      obtain ⟨first, kinds, hkinds⟩ := variantKinds_eq_cons hne
      rw [hkinds] at hfront
      simp only [parseBody, hfront.current_kind, hread, hattributes]
    | @product record hne hfields hattrs =>
      obtain ⟨middle, hfront, hmore⟩ := reads_append_iff.mp hreads
      have hopen : (current tokens).kind = .openParen := hfront.current_kind
      have hread : parseFields name tokens = .ok (record.fields, middle) :=
        parseFields_eq_ok_iff.mpr ⟨hne, hfront, hfields⟩
      have hattributes : parseAttributes name middle = .ok (record.attributes, rest) :=
        (parseAttributes_eq_ok_iff hrest.no_attributes).mpr ⟨hmore, hattrs⟩
      simp only [parseBody, hopen, hread, hattributes]

theorem parseDefinition_eq_ok_iff {definition : Definition} (hrest : Closed rest) :
    parseDefinition tokens = .ok (definition, rest) ↔
      Reads definition.kinds tokens rest ∧ definition.body.WellFormed := by
  constructor
  · intro h
    unfold parseDefinition at h
    split at h
    · cases h
    · next name place afterName hname =>
      split at h
      · cases h
      · next afterEquals hequals =>
        split at h
        · cases h
        · next body left hbody =>
          cases h
          obtain ⟨hreads, hwf⟩ := (parseBody_eq_ok_iff hrest).mp hbody
          obtain ⟨position, rfl⟩ := expect_eq_ok hequals
          rw [expectIdent_eq_ok hname]
          exact ⟨hreads.cons.cons, hwf⟩
  · rintro ⟨hreads, hwf⟩
    obtain ⟨place, afterName, rfl, hequals⟩ := reads_cons_iff.mp hreads
    obtain ⟨position, afterEquals, rfl, hbody⟩ := reads_cons_iff.mp hequals
    have hread : parseBody definition.name afterEquals = .ok (definition.body, rest) :=
      (parseBody_eq_ok_iff hrest).mpr ⟨hbody, hwf⟩
    simp only [parseDefinition, expectIdent, expect_cons_self, hread]

/-! ## Modules -/

theorem parseDefinitions_sound {seen : List String} {definitions : List Definition}
    (h : parseDefinitions seen tokens = .ok (definitions, rest)) :
    Reads (definitions.flatMap Definition.kinds) tokens rest ∧
      (current rest).kind = .closeBrace ∧ Fresh seen (definitions.map Definition.name) ∧
      ∀ definition ∈ definitions, definition.body.WellFormed := by
  fun_induction parseDefinitions seen tokens generalizing definitions rest with
  | case1 seen tokens hbrace =>
    cases h
    exact ⟨reads_nil_iff.mpr rfl, hbrace, fresh_nil, nofun⟩
  | case2 => cases h
  | case3 => cases h
  | case4 => cases h
  | case5 seen tokens _ definition after hdefinition hseen definitions' left hmore ih =>
    cases h
    obtain ⟨hreads, hbrace, hfresh, hbodies⟩ := ih hmore
    -- what was read behind the definition shows that it ended where it had to
    obtain ⟨hfirst, hbody⟩ :=
      (parseDefinition_eq_ok_iff (closed_of_definitions hreads hbrace)).mp hdefinition
    refine ⟨?_, hbrace, fresh_cons_iff.mpr ⟨hseen, hfresh⟩,
      List.forall_mem_cons.mpr ⟨hbody, hbodies⟩⟩
    rw [List.flatMap_cons]
    exact hfirst.append hreads

theorem parseDefinitions_cons {seen : List String} {definition : Definition}
    {definitions : List Definition} {after : List Token}
    (hbrace : (current tokens).kind ≠ .closeBrace)
    (hdefinition : parseDefinition tokens = .ok (definition, after))
    (hseen : definition.name ∉ seen)
    (hmore : parseDefinitions (definition.name :: seen) after = .ok (definitions, rest)) :
    parseDefinitions seen tokens = .ok (definition :: definitions, rest) := by
  rw [parseDefinitions, if_neg hbrace]
  split
  · next e herror =>
    rw [hdefinition] at herror
    cases herror
  · next other left hsame =>
    rw [hdefinition] at hsame
    cases hsame
    rw [if_neg hseen]
    simp only [hmore]

theorem parseDefinitions_complete {seen : List String} {definitions : List Definition}
    (hreads : Reads (definitions.flatMap Definition.kinds) tokens rest)
    (hbrace : (current rest).kind = .closeBrace)
    (hfresh : Fresh seen (definitions.map Definition.name))
    (hbodies : ∀ definition ∈ definitions, definition.body.WellFormed) :
    parseDefinitions seen tokens = .ok (definitions, rest) := by
  induction definitions generalizing seen tokens with
  | nil =>
    rw [reads_nil_iff.mp hreads, parseDefinitions, if_pos hbrace]
  | cons definition definitions ih =>
    rw [List.flatMap_cons] at hreads
    rw [List.map_cons, fresh_cons_iff] at hfresh
    rw [List.forall_mem_cons] at hbodies
    obtain ⟨after, hfirst, hmore⟩ := reads_append_iff.mp hreads
    have hclosed := closed_of_definitions hmore hbrace
    have hname : (current tokens).kind = .ident definition.name := hfirst.current_kind
    refine parseDefinitions_cons ?_
      ((parseDefinition_eq_ok_iff hclosed).mpr ⟨hfirst, hbodies.1⟩) hfresh.1
      (ih hmore hfresh.2 hbodies.2)
    rw [hname]
    exact nofun

/-- **A module is read exactly**, with no condition on what stands behind it: the end does. -/
theorem parseModule_eq_ok_iff {schema : Schema} :
    parseModule tokens = .ok schema ↔
      (∃ rest, Reads (schema.kinds ++ [.eof]) tokens rest) ∧ schema.WellFormed := by
  constructor
  · intro h
    unfold parseModule at h
    split at h
    · cases h
    next afterKeyword hkeyword =>
    split at h
    · cases h
    next name position afterName hname =>
    split at h
    · cases h
    next afterBrace hopen =>
    split at h
    · cases h
    next types afterTypes htypes =>
    split at h
    · cases h
    next afterClose hclose =>
    split at h
    · cases h
    next left hend =>
    cases h
    obtain ⟨hreads, -, hfresh, hbodies⟩ := parseDefinitions_sound htypes
    refine ⟨⟨left, ?_⟩, hfresh.distinct, hbodies⟩
    have hfront := (expect_eq_ok_iff.mp hkeyword).append
      ((expectIdent_eq_ok_iff.mp ⟨position, hname⟩).append (expect_eq_ok_iff.mp hopen))
    exact (hfront.append (hreads.append (expect_eq_ok_iff.mp hclose))).append
      (expect_eq_ok_iff.mp hend)
  · rintro ⟨⟨left, hreads⟩, hdistinct, hbodies⟩
    obtain ⟨afterClose, hmodule, hend⟩ := reads_append_iff.mp hreads
    obtain ⟨place, afterKeyword, rfl, hname⟩ := reads_cons_iff.mp hmodule
    obtain ⟨position, afterName, rfl, hopen⟩ := reads_cons_iff.mp hname
    obtain ⟨_, afterBrace, rfl, hbody⟩ := reads_cons_iff.mp hopen
    obtain ⟨afterTypes, htypes, hclose⟩ := reads_append_iff.mp hbody
    have hread : parseDefinitions [] afterBrace = .ok (schema.types, afterTypes) :=
      parseDefinitions_complete htypes hclose.current_kind (fresh_of_nodup hdistinct) hbodies
    have hcloses : expect .closeBrace .closeBrace afterTypes = .ok afterClose :=
      expect_eq_ok_iff.mpr hclose
    have hends : expect .eof .endOfInput afterClose = .ok left := expect_eq_ok_iff.mpr hend
    simp only [parseModule, expect_cons_self, expectIdent, hread, hcloses, hends]

end Readers

/-! ## Sources -/

/-- The end is the last token of a source and stands nowhere else. -/
theorem Cursor.tokens_end {cursor : Cursor} {tokens : List Token}
    (h : cursor.tokens = .ok tokens) :
    ∃ front last, tokens = front ++ [last] ∧ last.kind = .eof ∧
      ∀ token ∈ front, token.kind ≠ .eof := by
  fun_induction Cursor.tokens cursor generalizing tokens with
  | case1 => cases h
  | case2 cursor token after _ hend =>
    cases h
    exact ⟨[], token, rfl, hend, nofun⟩
  | case3 => cases h
  | case4 cursor token after hnext hkind rest hrest ih =>
    cases h
    obtain ⟨front, last, rfl, hend, hfront⟩ := ih hrest
    exact ⟨token :: front, last, rfl, hend, List.forall_mem_cons.mpr ⟨hkind, hfront⟩⟩

/-- A run that takes the end of a source takes all of it. -/
theorem reads_tokenize_iff {source : String} {tokens : List Token} {kinds : List TokenKind}
    (h : tokenize source = .ok tokens) :
    (∃ rest, Reads (kinds ++ [.eof]) tokens rest) ↔
      tokens.map Token.kind = kinds ++ [.eof] := by
  constructor
  · rintro ⟨rest, run, hsplit, hkinds⟩
    obtain ⟨front, last, rfl, -, hfront⟩ := Cursor.tokens_end h
    obtain ⟨items, endRun, rfl, -, hend⟩ := List.map_eq_append_iff.mp hkinds
    obtain ⟨token, rfl, hkind⟩ := List.map_eq_singleton_iff.mp hend
    -- otherwise the end token of the run stands before the last token
    rcases List.eq_nil_or_concat rest with rfl | ⟨inner, final, rfl⟩
    · rw [hsplit, List.append_nil, hkinds]
    · rw [List.concat_eq_append, ← List.append_assoc] at hsplit
      obtain ⟨rfl, -⟩ := List.append_inj' hsplit rfl
      exact absurd hkind (hfront token (by simp))
  · intro hkinds
    exact ⟨[], tokens, (List.append_nil tokens).symm, hkinds⟩

/-- **A source has at most one reading, and the parser finds it.** It returns a schema
exactly when the source is written with the kinds of the schema, end included, and the
schema is well formed; and two well-formed schemas are never written the same way. -/
theorem parse_eq_ok_iff :
    (∀ source schema, parse source = .ok schema ↔
      (∃ tokens, tokenize source = .ok tokens ∧
        tokens.map Token.kind = schema.kinds ++ [.eof]) ∧ schema.WellFormed) ∧
      Set.InjOn Schema.kinds { schema | schema.WellFormed } := by
  constructor
  · intro source schema
    cases htokens : tokenize source with
    | error e =>
      simp only [parse, htokens]
      constructor
      · intro h
        cases h
      · rintro ⟨⟨_, h, -⟩, -⟩
        cases h
    | ok tokens =>
      simp only [parse, htokens]
      rw [parseModule_eq_ok_iff, reads_tokenize_iff htokens]
      constructor
      · rintro ⟨hkinds, hwf⟩
        exact ⟨⟨tokens, rfl, hkinds⟩, hwf⟩
      · rintro ⟨⟨_, hsame, hkinds⟩, hwf⟩
        cases hsame
        exact ⟨hkinds, hwf⟩
  · intro first hfirst second hsecond hkinds
    -- one token list with these kinds is read as both
    have hreads : ∃ rest, Reads (first.kinds ++ [.eof])
        ((first.kinds ++ [TokenKind.eof]).map fun kind => ⟨kind, Position.start⟩) rest := by
      refine ⟨[], _, (List.append_nil _).symm, ?_⟩
      rw [List.map_map]
      exact List.map_id _
    have hread := parseModule_eq_ok_iff.mpr ⟨hreads, hfirst⟩
    have hkinds : first.kinds = second.kinds := hkinds
    rw [hkinds] at hreads hread
    rw [parseModule_eq_ok_iff.mpr ⟨hreads, hsecond⟩] at hread
    exact (Except.ok.inj hread).symm

end ReaderGen.Notation
