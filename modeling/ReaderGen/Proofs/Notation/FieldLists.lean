import ReaderGen.Proofs.Notation.Viable

/-!
# ReaderGen.Proofs.Notation.FieldLists -- field lists among kinds

That no field list repeats a name is a property of kinds: `ListsDistinct kinds` asks it of **every
field list that stands somewhere among them**. A list ends at the first parenthesis that closes,
so the lists among kinds that are put together are those of the parts, as long as each part closes
what it opens (`Settled`). What the parts of a definition are written with is settled, because a
list holds no parenthesis inside.
-/

namespace ReaderGen.Notation

open State

/-! ## What stands between the parentheses -/

theorem of_mem_intercalate {α : Type} {separator : List α} {parts : List (List α)} {x : α}
    (h : x ∈ separator.intercalate parts) : x ∈ separator ∨ ∃ part ∈ parts, x ∈ part := by
  induction parts with
  | nil => cases h
  | cons part parts ih =>
    by_cases hlast : parts = []
    · subst hlast
      rw [List.intercalate_singleton] at h
      exact Or.inr ⟨part, List.mem_cons_self, h⟩
    · rw [List.intercalate_cons_of_ne_nil hlast, List.mem_append, List.mem_append] at h
      rcases h with (hpart | hseparator) | hparts
      · exact Or.inr ⟨part, List.mem_cons_self, hpart⟩
      · exact Or.inl hseparator
      · exact (ih hparts).imp_right fun ⟨other, hmem, hx⟩ =>
          ⟨other, List.mem_cons_of_mem _ hmem, hx⟩

/-- The first of two equal marks cuts a list in one way. -/
theorem append_cons_inj {α : Type} {x : α} {front front' back back' : List α} (h : x ∉ front)
    (h' : x ∉ front') (heq : front ++ x :: back = front' ++ x :: back') :
    front = front' ∧ back = back' := by
  rcases List.append_eq_append_iff.mp heq with ⟨more, rfl, hmore⟩ | ⟨more, rfl, hmore⟩
  · cases more with
    | nil => exact ⟨(List.append_nil _).symm, (List.cons.inj hmore).2⟩
    | cons y more =>
      obtain ⟨rfl, -⟩ := List.cons.inj hmore
      exact absurd (List.mem_append_right _ List.mem_cons_self) h'
  · cases more with
    | nil => exact ⟨List.append_nil _, (List.cons.inj hmore).2.symm⟩
    | cons y more =>
      obtain ⟨rfl, -⟩ := List.cons.inj hmore
      exact absurd (List.mem_append_right _ List.mem_cons_self) h

/-- The kinds that a field list has between its parentheses. -/
def TokenKind.InFields : TokenKind → Prop
  | .ident _ => True
  | .star => True
  | .question => True
  | .comma => True
  | _ => False

theorem inFields_of_mem_field {field : Field} {kind : TokenKind} (h : kind ∈ field.kinds) :
    kind.InFields := by
  rw [Field.kinds, List.mem_cons, List.mem_append, List.mem_singleton] at h
  rcases h with rfl | hmark | rfl
  · trivial
  · rw [Field.markKinds] at hmark
    split at hmark
    · rw [List.mem_singleton.mp hmark]
      trivial
    · split at hmark
      · rw [List.mem_singleton.mp hmark]
        trivial
      · cases hmark
  · trivial

theorem inFields_of_mem_fields {fields : List Field} {kind : TokenKind}
    (h : kind ∈ [TokenKind.comma].intercalate (fields.map Field.kinds)) : kind.InFields := by
  rcases of_mem_intercalate h with hcomma | ⟨_, hmem, hkind⟩
  · rw [List.mem_singleton.mp hcomma]
    trivial
  · obtain ⟨field, -, rfl⟩ := List.mem_map.mp hmem
    exact inFields_of_mem_field hkind

theorem openParen_not_mem_fieldItemKinds (fields : List Field) :
    .openParen ∉ fieldItemKinds fields := by
  intro h
  rcases List.mem_append.mp h with hfields | hclose
  · exact inFields_of_mem_fields hfields
  · cases List.mem_singleton.mp hclose

/-! ## The names of a list -/

/-- Two fields that stand at the same place are written alike, so they have one name. -/
theorem field_kinds_inj {field other : Field} {kinds more : List TokenKind}
    (h : field.kinds ++ kinds = other.kinds ++ more) : field.name = other.name ∧ kinds = more := by
  rcases field with ⟨name, typeName, isSequence, isOptional⟩
  rcases other with ⟨name', typeName', isSequence', isOptional'⟩
  cases isSequence <;> cases isOptional <;> cases isSequence' <;> cases isOptional' <;>
    simp_all [Field.kinds, Field.markKinds]

/-- Two field lists that start at the same place have the same names. -/
theorem names_eq_of_fieldTail {fields others : List Field} {kinds more : List TokenKind}
    (h : fieldTailKinds fields ++ kinds = fieldTailKinds others ++ more) :
    fields.map Field.name = others.map Field.name := by
  induction fields generalizing others with
  | nil =>
    cases others with
    | nil => rfl
    | cons other others => cases (List.cons.inj h).1
  | cons field fields ih =>
    cases others with
    | nil => cases (List.cons.inj h).1
    | cons other others =>
      rw [fieldTailKinds_cons, fieldTailKinds_cons, fieldItemKinds_eq, fieldItemKinds_eq,
        List.cons_append, List.cons_append, List.append_assoc, List.append_assoc] at h
      obtain ⟨hname, htail⟩ := field_kinds_inj (List.cons.inj h).2
      rw [List.map_cons, List.map_cons, hname, ih htail]

theorem names_eq_of_fieldItems {fields others : List Field} {kinds more : List TokenKind}
    (h : fieldItemKinds fields ++ kinds = fieldItemKinds others ++ more) :
    fields.map Field.name = others.map Field.name := by
  cases fields with
  | nil =>
    cases others with
    | nil => rfl
    | cons other others =>
      rw [fieldItemKinds_eq] at h
      cases (List.cons.inj h).1
  | cons field fields =>
    cases others with
    | nil =>
      rw [fieldItemKinds_eq] at h
      cases (List.cons.inj h).1
    | cons other others =>
      rw [fieldItemKinds_eq, fieldItemKinds_eq, List.append_assoc, List.append_assoc] at h
      obtain ⟨hname, htail⟩ := field_kinds_inj h
      rw [List.map_cons, List.map_cons, hname, names_eq_of_fieldTail htail]

/-! ## Lists among kinds -/

/-- No field list that stands among the kinds repeats a name. -/
def ListsDistinct (kinds : List TokenKind) : Prop :=
  ∀ fields : List Field, fieldListKinds fields <:+: kinds → (fields.map Field.name).Nodup

/-- Each list that is opened among the kinds is closed there, and none repeats a name. -/
structure Settled (kinds : List TokenKind) : Prop where
  closed : ∀ front back, kinds = front ++ .openParen :: back → .closeParen ∈ back
  distinct : ListsDistinct kinds

section Lists

variable {kind : TokenKind} {kinds more : List TokenKind} {fields : List Field}

theorem settled_nil : Settled [] where
  closed := by simp
  distinct := by simp [ListsDistinct, fieldListKinds]

theorem Settled.cons (h : Settled kinds) (hkind : kind ≠ .openParen) :
    Settled (kind :: kinds) where
  closed front back heq := by
    cases front with
    | nil => exact absurd (List.cons.inj heq).1 hkind
    | cons _ front => exact h.closed front back (List.cons.inj heq).2
  distinct fields hlist := by
    rcases List.infix_cons_iff.mp hlist with hfront | hlist
    · exact absurd (List.cons_prefix_cons.mp hfront).1.symm hkind
    · exact h.distinct fields hlist

/-- A list that starts among settled kinds ends among them. -/
theorem Settled.infix_or (h : Settled kinds) (hlist : fieldListKinds fields <:+: kinds ++ more) :
    fieldListKinds fields <:+: kinds ∨ fieldListKinds fields <:+: more := by
  obtain ⟨front, back, heq⟩ := hlist
  rw [List.append_assoc] at heq
  rcases List.append_eq_append_iff.mp heq with ⟨rest, rfl, hrest⟩ | ⟨rest, rfl, hrest⟩
  · cases rest with
    | nil => exact Or.inr ⟨[], back, hrest⟩
    | cons _ rest =>
      obtain ⟨rfl, -⟩ := List.cons.inj hrest
      have htail : fieldItemKinds fields ++ back = rest ++ more := (List.cons.inj hrest).2
      obtain ⟨inner, after, rfl, hinner⟩ :=
        List.eq_append_cons_of_mem (h.closed front rest rfl)
      -- the parenthesis that closes the list is the first one that closes
      have hitems : .closeParen ∉ [TokenKind.comma].intercalate (fields.map Field.kinds) :=
        fun hmem => inFields_of_mem_fields hmem
      rw [fieldItemKinds, List.append_assoc, List.append_assoc] at htail
      obtain ⟨hsame, -⟩ := append_cons_inj hitems hinner htail
      refine Or.inl ⟨front, after, ?_⟩
      rw [fieldListKinds, fieldItemKinds, hsame, List.append_assoc, List.cons_append,
        List.append_assoc]
      rfl
  · exact Or.inr ⟨rest, back, by rw [hrest, List.append_assoc]⟩

theorem Settled.listsDistinct_append (h : Settled kinds) (hmore : ListsDistinct more) :
    ListsDistinct (kinds ++ more) :=
  fun fields hlist => (h.infix_or hlist).elim (h.distinct fields) (hmore fields)

theorem Settled.append (h : Settled kinds) (hmore : Settled more) : Settled (kinds ++ more) where
  closed front back heq := by
    rcases List.append_eq_append_iff.mp heq with ⟨rest, rfl, hrest⟩ | ⟨rest, rfl, hrest⟩
    · exact hmore.closed rest back hrest
    · cases rest with
      | nil => exact hmore.closed [] back hrest.symm
      | cons _ rest =>
        obtain ⟨rfl, rfl⟩ := List.cons.inj hrest
        exact List.mem_append_left _ (h.closed front rest rfl)
  distinct := h.listsDistinct_append hmore.distinct

theorem settled_fieldList (h : (fields.map Field.name).Nodup) :
    Settled (fieldListKinds fields) where
  closed front back heq := by
    cases front with
    | nil =>
      rw [← (List.cons.inj heq).2]
      exact List.mem_append_right _ (List.mem_singleton_self _)
    | cons _ front =>
      refine absurd ?_ (openParen_not_mem_fieldItemKinds fields)
      rw [(List.cons.inj heq).2]
      exact List.mem_append_right _ List.mem_cons_self
  distinct others hlist := by
    rcases List.infix_cons_iff.mp hlist with hfront | hinner
    · obtain ⟨back, hback⟩ := (List.cons_prefix_cons.mp hfront).2
      rw [names_eq_of_fieldItems (hback.trans (List.append_nil _).symm)]
      exact h
    · exact absurd (hinner.subset List.mem_cons_self) (openParen_not_mem_fieldItemKinds fields)

/-! ## Lists that are still open -/

/-- A field list up to the name of its last field. -/
def openListKinds (fields : List Field) (last : Field) : List TokenKind :=
  .openParen :: ((fields.flatMap fun field => field.kinds ++ [.comma]) ++ last.kinds)

/-- The kinds end with the name of a field that has the name of an earlier one in its list, and up
to there no other field has a name twice. -/
def RepeatsField (kinds : List TokenKind) (name : String) : Prop :=
  ∃ front fields last, kinds = front ++ openListKinds fields last ∧ last.name = name ∧
    name ∈ fields.map Field.name ∧ (fields.map Field.name).Nodup ∧ ListsDistinct front

theorem RepeatsField.append {name : String} (h : RepeatsField more name) (hkinds : Settled kinds) :
    RepeatsField (kinds ++ more) name := by
  obtain ⟨front, fields, last, rfl, hname, hmem, hnodup, hfront⟩ := h
  exact ⟨kinds ++ front, fields, last, (List.append_assoc ..).symm, hname, hmem, hnodup,
    hkinds.listsDistinct_append hfront⟩

theorem run_openList {state : State} {list : Part}
    (hopen : state.step .openParen = some (fieldType list)) (fields : List Field) (last : Field) :
    state.run (openListKinds fields last) = some (separator list) := by
  have hfields : (fieldType list).run (fields.flatMap fun field => field.kinds ++ [.comma]) =
      some (fieldType list) := by
    induction fields with
    | nil => rfl
    | cons field fields ih =>
      rw [List.flatMap_cons, List.append_assoc, run_append_of_run (run_field field)]
      exact ih
  rw [openListKinds, run_cons_of_step hopen, run_append_of_run hfields, run_field]

end Lists

end ReaderGen.Notation
