import ReaderGen.Proofs.Notation.Names

/-!
# ReaderGen.Proofs.Notation.Errors -- what an error of the parser quotes

A diagnostic of the parser names the token that it found, or the type or the field that came
twice. It writes such a name as it stands, unlike a stray character, which it escapes. **Every name
that it writes is an identifier of the source** (`identifier_of_parse_error`), because each reader
of the parser stays within its tokens (`Within`): what it leaves is their end, and what it quotes
stands among them.
-/

namespace ReaderGen.Notation

/-! ## Names in tokens and in errors -/

/-- The name of an identifier; no other token has one. -/
def TokenKind.name? : TokenKind → Option String
  | .ident name => some name
  | _ => none

/-- The identifiers among tokens. -/
def identifiers (tokens : List Token) : List String :=
  tokens.filterMap fun token => token.kind.name?

/-- The names that a diagnostic writes as they stand. -/
def ParseError.names : ParseError → List String
  | .lex _ => []
  | .unexpected _ found _ => found.name?.toList
  | .duplicateType name _ => [name]
  | .duplicateField owner field _ => [owner, field]

section Tokens

variable {tokens rest after : List Token}

theorem mem_identifiers_iff {name : String} :
    name ∈ identifiers tokens ↔ .ident name ∈ tokens.map Token.kind := by
  have hname : ∀ kind : TokenKind, kind.name? = some name ↔ kind = .ident name := by
    intro kind
    cases kind <;> simp [TokenKind.name?]
  simp only [identifiers, List.mem_filterMap, List.mem_map, hname]

theorem identifiers_subset_of_suffix (h : rest <:+ tokens) :
    identifiers rest ⊆ identifiers tokens :=
  (h.sublist.filterMap _).subset

theorem Reads.suffix {kinds : List TokenKind} (h : Reads kinds tokens rest) : rest <:+ tokens := by
  obtain ⟨run, hsplit, -⟩ := h
  exact ⟨run, hsplit.symm⟩

theorem Reads.mem_identifiers {kinds : List TokenKind} (h : Reads kinds tokens rest)
    {name : String} (hname : .ident name ∈ kinds) : name ∈ identifiers tokens := by
  obtain ⟨run, rfl, rfl⟩ := h
  rw [mem_identifiers_iff, List.map_append]
  exact List.mem_append_left _ hname

/-- What was found in place of something else is the first of the tokens. -/
theorem unexpected_names (expected : Expected) (tokens : List Token) :
    (unexpected expected tokens).names ⊆ identifiers tokens := by
  intro name hname
  cases tokens with
  | nil => cases hname
  | cons token rest =>
    rw [unexpected, ParseError.names, Option.mem_toList] at hname
    exact List.mem_filterMap.mpr ⟨token, List.mem_cons_self .., hname⟩

/-! ## Readers that stay within their tokens -/

/-- The answer of a reader: it leaves an end of the tokens, or quotes the names of `owners`, which
it was told, and identifiers among the tokens. -/
def Within {α : Type} (owners : List String) (tokens : List Token) :
    Except ParseError (α × List Token) → Prop
  | .ok (_, rest) => rest <:+ tokens
  | .error fault => ∀ name ∈ fault.names, name ∈ owners ∨ name ∈ identifiers tokens

section Answers

variable {α : Type} {owners : List String} {result other : Except ParseError (α × List Token)}

theorem Within.congr (h : Within owners tokens result) (heq : result = other) :
    Within owners tokens other :=
  heq ▸ h

/-- A reader may start behind what others have taken. -/
theorem Within.of_suffix (h : Within owners after result) (hsuffix : after <:+ tokens) :
    Within owners tokens result := by
  cases result with
  | error fault =>
    exact fun name hname => (h name hname).imp_right
      fun hmem => identifiers_subset_of_suffix hsuffix hmem
  | ok answer => exact List.IsSuffix.trans h hsuffix

/-- A reader may be told a name that stands among the tokens. -/
theorem Within.of_owner {owner : String} (h : Within [owner] tokens result)
    (howner : owner ∈ identifiers tokens) : Within [] tokens result := by
  cases result with
  | error fault =>
    intro name hname
    rcases h name hname with hmem | hmem
    · rw [List.mem_singleton.mp hmem]
      exact Or.inr howner
    · exact Or.inr hmem
  | ok answer => exact h

theorem within_unexpected (expected : Expected) :
    Within (α := α) owners tokens (.error (unexpected expected tokens)) :=
  fun _ hname => Or.inr (unexpected_names expected tokens hname)

end Answers

/-! ## The readers -/

theorem expect_eq_error {kind : TokenKind} {expected : Expected} {fault : ParseError}
    (h : expect kind expected tokens = .error fault) : fault = unexpected expected tokens := by
  unfold expect at h
  split at h
  · split at h
    · cases h
    · cases h
      rfl
  · cases h
    rfl

theorem expectIdent_eq_error {expected : Expected} {fault : ParseError}
    (h : expectIdent expected tokens = .error fault) : fault = unexpected expected tokens := by
  unfold expectIdent at h
  split at h
  · cases h
  · cases h
    rfl

theorem suffix_of_fieldMark : (fieldMark tokens).2.2 <:+ tokens := by
  unfold fieldMark
  split
  · exact List.suffix_cons ..
  · exact List.suffix_cons ..
  · exact List.suffix_refl _

theorem parseField_names {fault : ParseError} (h : parseField tokens = .error fault) :
    ∀ name ∈ fault.names, name ∈ identifiers tokens := by
  intro name hname
  unfold parseField at h
  split at h
  · next hexpect =>
    cases h
    rw [expectIdent_eq_error hexpect] at hname
    exact unexpected_names _ _ hname
  · next typeName _ afterType htype =>
    have hmark : (fieldMark afterType).2.2 <:+ tokens := by
      rw [expectIdent_eq_ok htype]
      exact suffix_of_fieldMark.trans (List.suffix_cons ..)
    simp only at h
    split at h
    · next hexpect =>
      cases h
      rw [expectIdent_eq_error hexpect] at hname
      exact identifiers_subset_of_suffix hmark (unexpected_names _ _ hname)
    · cases h

theorem parseField_suffix {field : Field} {position : Position}
    (h : parseField tokens = .ok (field, position, rest)) :
    rest <:+ tokens ∧ field.name ∈ identifiers tokens := by
  have hreads := (parseField_eq_ok_iff.mp ⟨position, h⟩).1
  exact ⟨hreads.suffix, hreads.mem_identifiers (by simp [Field.kinds])⟩

/-- The loop over fields quotes the name of its owner and the names of fields that it read. -/
theorem parseFieldItems_within (owner : String) (seen : List String) (tokens : List Token) :
    Within [owner] tokens (parseFieldItems owner seen tokens) := by
  fun_induction parseFieldItems owner seen tokens with
  | case1 seen tokens fault hfield =>
    exact fun name hname => Or.inr (parseField_names hfield name hname)
  | case2 seen tokens field position afterField hfield hseen =>
    intro name hname
    rw [ParseError.names, List.mem_pair] at hname
    rcases hname with rfl | rfl
    · exact Or.inl (List.mem_singleton_self _)
    · exact Or.inr (parseField_suffix hfield).2
  | case3 seen tokens field position hseen place rest hfield fault hitems _ ih =>
    rw [hitems] at ih
    exact ih.of_suffix ((List.suffix_cons ..).trans (parseField_suffix hfield).1)
  | case4 seen tokens field position hseen place rest hfield fields left hitems _ ih =>
    rw [hitems] at ih
    exact ih.of_suffix ((List.suffix_cons ..).trans (parseField_suffix hfield).1)
  | case5 seen tokens field position hseen place rest hfield =>
    exact (List.suffix_cons ..).trans (parseField_suffix hfield).1
  | case6 seen tokens field position afterField hfield hseen _ _ =>
    exact (within_unexpected .fieldSeparator).of_suffix (parseField_suffix hfield).1

theorem parseFields_within (owner : String) (tokens : List Token) :
    Within [owner] tokens (parseFields owner tokens) := by
  unfold parseFields
  split
  · next hopen =>
    rw [expect_eq_error hopen]
    exact within_unexpected _
  · next rest hopen =>
    exact (parseFieldItems_within owner [] rest).of_suffix (expect_eq_ok_iff.mp hopen).suffix

theorem parseAttributes_within (owner : String) (tokens : List Token) :
    Within [owner] tokens (parseAttributes owner tokens) := by
  unfold parseAttributes
  split
  · exact (parseFields_within owner _).of_suffix (List.suffix_cons ..)
  · exact List.suffix_refl _

theorem parseConstructor_within (tokens : List Token) :
    Within [] tokens (parseConstructor tokens) := by
  unfold parseConstructor
  split
  · next hname =>
    rw [expectIdent_eq_error hname]
    exact within_unexpected _
  · next name position afterName hname =>
    have hreads := expectIdent_eq_ok_iff.mp ⟨position, hname⟩
    have howner : name ∈ identifiers tokens := hreads.mem_identifiers (List.mem_singleton_self _)
    split
    · have hfields := ((parseFields_within name afterName).of_suffix hreads.suffix).of_owner howner
      split
      · next hresult => exact hfields.congr hresult
      · next hresult => exact hfields.congr hresult
    · exact hreads.suffix

theorem parseConstructors_within (tokens : List Token) :
    Within [] tokens (parseConstructors tokens) := by
  fun_induction parseConstructors tokens with
  | case1 tokens fault hvariant => exact (parseConstructor_within tokens).congr hvariant
  | case2 tokens variant place rest hvariant fault htail _ ih =>
    have hrest := (parseConstructor_within tokens).congr hvariant
    exact (ih.congr htail).of_suffix ((List.suffix_cons ..).trans hrest)
  | case3 tokens variant place rest hvariant variants left htail _ ih =>
    have hrest := (parseConstructor_within tokens).congr hvariant
    exact (ih.congr htail).of_suffix ((List.suffix_cons ..).trans hrest)
  | case4 tokens variant afterVariant hvariant =>
    exact (parseConstructor_within tokens).congr hvariant

theorem parseBody_within (name : String) (tokens : List Token) :
    Within [name] tokens (parseBody name tokens) := by
  unfold parseBody
  split
  · have hfields := parseFields_within name tokens
    split
    · next hresult => exact hfields.congr hresult
    · next fields afterFields hresult =>
      have hattributes :=
        (parseAttributes_within name afterFields).of_suffix (hfields.congr hresult)
      split
      · next hlast => exact hattributes.congr hlast
      · next hlast => exact hattributes.congr hlast
  · have hvariants := parseConstructors_within tokens
    split
    · next hresult =>
      intro other hother
      exact Or.inr ((hvariants.congr hresult other hother).resolve_left List.not_mem_nil)
    · next variants afterVariants hresult =>
      have hattributes :=
        (parseAttributes_within name afterVariants).of_suffix (hvariants.congr hresult)
      split
      · next hlast => exact hattributes.congr hlast
      · next hlast => exact hattributes.congr hlast

/-- A definition is known by its own name. -/
theorem parseDefinition_within (tokens : List Token) :
    Within [] tokens (parseDefinition tokens) := by
  unfold parseDefinition
  split
  · next hname =>
    rw [expectIdent_eq_error hname]
    exact within_unexpected _
  · next name position afterName hname =>
    have hreads := expectIdent_eq_ok_iff.mp ⟨position, hname⟩
    have howner : name ∈ identifiers tokens := hreads.mem_identifiers (List.mem_singleton_self _)
    split
    · next hequals =>
      rw [expect_eq_error hequals]
      exact (within_unexpected _).of_suffix hreads.suffix
    · next afterEquals hequals =>
      have hsuffix := (expect_eq_ok_iff.mp hequals).suffix.trans hreads.suffix
      have hbody := ((parseBody_within name afterEquals).of_suffix hsuffix).of_owner howner
      split
      · next hresult => exact hbody.congr hresult
      · next hresult => exact hbody.congr hresult

theorem parseDefinition_name {definition : Definition}
    (h : parseDefinition tokens = .ok (definition, rest)) :
    definition.name ∈ identifiers tokens := by
  unfold parseDefinition at h
  split at h
  · cases h
  · next name position afterName hname =>
    have hreads := expectIdent_eq_ok_iff.mp ⟨position, hname⟩
    split at h
    · cases h
    · split at h
      · cases h
      · cases h
        exact hreads.mem_identifiers (List.mem_singleton_self _)

theorem parseDefinitions_within (seen : List String) (tokens : List Token) :
    Within [] tokens (parseDefinitions seen tokens) := by
  fun_induction parseDefinitions seen tokens with
  | case1 => exact List.suffix_refl _
  | case2 seen tokens _ fault hdefinition =>
    exact (parseDefinition_within tokens).congr hdefinition
  | case3 seen tokens _ definition afterDefinition hdefinition hseen =>
    intro name hname
    rw [ParseError.names, List.mem_singleton] at hname
    rw [hname]
    exact Or.inr (parseDefinition_name hdefinition)
  | case4 seen tokens _ definition afterDefinition hdefinition hseen fault hmore ih =>
    exact (ih.congr hmore).of_suffix ((parseDefinition_within tokens).congr hdefinition)
  | case5 seen tokens _ definition afterDefinition hdefinition hseen definitions left hmore ih =>
    exact (ih.congr hmore).of_suffix ((parseDefinition_within tokens).congr hdefinition)

/-- **An error of the parser quotes identifiers among its tokens.** -/
theorem parseModule_names {fault : ParseError} (h : parseModule tokens = .error fault) :
    ∀ name ∈ fault.names, name ∈ identifiers tokens := by
  -- at each stage, what is left is an end of the tokens
  have hstage : ∀ {expected : Expected} {left : List Token}, left <:+ tokens →
      ∀ name ∈ (unexpected expected left).names, name ∈ identifiers tokens :=
    fun hleft name hname =>
      identifiers_subset_of_suffix hleft (unexpected_names _ _ hname)
  unfold parseModule at h
  split at h
  · next hkeyword =>
    cases h
    rw [expect_eq_error hkeyword]
    exact hstage (List.suffix_refl _)
  next afterKeyword hkeyword =>
  have hkeyword := (expect_eq_ok_iff.mp hkeyword).suffix
  split at h
  · next hname =>
    cases h
    rw [expectIdent_eq_error hname]
    exact hstage hkeyword
  next name position afterName hname =>
  have hname := (expectIdent_eq_ok_iff.mp ⟨position, hname⟩).suffix.trans hkeyword
  split at h
  · next hopen =>
    cases h
    rw [expect_eq_error hopen]
    exact hstage hname
  next afterBrace hopen =>
  have hopen := (expect_eq_ok_iff.mp hopen).suffix.trans hname
  have hwithin := (parseDefinitions_within [] afterBrace).of_suffix hopen
  split at h
  · next htypes =>
    cases h
    exact fun name hname => (hwithin.congr htypes name hname).resolve_left List.not_mem_nil
  next types afterTypes htypes =>
  have htypes : afterTypes <:+ tokens := hwithin.congr htypes
  split at h
  · next hclose =>
    cases h
    rw [expect_eq_error hclose]
    exact hstage htypes
  next afterClose hclose =>
  have hclose := (expect_eq_ok_iff.mp hclose).suffix.trans htypes
  split at h
  · next hend =>
    cases h
    rw [expect_eq_error hend]
    exact hstage hclose
  · cases h

end Tokens

/-! ## Sources -/

/-- The identifiers among the tokens of a source are identifiers. -/
theorem identifier_of_tokenize {source : String} {tokens : List Token}
    (h : tokenize source = .ok tokens) {name : String} (hname : name ∈ identifiers tokens) :
    Identifier name.toList := by
  obtain ⟨front, last, rfl, hend, -⟩ := Cursor.tokens_end h
  have hkinds : (front ++ [last]).map Token.kind = front.map Token.kind ++ [.eof] := by
    rw [List.map_append, List.map_singleton, hend]
  rw [mem_identifiers_iff, hkinds, List.mem_append, List.mem_singleton] at hname
  exact writable_of_tokenize h hkinds _ (hname.resolve_right nofun)

/-- **An error of the parser quotes identifiers only.** -/
theorem identifier_of_parse_error {source : String} {fault : ParseError}
    (h : parse source = .error fault) {name : String} (hname : name ∈ fault.names) :
    Identifier name.toList := by
  rw [parse] at h
  cases htokens : tokenize source with
  | error cause =>
    rw [htokens] at h
    cases h
    cases hname
  | ok tokens =>
    rw [htokens] at h
    exact identifier_of_tokenize htokens (parseModule_names h name hname)

end ReaderGen.Notation
