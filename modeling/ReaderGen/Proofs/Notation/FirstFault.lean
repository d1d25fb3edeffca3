import ReaderGen.Proofs.Notation.Traces

/-!
# ReaderGen.Proofs.Notation.FirstFault -- what a fault of the parser points at

The parser points at **the first token that no module can have there** (`parse_error_first_fault`):
with the kinds before the token a module can begin, and with its own kind behind them none can. At a
name that comes twice the source could still be gone on with, and what is pointed at is the first
repetition: of a field in its list, or of a definition in the module.
-/

namespace ReaderGen.Notation

open State

/-! ## The end of a definition -/

section Ends

variable {part last : Part} {tokens rest : List Token} {definition other : Definition}

/-- The kinds of a right-hand side; none of them begins or ends a definition. -/
def TokenKind.InBody (kind : TokenKind) : Prop := kind ≠ .equals ∧ kind ≠ .closeBrace

theorem inBody_of_mem_fieldList {fields : List Field} {kind : TokenKind}
    (h : kind ∈ fieldListKinds fields) : kind.InBody := by
  rcases List.mem_cons.mp h with rfl | hitems
  · exact ⟨by simp, by simp⟩
  · rcases List.mem_append.mp hitems with hfields | hclose
    · have hkind := inFields_of_mem_fields hfields
      constructor <;> rintro rfl <;> exact hkind
    · rw [List.mem_singleton.mp hclose]
      exact ⟨by simp, by simp⟩

theorem inBody_of_mem_attributes {attributes : List Field} {kind : TokenKind}
    (h : kind ∈ attributeKinds attributes) : kind.InBody := by
  rw [attributeKinds] at h
  split at h
  · cases h
  · rcases List.mem_cons.mp h with rfl | hlist
    · exact ⟨by simp, by simp⟩
    · exact inBody_of_mem_fieldList hlist

theorem inBody_of_mem_variant {variant : Constructor} {kind : TokenKind}
    (h : kind ∈ variant.kinds) : kind.InBody := by
  rcases List.mem_cons.mp h with rfl | hfields
  · exact ⟨by simp, by simp⟩
  · split at hfields
    · cases hfields
    · exact inBody_of_mem_fieldList hfields

theorem inBody_of_mem_body {content : Body} {kind : TokenKind} (h : kind ∈ content.kinds) :
    kind.InBody := by
  cases content with
  | product record =>
    exact (List.mem_append.mp h).elim inBody_of_mem_fieldList inBody_of_mem_attributes
  | sum choice =>
    rcases List.mem_append.mp h with hvariants | hattributes
    · rcases of_mem_intercalate hvariants with hpipe | ⟨_, hmem, hkind⟩
      · rw [List.mem_singleton.mp hpipe]
        exact ⟨by simp, by simp⟩
      · obtain ⟨variant, -, rfl⟩ := List.mem_map.mp hmem
        exact inBody_of_mem_variant hkind
    · exact inBody_of_mem_attributes hattributes

theorem exists_of_begins {kind : TokenKind} {kinds : List TokenKind}
    (h : kind :: kinds <+: rest.map Token.kind) :
    ∃ position after, rest = ⟨kind, position⟩ :: after ∧ kinds <+: after.map Token.kind := by
  cases rest with
  | nil => exact absurd (List.prefix_nil.mp h) (List.cons_ne_nil _ _)
  | cons token after =>
    obtain ⟨rfl, hafter⟩ := List.cons_prefix_cons.mp h
    exact ⟨token.position, after, rfl, hafter⟩

/-- What is left behind a definition does not go on with its right-hand side. -/
theorem Stops.run_ne {kind : TokenKind} {kinds : List TokenKind} (h : Stops part rest)
    (hbegins : kind :: kinds <+: rest.map Token.kind)
    (hbody : ∀ inner ∈ kind :: kinds, inner.InBody) :
    (behind part).run (kind :: kinds) ≠ some (behind last) := by
  intro hrun
  obtain ⟨position, after, rfl, hafter⟩ := exists_of_begins hbegins
  obtain ⟨next, hstep, hnext⟩ := run_cons_eq_some_iff.mp hrun
  rw [List.forall_mem_cons] at hbody
  by_cases hident : ∃ name, kind = .ident name
  · -- a name is that of the next definition, and needs an equals sign
    obtain ⟨name, rfl⟩ := hident
    obtain ⟨other, hother, -, hequals, hnone⟩ := h.step_name
    rw [hother] at hstep
    cases hstep
    cases kinds with
    | nil =>
      cases hnext
      cases last <;> cases hequals
    | cons second kinds =>
      obtain ⟨place, rest, rfl, -⟩ := exists_of_begins hafter
      obtain ⟨_, hsecond, -⟩ := run_cons_eq_some_iff.mp hnext
      have hequals : second ≠ .equals := (hbody.2 second List.mem_cons_self).1
      exact Option.some_ne_none _ (hsecond.symm.trans (hnone hequals))
  · have hnone := h.step_eq_none (fun name hname => hident ⟨name, hname⟩) hbody.1.2
    exact Option.some_ne_none _ (hstep.symm.trans hnone)

/-- **No definition is longer than the one that was read.** -/
theorem Stops.length_le {state : State} (h : Stops part rest)
    (hpasses : Passes state (behind part) definition.kinds tokens rest)
    (hrun : state.run other.kinds = some (behind last))
    (hbegins : other.kinds <+: tokens.map Token.kind) :
    other.kinds.length ≤ definition.kinds.length := by
  obtain ⟨run, rfl, hkinds⟩ := hpasses.reads
  rw [List.map_append, hkinds] at hbegins
  by_contra hlt
  obtain ⟨more, hmore⟩ : definition.kinds <+: other.kinds :=
    List.prefix_of_prefix_length_le (List.prefix_append _ _) hbegins (by omega)
  cases more with
  | nil => exact hlt (Nat.le_of_eq (by rw [← hmore, List.append_nil]))
  | cons kind kinds =>
    rw [← hmore, List.prefix_append_right_inj] at hbegins
    rw [← hmore, run_append_of_run hpasses.run] at hrun
    refine h.run_ne hbegins ?_ hrun
    -- behind the name and the equals sign, the kinds are those of the longer right-hand side
    have hbody : definition.body.kinds ++ kind :: kinds = other.body.kinds :=
      (List.cons.inj (List.cons.inj hmore).2).2
    intro inner hinner
    exact inBody_of_mem_body (hbody ▸ List.mem_append_right _ hinner)

end Ends

/-! ## The first fault -/

/-- The kinds of a module up to the last of these definitions. -/
def openModuleKinds (schemaName : String) (definitions : List Definition) : List TokenKind :=
  .ident "module" :: .ident schemaName :: .openBrace :: definitions.flatMap Definition.kinds

/-- The token in front of `after` is the first that can not stand where it does. -/
def FirstUnexpected (tokens : List Token) (found : TokenKind) (position : Position) : Prop :=
  ∃ kinds after, Reads kinds tokens (⟨found, position⟩ :: after) ∧ Viable kinds ∧
    ¬ Viable (kinds ++ [found])

/-- The token in front of `after` is the name of a field, and the first that comes twice in a list
of fields. -/
def FirstRepeatedField (tokens : List Token) (field : String) (position : Position) : Prop :=
  ∃ kinds after, Reads kinds tokens (⟨.ident field, position⟩ :: after) ∧
    Viable (kinds ++ [.ident field]) ∧ RepeatsField (kinds ++ [.ident field]) field

/-- The token in front of `after` is the name of a definition, and the first that comes twice. The
definition goes on as far as one can there. -/
def FirstRepeatedType (tokens : List Token) (name : String) (position : Position) : Prop :=
  ∃ schemaName definitions, ∃ definition : Definition, ∃ after rest,
    Reads (openModuleKinds schemaName definitions) tokens (⟨.ident name, position⟩ :: after) ∧
    Reads definition.kinds (⟨.ident name, position⟩ :: after) rest ∧
    (∀ other : Definition, other.body.HasParts →
      other.kinds <+: .ident name :: after.map Token.kind →
        other.kinds.length ≤ definition.kinds.length) ∧
    (definitions.map Definition.name).Nodup ∧ name ∈ definitions.map Definition.name ∧
    Viable (openModuleKinds schemaName definitions ++ definition.kinds)

/-- What a fault of the parser says about the tokens. -/
def FirstFault (tokens : List Token) : ParseError → Prop
  | .lex _ => False
  | .unexpected _ found position => FirstUnexpected tokens found position
  | .duplicateField _ field position => FirstRepeatedField tokens field position
  | .duplicateType name position => FirstRepeatedType tokens name position

section Faults

variable {state next : State} {kinds : List TokenKind} {tokens rest : List Token}
  {fault : ParseError}

theorem step_eof (h : state.step .eof = some next) : next = .done := by
  cases state with
  | ending =>
    cases h
    rfl
  | behind part => cases part <;> cases h
  | _ => cases h

/-- The end of the source is taken last. -/
theorem eof_not_mem_of_run (h : state.run kinds = some next) (hnext : next ≠ .done) :
    .eof ∉ kinds := by
  induction kinds generalizing state with
  | nil => exact List.not_mem_nil
  | cons kind kinds ih =>
    obtain ⟨middle, hstep, hrun⟩ := run_cons_eq_some_iff.mp h
    intro hmem
    rcases List.mem_cons.mp hmem with rfl | hmem
    · obtain rfl := step_eof hstep
      cases kinds with
      | nil => exact hnext (Option.some.inj hrun).symm
      | cons kind kinds => cases hrun
    · exact ih hrun hmem

theorem exists_token (hend : .eof ∈ tokens.map Token.kind) (hreads : Reads kinds tokens rest)
    (hrun : state.run kinds = some next) (hnext : next ≠ .done) :
    ∃ token after, rest = token :: after := by
  cases rest with
  | cons token after => exact ⟨token, after, rfl⟩
  | nil =>
    obtain ⟨run, rfl, rfl⟩ := hreads
    rw [List.append_nil] at hend
    exact absurd hend (eof_not_mem_of_run hrun hnext)

theorem Blames.firstFault (h : Blames start tokens fault) (hend : .eof ∈ tokens.map Token.kind) :
    FirstFault tokens fault := by
  rcases h with ⟨kinds, rest, expected, next, hreads, hrun, hdone, hstep, rfl⟩ |
    ⟨kinds, rest, owner, field, position, next, hreads, hrun, hrepeats, rfl⟩
  · obtain ⟨token, after, rfl⟩ := exists_token hend hreads hrun hdone
    exact ⟨kinds, after, hreads, viable_of_run hrun, not_viable_of_step hrun hstep⟩
  · exact ⟨kinds, rest, hreads, viable_of_run hrun, hrepeats⟩

theorem RepeatsType.firstFault {schemaName : String} (h : RepeatsType [] .whole rest fault)
    (hfront : Passes start (behind .whole) (openModuleKinds schemaName []) tokens rest) :
    FirstFault tokens fault := by
  obtain ⟨definitions, definition, middle, left, next, last, hothers, hdefinition, hstops, hrepeat,
    rfl⟩ := h
  have hbefore : Passes start (behind next) (openModuleKinds schemaName definitions) tokens
      middle := hfront.append hothers
  obtain ⟨position, after, rfl, -⟩ := reads_cons_iff.mp hdefinition.reads
  refine ⟨schemaName, definitions, definition, after, left, hbefore.reads, hdefinition.reads, ?_,
    hrepeat.fresh.distinct, hrepeat.mem,
    viable_of_run (hbefore.append hdefinition).run⟩
  intro other hparts hbegins
  obtain ⟨last, hrun⟩ := run_definition next hparts
  exact hstops.length_le hdefinition hrun hbegins

/-- What the parser reports of tokens that have an end. -/
theorem parseModule_first_fault (hend : .eof ∈ tokens.map Token.kind)
    (h : parseModule tokens = .error fault) : FirstFault tokens fault := by
  unfold parseModule at h
  split at h
  · next hkeyword =>
    cases h
    have hstep := start_step_eq_none (kind_of_expect_error hkeyword (by simp))
    rw [expect_eq_error hkeyword]
    exact (blames_unexpected hstep (by simp)).firstFault hend
  next afterKeyword hkeyword =>
  obtain ⟨place, rfl⟩ := expect_eq_ok hkeyword
  have hmodule : Passes start moduleName [.ident "module"]
      (⟨.ident "module", place⟩ :: afterKeyword) afterKeyword := passes_nil.cons rfl (by simp)
  split at h
  · next hname =>
    cases h
    have hstep := TakesName.moduleName.step_eq_none (kind_of_expectIdent_error hname)
    rw [expectIdent_eq_error hname]
    exact ((blames_unexpected hstep (by simp)).of_passes hmodule).firstFault hend
  next name position afterName hname =>
  obtain rfl := expectIdent_eq_ok hname
  have hnamed : Passes moduleName openBrace [.ident name] (⟨.ident name, position⟩ :: afterName)
      afterName := passes_nil.cons rfl (by simp)
  split at h
  · next hopen =>
    cases h
    have hstep := openBrace_step_eq_none (kind_of_expect_error hopen (by simp))
    rw [expect_eq_error hopen]
    exact ((blames_unexpected hstep (by simp)).of_passes (hmodule.append hnamed)).firstFault hend
  next afterBrace hopen =>
  obtain ⟨spot, rfl⟩ := expect_eq_ok hopen
  have hopened : Passes openBrace (behind .whole) [.openBrace] (⟨.openBrace, spot⟩ :: afterBrace)
      afterBrace := passes_nil.cons rfl (by simp)
  have hfront : Passes start (behind .whole) (openModuleKinds name []) _ afterBrace :=
    hmodule.append (hnamed.append hopened)
  split at h
  · next htypes =>
    cases h
    rcases parseDefinitions_eq_error (stops_whole afterBrace) htypes with hblames | hrepeats
    · exact (hblames.of_passes hfront).firstFault hend
    · exact hrepeats.firstFault hfront
  next types afterTypes htypes =>
  obtain ⟨hreads, hbrace, -, hbodies⟩ := parseDefinitions_sound htypes
  split at h
  · next hclose => exact absurd hbrace (kind_of_expect_error hclose (by simp))
  next afterClose hclose =>
  split at h
  · next hlast =>
    cases h
    -- behind the closing brace the tokens still hold their end, and nothing else may stand there
    have hall : Reads (Schema.kinds ⟨name, types⟩) _ afterClose :=
      hfront.reads.append (hreads.append (expect_eq_ok_iff.mp hclose))
    have hrun : start.run (Schema.kinds ⟨name, types⟩) = some ending :=
      run_schema fun definition hmem => (hbodies definition hmem).hasParts
    obtain ⟨token, after, rfl⟩ := exists_token hend hall hrun (by simp)
    have hstep := ending_step_eq_none (kind_of_expect_error hlast (by simp))
    rw [expect_eq_error hlast]
    exact Blames.firstFault (Or.inl ((jams_unexpected hstep (by simp)).of_reads hall hrun)) hend
  · cases h

theorem exists_tokens {source : String} (h : (tokenize source).isOk = true) :
    ∃ tokens, tokenize source = .ok tokens := by
  cases htokens : tokenize source with
  | ok tokens => exact ⟨tokens, rfl⟩
  | error cause =>
    rw [htokens] at h
    cases h

/-- **The parser points at the first fault.** -/
theorem parse_error_first_fault {source : String}
    (htokens : tokenize source = .ok tokens) (h : parse source = .error fault) :
    FirstFault tokens fault := by
  rw [parse, htokens] at h
  obtain ⟨front, last, rfl, hlast, -⟩ := Cursor.tokens_end htokens
  refine parseModule_first_fault ?_ h
  rw [List.map_append, List.map_singleton, hlast]
  exact List.mem_append_right _ (List.mem_singleton_self _)

/-- A constructor that is missing, a field that comes twice, and a definition that does. -/
theorem first_faults_of_sources :
    (∃ tokens, tokenize "module m \x7b t = A | \x7d" = .ok tokens ∧
      FirstFault tokens (.unexpected .constructorName .closeBrace ⟨1, 20⟩)) ∧
    (∃ tokens, tokenize "module m \x7b t = (int x, int* x) \x7d" = .ok tokens ∧
      FirstFault tokens (.duplicateField "t" "x" ⟨1, 29⟩)) ∧
    ∃ tokens, tokenize "module m \x7b t = A attributes (int x) t = B \x7d" = .ok tokens ∧
      FirstFault tokens (.duplicateType "t" ⟨1, 37⟩) := by
  obtain ⟨first, hfirst⟩ := exists_tokens
    (show (tokenize "module m \x7b t = A | \x7d").isOk = true by decide +kernel)
  obtain ⟨second, hsecond⟩ := exists_tokens
    (show (tokenize "module m \x7b t = (int x, int* x) \x7d").isOk = true by decide +kernel)
  obtain ⟨third, hthird⟩ := exists_tokens
    (show (tokenize "module m \x7b t = A attributes (int x) t = B \x7d").isOk = true by
      decide +kernel)
  exact ⟨⟨first, hfirst, parse_error_first_fault hfirst (by decide +kernel)⟩,
    ⟨second, hsecond, parse_error_first_fault hsecond (by decide +kernel)⟩,
    ⟨third, hthird, parse_error_first_fault hthird (by decide +kernel)⟩⟩

end Faults

end ReaderGen.Notation
