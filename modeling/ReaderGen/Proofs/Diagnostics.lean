import Mathlib
import ReaderGen.Proofs.CommandLine
import ReaderGen.Proofs.Layout.Faults
import ReaderGen.Proofs.Notation.Errors

/-!
# ReaderGen.Proofs.Diagnostics -- a run prints its text, or one line

A run either prints the whole text of its request and exits with zero, or prints nothing but a
diagnostic and exits with one. A diagnostic quotes what it is about: arguments, characters and
lines of the source, names of the schema. **It is one line whenever the names that a fault of the
schema quotes are** (`allOrNothing_iff`): stray characters and lines that cannot be wrapped are
escaped, and the parser quotes identifiers, but a fault of the schema writes its names as they
stand.

The names of a schema in the notation are identifiers, so only a schema in YAML can break a line.
-/

namespace ReaderGen

/-! ## Texts on one line -/

/-- The text has no line end. -/
def OneLine (text : String) : Prop := '\n' ∉ text.toList

instance (text : String) : Decidable (OneLine text) := inferInstanceAs (Decidable (_ ∉ _))

theorem oneLine_append {front back : String} :
    OneLine (front ++ back) ↔ OneLine front ∧ OneLine back := by
  simp [OneLine]

theorem oneLine_of_identifier {name : String} (h : Notation.Identifier name.toList) :
    OneLine name :=
  h.not_mem (by decide)

theorem newline_not_mem_toDigits {base : Nat} (hbase : 1 < base) (n : Nat) :
    '\n' ∉ Nat.toDigits base n := by
  induction n using Nat.strongRecOn with
  | ind n ih =>
    rw [Nat.toDigits_eq_if hbase]
    split
    · simp
    · next hlarge =>
      have hrest := ih (n / base) (Nat.div_lt_self (by omega) hbase)
      simp [hrest]

theorem oneLine_toString (n : Nat) : OneLine (toString n) := by
  rw [OneLine, Nat.toString_eq_ofList_toDigits, String.toList_ofList]
  exact newline_not_mem_toDigits (by decide) n

theorem newline_not_mem_escape {delimiter : Char} (hdelimiter : delimiter ≠ '\n') (c : Char) :
    '\n' ∉ Text.escape delimiter c := by
  unfold Text.escape
  split_ifs with hbackslash hzero htab hreturn hnewline hvisible
  · -- what gets a backslash is the delimiter or a backslash
    rcases hbackslash with rfl | rfl
    · simpa using hdelimiter.symm
    · decide
  · decide
  · decide
  · decide
  · decide
  · simpa using Ne.symm hnewline
  · have hdigits : '\n' ∉ Nat.toDigits 16 c.toNat := newline_not_mem_toDigits (by decide) _
    simp [Text.hexDigits, hdigits]

/-- A quoted text is one line, whatever it holds. -/
theorem oneLine_quote {delimiter : Char} (hdelimiter : delimiter ≠ '\n') (text : List Char) :
    OneLine (Text.quote delimiter text) := by
  have htext : '\n' ∉ text.flatMap (Text.escape delimiter) := by
    rw [List.mem_flatMap]
    rintro ⟨c, -, hc⟩
    exact newline_not_mem_escape hdelimiter c hc
  simp [OneLine, Text.quote, htext, hdelimiter.symm]

theorem oneLine_firstLine (text : String) : OneLine (CommandLine.firstLine text) := by
  rw [OneLine, CommandLine.firstLine, String.toList_ofList, List.mem_reverse]
  intro hmem
  have hline := List.mem_reverse.mp ((List.dropWhile_suffix _).subset hmem)
  have hkept := List.all_takeWhile (p := (· ≠ '\n')) (l := text.toList)
  simpa using List.all_eq_true.mp hkept _ hline

/-! ## Diagnostics -/

namespace Notation

theorem Position.oneLine_text (position : Position) : OneLine position.text := by
  simp only [Position.text, oneLine_append]
  exact ⟨⟨oneLine_toString _, by simp [OneLine]⟩, oneLine_toString _⟩

theorem TokenKind.oneLine_describe {kind : TokenKind}
    (h : ∀ name, kind = .ident name → OneLine name) : OneLine kind.describe := by
  cases kind with
  | ident name =>
    simp only [describe, oneLine_append, h name rfl, and_true]
    simp [OneLine]
  | _ => simp [OneLine, describe, spelling]

theorem Expected.oneLine_describe (expected : Expected) : OneLine expected.describe := by
  cases expected <;> simp [OneLine, describe]

/-- A diagnostic of the parser is one line if the names in it are. -/
theorem ParseError.oneLine_message {fault : ParseError}
    (h : ∀ name ∈ fault.names, OneLine name) : OneLine fault.message := by
  cases fault with
  | lex cause =>
    have hquote : OneLine (Text.quoteChar cause.ch) := oneLine_quote (by decide) _
    unfold message LexError.message
    simp only [oneLine_append]
    exact ⟨⟨⟨by simp [OneLine], hquote⟩, by simp [OneLine]⟩, Position.oneLine_text _⟩
  | unexpected expected found position =>
    have hfound : OneLine found.describe := by
      apply TokenKind.oneLine_describe
      rintro name rfl
      exact h name (by simp [names, TokenKind.name?])
    unfold message
    simp only [oneLine_append, hfound, Expected.oneLine_describe, Position.oneLine_text, and_true]
    simp [OneLine]
  | duplicateType name position =>
    have hname := h name (by simp [names])
    unfold message
    simp only [oneLine_append, hname, Position.oneLine_text, and_true]
    simp [OneLine]
  | duplicateField owner field position =>
    have howner := h owner (by simp [names])
    have hfield := h field (by simp [names])
    unfold message
    simp only [oneLine_append, howner, hfield, Position.oneLine_text, and_true]
    simp [OneLine]

end Notation

/-- The names that a fault of a schema writes, in the order of its diagnostic. -/
def BuildError.names : BuildError → List String
  | .resolve (.duplicateType typeName) => [typeName]
  | .resolve (.unknownType owner field typeName) => [typeName, field, owner]
  | .nonBuiltinAttribute owner name typeName => [name, owner, typeName]
  | .tooManyConstructors typeName _ => [typeName]
  | .optionalSequence owner field => [field, owner]

/-- A fault of a schema is one line exactly if the names in it are: it writes them as they
stand. -/
theorem BuildError.oneLine_message_iff {fault : BuildError} :
    OneLine fault.message ↔ ∀ name ∈ fault.names, OneLine name := by
  cases fault with
  | resolve cause =>
    cases cause with
    | duplicateType typeName =>
      unfold message ResolveError.message
      simp only [names, oneLine_append, List.forall_mem_singleton]
      simp [OneLine]
    | unknownType owner field typeName =>
      unfold message ResolveError.message
      simp only [names, oneLine_append, List.forall_mem_cons]
      simp [OneLine, and_assoc]
  | nonBuiltinAttribute owner name typeName =>
    unfold message
    simp only [names, oneLine_append, List.forall_mem_cons]
    simp [OneLine, and_assoc]
  | tooManyConstructors typeName count =>
    have hcount : '\n' ∉ Nat.toDigits 10 count := newline_not_mem_toDigits (by decide) count
    unfold message
    simp only [names, oneLine_append, List.forall_mem_singleton]
    simp [OneLine, hcount]
  | optionalSequence owner field =>
    unfold message
    simp only [names, oneLine_append, List.forall_mem_cons]
    simp [OneLine]

theorem EncodingError.oneLine_message (fault : EncodingError) : OneLine fault.message := by
  cases fault with
  | unsupportedAlignment alignment =>
    unfold message
    simp only [oneLine_append]
    exact ⟨⟨by simp [OneLine], oneLine_toString _⟩, by simp [OneLine]⟩
  | unsupportedRefWidth refWidth =>
    unfold message
    simp only [oneLine_append]
    exact ⟨⟨by simp [OneLine], oneLine_toString _⟩, by simp [OneLine]⟩

theorem Reflow.Unbreakable.oneLine_message (fault : Reflow.Unbreakable) :
    OneLine fault.message := by
  have hline : OneLine (Text.quoteLine fault.line) := oneLine_quote (by decide) _
  unfold message
  simp only [oneLine_append]
  exact ⟨⟨⟨by simp [OneLine], oneLine_toString _⟩, by simp [OneLine]⟩, hline⟩

/-! ## Faults of a schema in the notation -/

namespace Layout

theorem mem_faultUnless {condition : Prop} [Decidable condition] {fault cause : BuildError}
    (h : cause ∈ faultUnless condition fault) : cause = fault := by
  unfold faultUnless at h
  split at h
  · cases h
  · exact List.mem_singleton.mp h

theorem exists_definition_of_repeatedNames {used : List String} {definitions : List Definition}
    {cause : BuildError} (h : cause ∈ repeatedNames used definitions) :
    ∃ definition ∈ definitions, cause = .resolve (.duplicateType definition.name) := by
  induction definitions generalizing used with
  | nil => cases h
  | cons definition rest ih =>
    rcases List.mem_append.mp h with hfirst | hrest
    · exact ⟨definition, List.mem_cons_self .., mem_faultUnless hfirst⟩
    · obtain ⟨other, hother, heq⟩ := ih hrest
      exact ⟨other, List.mem_cons_of_mem _ hother, heq⟩

/-- The fields of a definition stand in its notation, and so do the names of their owners. -/
theorem ownedFields_kinds {definition : Definition} {owned : String × Field}
    (h : owned ∈ definition.ownedFields) :
    .ident owned.1 ∈ definition.kinds ∧ owned.2.kinds ⊆ definition.kinds := by
  obtain ⟨name, body⟩ := definition
  have hbody := Definition.body_kinds_subset ⟨name, body⟩
  cases body with
  | sum choice =>
    obtain ⟨variant, hvariant, hin⟩ := List.mem_flatMap.mp h
    obtain ⟨field, hfield, rfl⟩ := List.mem_map.mp hin
    have hkinds : variant.kinds ⊆ Body.kinds (.sum choice) :=
      fun _ hkind => List.mem_append_left _ (Constructor.kinds_subset hvariant hkind)
    exact ⟨hbody (hkinds (List.mem_cons_self ..)),
      fun _ hkind => hbody (hkinds (Field.kinds_subset_variant hfield hkind))⟩
  | product record =>
    obtain ⟨field, hfield, rfl⟩ := List.mem_map.mp h
    refine ⟨List.mem_cons_self .., List.Subset.trans ?_ hbody⟩
    exact fun _ hkind => List.mem_append_left _ (Field.kinds_subset hfield hkind)

theorem attributes_kinds {definition : Definition} {field : Field}
    (h : field ∈ definition.body.attributes) : field.kinds ⊆ definition.kinds := by
  obtain ⟨name, body⟩ := definition
  refine List.Subset.trans ?_ (Definition.body_kinds_subset ⟨name, body⟩)
  cases body with
  | sum choice =>
    exact fun _ hkind => List.mem_append_right _ (Field.kinds_subset_attributes h hkind)
  | product record =>
    exact fun _ hkind => List.mem_append_right _ (Field.kinds_subset_attributes h hkind)

/-- **A fault of a schema quotes names that the notation of the schema writes.** -/
theorem faults_names {schema : Schema} {cause : BuildError} (h : cause ∈ faults schema) :
    ∀ name ∈ cause.names, .ident name ∈ schema.kinds := by
  rcases List.mem_append.mp h with hrepeated | hdefinition
  · obtain ⟨definition, hmem, rfl⟩ := exists_definition_of_repeatedNames hrepeated
    intro name hname
    rw [List.mem_singleton.mp hname]
    exact definition.kinds_subset hmem (List.mem_cons_self ..)
  · obtain ⟨definition, hmem, hcause⟩ := List.mem_flatMap.mp hdefinition
    suffices hkinds : ∀ name ∈ cause.names, .ident name ∈ definition.kinds from
      fun name hname => definition.kinds_subset hmem (hkinds name hname)
    have hown : .ident definition.name ∈ definition.kinds := List.mem_cons_self ..
    have hfieldNames : ∀ {field : Field}, field.kinds ⊆ definition.kinds →
        .ident field.name ∈ definition.kinds ∧ .ident field.typeName ∈ definition.kinds :=
      fun hkinds => ⟨hkinds (ident_name_mem_kinds _), hkinds (List.mem_cons_self ..)⟩
    rcases List.mem_append.mp hcause with hcount | hrest
    · rw [mem_faultUnless hcount]
      simpa [BuildError.names] using hown
    rcases List.mem_append.mp hrest with hattribute | hfield
    · obtain ⟨field, hin, hcause⟩ := List.mem_flatMap.mp hattribute
      obtain ⟨hname, htype⟩ := hfieldNames (attributes_kinds hin)
      rw [mem_faultUnless hcause]
      simpa [BuildError.names] using ⟨hname, hown, htype⟩
    · obtain ⟨owned, hin, hcause⟩ := List.mem_flatMap.mp hfield
      obtain ⟨howner, hkinds⟩ := ownedFields_kinds hin
      obtain ⟨hname, htype⟩ := hfieldNames hkinds
      rcases List.mem_append.mp hcause with hmarks | hunknown
      · rw [mem_faultUnless hmarks]
        simpa [BuildError.names] using ⟨hname, howner⟩
      · rw [mem_faultUnless hunknown]
        simpa [BuildError.names] using ⟨htype, hname, howner⟩

/-- The builder's fault is one of the faults of the schema. -/
theorem mem_faults_of_build_error {schema : Schema} {encoding : Encoding} {cause : BuildError}
    (h : build schema encoding = .error cause) : cause ∈ faults schema := by
  have hverdict := build_outcome schema encoding
  rw [outcome_eq_error_iff.mpr h] at hverdict
  exact List.mem_of_mem_head? (verdict_eq_error_iff.mp hverdict.symm)

end Layout

/-! ## Requests -/

variable {explain : String → String}

theorem ReaderError.oneLine_invalid_iff {schemaName : String} {cause : BuildError} :
    OneLine (ReaderError.invalid schemaName cause).message ↔
      ∀ name ∈ schemaName :: cause.names, OneLine name := by
  unfold message
  simp only [oneLine_append, BuildError.oneLine_message_iff, List.forall_mem_cons]
  simp [OneLine]

/-- Why a text is no schema is told on one line, also where the text is not on one, if the YAML
library tells it on one. -/
theorem SchemaError.oneLine_message {format : SchemaFormat} {source : String} {fault : SchemaError}
    (hexplain : ∀ source, OneLine (explain source))
    (h : readSchema explain format source = .error fault) : OneLine fault.message := by
  cases format with
  | asdl =>
    obtain ⟨cause, hparse, rfl⟩ := mapError_eq_error_iff.mp h
    exact cause.oneLine_message fun name hname =>
      oneLine_of_identifier (Notation.identifier_of_parse_error hparse hname)
  | yaml =>
    rw [readSchema] at h
    split at h
    · cases h
    · cases h
      unfold message
      simp only [oneLine_append, hexplain source, and_true]
      simp [OneLine]

/-- A file that gives no schema is reported on one line, if its path and the reason why it cannot
be read are on one. -/
theorem LoadError.oneLine_message {path : String} {text : Except ReadError String}
    {fault : LoadError} (hpath : OneLine path)
    (htext : ∀ cause, text = .error cause → OneLine cause.message)
    (hexplain : ∀ source, OneLine (explain source))
    (h : loadSchema explain path text = .error fault) : OneLine fault.message := by
  cases text with
  | error cause =>
    cases h
    have hcause := htext cause rfl
    unfold message
    simp only [oneLine_append, hpath, hcause, and_true]
    simp [OneLine]
  | ok source =>
    obtain ⟨cause, hread, rfl⟩ := mapError_eq_error_iff.mp h
    have hcause := SchemaError.oneLine_message hexplain hread
    unfold message
    simp only [oneLine_append, hpath, hcause, and_true]
    simp [OneLine]

theorem Request.schemaPath?_ne_reader {request : Request} {cause : ReaderError} :
    request.schemaPath? ≠ .error (.reader cause) := by
  unfold schemaPath?
  split <;> exact nofun

theorem Request.schemaPath_of_eq_ok {request : Request} {path : String}
    (h : request.schemaPath? = .ok path) : request.schemaPath = some path := by
  unfold schemaPath? at h
  split at h
  · cases h
  · next hpath =>
    cases h
    exact hpath
  · cases h
  · cases h

/-- A request without a path to go on with is reported on one line, if its action is on one. -/
theorem Request.oneLine_of_schemaPath_error {request : Request} {fault : RequestError}
    (haction : ∀ action, request.action = some action → OneLine action)
    (h : request.schemaPath? = .error fault) : OneLine fault.message := by
  unfold schemaPath? at h
  split at h
  · cases h
    unfold RequestError.message
    simp [OneLine]
  · cases h
  · cases h
    unfold RequestError.message
    simp [OneLine]
  · next action hsome _ _ =>
    cases h
    have hline := haction action hsome
    unfold RequestError.message
    simp only [oneLine_append, hline, and_true]
    simp [OneLine]

/-- A request fails at one of its four stages. -/
theorem Request.run_eq_error {request : Request} {read : String → Except ReadError String}
    {fault : RequestError} (h : request.run read explain = .error fault) :
    request.schemaPath? = .error fault ∨
    (∃ cause, fault = .encoding cause) ∨
    (∃ path cause, request.schemaPath? = .ok path ∧
      loadSchema explain path (read path) = .error cause ∧ fault = .load cause) ∨
    ∃ path encoding schema cause, request.schemaPath? = .ok path ∧
      loadSchema explain path (read path) = .ok schema ∧
      request.output schema encoding = .error cause ∧ fault = .reader cause := by
  unfold run at h
  split at h
  · next hpath =>
    cases h
    exact Or.inl hpath
  next path hpath =>
  split at h
  · cases h
    exact Or.inr (Or.inl ⟨_, rfl⟩)
  next encoding _ =>
  split at h
  · next hload =>
    cases h
    exact Or.inr (Or.inr (Or.inl ⟨path, _, hpath, hload, rfl⟩))
  next schema hload =>
  obtain ⟨cause, houtput, rfl⟩ := mapError_eq_error_iff.mp h
  exact Or.inr (Or.inr (Or.inr ⟨path, encoding, schema, cause, hpath, hload, houtput, rfl⟩))

/-- **What a request without a text reports is one line, unless it writes a name of the schema
that is not.** -/
theorem Request.oneLine_message_iff {request : Request} {read : String → Except ReadError String}
    {fault : RequestError} (haction : ∀ action, request.action = some action → OneLine action)
    (hpath : ∀ path, request.schemaPath = some path → OneLine path)
    (hread : ∀ path cause, read path = .error cause → OneLine cause.message)
    (hexplain : ∀ source, OneLine (explain source))
    (h : request.run read explain = .error fault) :
    OneLine fault.message ↔ ∀ schemaName cause, fault = .reader (.invalid schemaName cause) →
      ∀ name ∈ schemaName :: cause.names, OneLine name := by
  rcases run_eq_error h with hfault | ⟨cause, rfl⟩ | ⟨path, cause, hsome, hload, rfl⟩ |
    ⟨path, encoding, schema, cause, -, -, -, rfl⟩
  · refine iff_of_true (oneLine_of_schemaPath_error haction hfault) ?_
    rintro schemaName cause rfl
    exact absurd hfault schemaPath?_ne_reader
  · exact iff_of_true cause.oneLine_message nofun
  · have hline := LoadError.oneLine_message (hpath path (schemaPath_of_eq_ok hsome)) (hread path)
      hexplain hload
    exact iff_of_true hline nofun
  · cases cause with
    | invalid schemaName cause =>
      have hmessage : OneLine (RequestError.reader (.invalid schemaName cause)).message ↔
          ∀ name ∈ schemaName :: cause.names, OneLine name := ReaderError.oneLine_invalid_iff
      rw [hmessage]
      constructor
      · rintro hnames _ _ ⟨⟩
        exact hnames
      · intro hnames
        exact hnames schemaName cause rfl
    | format cause =>
      have hcause := cause.oneLine_message
      refine iff_of_true ?_ nofun
      unfold RequestError.message ReaderError.message
      simp only [oneLine_append, hcause, and_true]
      simp [OneLine]

theorem Request.output_invalid {request : Request} {schema : Schema} {encoding : Encoding}
    {schemaName : String} {cause : BuildError}
    (h : request.output schema encoding = .error (.invalid schemaName cause)) :
    schemaName = schema.name ∧ Layout.build schema encoding = .error cause := by
  have hlayout : layoutOf schema encoding = .error (.invalid schemaName cause) := by
    cases hlayout : layoutOf schema encoding with
    | error fault =>
      unfold output readerOf at h
      rw [hlayout] at h
      split at h <;> cases h <;> rfl
    | ok layout =>
      -- with a layout, only its lines can be at fault
      unfold output readerOf at h
      rw [hlayout] at h
      split at h
      · cases h
      · obtain ⟨_, -, hformat⟩ := mapError_eq_error_iff.mp h
        cases hformat
  obtain ⟨other, hbuild, heq⟩ := layoutOf_eq_error_iff.mp hlayout
  cases heq
  exact ⟨rfl, hbuild⟩

/-- **The names that are written of an invalid schema in the notation are on one line.** -/
theorem Request.oneLine_of_notation {request : Request}
    {read : String → Except ReadError String} {schemaName : String} {cause : BuildError}
    (hformat : ∀ path, request.schemaPath? = .ok path → SchemaFormat.ofPath path = .asdl)
    (h : request.run read explain = .error (.reader (.invalid schemaName cause))) :
    ∀ name ∈ schemaName :: cause.names, OneLine name := by
  have hstage : ∃ path encoding schema, request.schemaPath? = .ok path ∧
      loadSchema explain path (read path) = .ok schema ∧
      request.output schema encoding = .error (.invalid schemaName cause) := by
    rcases run_eq_error h with hpath | ⟨_, hfault⟩ | ⟨_, _, -, -, hfault⟩ |
      ⟨path, encoding, schema, _, hpath, hload, houtput, hfault⟩
    · exact absurd hpath schemaPath?_ne_reader
    · cases hfault
    · cases hfault
    · cases hfault
      exact ⟨path, encoding, schema, hpath, hload, houtput⟩
  obtain ⟨path, encoding, schema, hpath, hload, houtput⟩ := hstage
  obtain ⟨rfl, hbuild⟩ := output_invalid houtput
  obtain ⟨source, hparse⟩ : ∃ source, Notation.parse source = .ok schema := by
    cases htext : read path with
    | error fault =>
      rw [htext] at hload
      cases hload
    | ok source =>
      rw [htext] at hload
      have hread := mapError_eq_ok_iff.mp hload
      rw [hformat path hpath] at hread
      exact ⟨source, mapError_eq_ok_iff.mp hread⟩
  have hkinds : ∀ name ∈ schema.name :: cause.names, .ident name ∈ schema.kinds := by
    rw [List.forall_mem_cons]
    exact ⟨List.mem_cons_of_mem _ (List.mem_cons_self ..),
      Layout.faults_names (Layout.mem_faults_of_build_error hbuild)⟩
  exact fun name hname =>
    oneLine_of_identifier (Notation.identifier_of_kinds hparse (hkinds name hname))

/-! ## Runs -/

namespace CommandLine

/-- A run ends in one of two ways: it prints the whole text of its request and exits with zero, or
it prints one line, behind the mark of a fatal error, and exits with one. The log that arguments
can ask for is no part of this. -/
def AllOrNothing (args : List String) (read : String → Except ReadError String)
    (explain : String → String) : Prop :=
  (∃ request text, parse args = .ok request ∧ request.run read explain = .ok text ∧
    run args read explain = ⟨0, text, ""⟩) ∨
  ∃ message, OneLine message ∧ run args read explain = ⟨1, "", "FATAL: " ++ message ++ "\n"⟩

theorem failure_eq_iff {message other : String} :
    Outcome.failure message = ⟨1, "", "FATAL: " ++ other ++ "\n"⟩ ↔ message = other := by
  constructor
  · intro h
    have hstderr := congrArg (fun outcome => outcome.stderr.toList) h
    simp only [Outcome.failure, String.toList_append] at hstderr
    exact String.toList_injective (List.append_cancel_left (List.append_cancel_right hstderr))
  · rintro rfl
    rfl

/-- A failing run is all or nothing exactly if its diagnostic is one line. -/
theorem allOrNothing_failure_iff {args : List String} {read : String → Except ReadError String}
    {message : String} (h : run args read explain = .failure message) :
    AllOrNothing args read explain ↔ OneLine message := by
  constructor
  · rintro (⟨_, text, -, -, hrun⟩ | ⟨other, hline, hrun⟩)
    · rw [h] at hrun
      have hcode : (1 : UInt8) = 0 := congrArg Outcome.exitCode hrun
      exact absurd hcode (by decide)
    · rw [h, failure_eq_iff] at hrun
      rw [hrun]
      exact hline
  · intro hline
    exact Or.inr ⟨message, hline, h⟩

/-- Unless it is asked for help, a run prints the text of its request, or refuses its arguments, or
reports why the request has no text. -/
theorem run_cases {args : List String} (read : String → Except ReadError String)
    (explain : String → String) (hhelp : parse args ≠ .error .help) :
    (∃ request text, parse args = .ok request ∧ request.run read explain = .ok text ∧
      run args read explain = ⟨0, text, ""⟩) ∨
    (∃ refusal, parse args = .error (.usage refusal) ∧
      run args read explain = .failure refusal.message) ∨
    ∃ request fault, parse args = .ok request ∧ request.run read explain = .error fault ∧
      run args read explain = .failure fault.message := by
  unfold run
  cases hparse : parse args with
  | error stop =>
    cases stop with
    | help => exact absurd hparse hhelp
    | usage refusal => exact Or.inr (Or.inl ⟨refusal, rfl, rfl⟩)
  | ok request =>
    cases hrun : request.run read explain with
    | ok text => exact Or.inl ⟨request, text, rfl, hrun, by simp only [hrun]; rfl⟩
    | error fault =>
      exact Or.inr (Or.inr ⟨request, fault, rfl, hrun, by simp only [hrun]; rfl⟩)

/-- **A run is all or nothing, with a diagnostic on one line, exactly if no fault of a schema makes
it write a name with a line end.** So it always is, unless the schema is in YAML; and apart from
line ends it is in any case. The arguments, the reasons why files cannot be read and what the YAML
library tells hold no line end, and help is not asked for. -/
theorem allOrNothing_iff {args : List String} {read : String → Except ReadError String}
    (hargs : ∀ arg ∈ args, OneLine arg)
    (hread : ∀ path cause, read path = .error cause → OneLine cause.message)
    (hexplain : ∀ source, OneLine (explain source))
    (hhelp : parse args ≠ .error .help) :
    (AllOrNothing args read explain ↔
      ∀ request schemaName cause, parse args = .ok request →
        request.run read explain = .error (.reader (.invalid schemaName cause)) →
          ∀ name ∈ schemaName :: cause.names, OneLine name) ∧
    ((∀ path, schemaPath? args = some path → SchemaFormat.ofPath path = .asdl) →
      AllOrNothing args read explain) ∧
    ((∃ request text, parse args = .ok request ∧ request.run read explain = .ok text ∧
        run args read explain = ⟨0, text, ""⟩) ∨
      ∃ message, run args read explain = ⟨1, "", "FATAL: " ++ message ++ "\n"⟩) := by
  have hexact : AllOrNothing args read explain ↔
      ∀ request schemaName cause, parse args = .ok request →
        request.run read explain = .error (.reader (.invalid schemaName cause)) →
          ∀ name ∈ schemaName :: cause.names, OneLine name := by
    rcases run_cases read explain hhelp with ⟨request, text, hparse, htext, hrun⟩ |
      ⟨refusal, hparse, hrun⟩ | ⟨request, fault, hparse, hfault, hrun⟩
    · refine iff_of_true (Or.inl ⟨request, text, hparse, htext, hrun⟩) ?_
      intro other schemaName cause hother hinvalid
      rw [hparse, Except.ok.injEq] at hother
      rw [← hother, htext] at hinvalid
      cases hinvalid
    · rw [allOrNothing_failure_iff hrun]
      refine iff_of_true (oneLine_firstLine _) ?_
      intro other schemaName cause hother
      rw [hparse] at hother
      cases hother
    · have htexts := parse_texts hparse
      have haction : ∀ action, request.action = some action → OneLine action :=
        fun action hsome => hargs action (htexts (by simp [hsome]))
      have hpath : ∀ path, request.schemaPath = some path → OneLine path :=
        fun path hsome => hargs path (htexts (by simp [hsome]))
      rw [allOrNothing_failure_iff hrun,
        Request.oneLine_message_iff haction hpath hread hexplain hfault]
      constructor
      · intro hnames other schemaName cause hother hinvalid
        rw [hparse, Except.ok.injEq] at hother
        rw [← hother, hfault, Except.error.injEq] at hinvalid
        exact hnames schemaName cause hinvalid
      · rintro hnames schemaName cause rfl
        exact hnames request schemaName cause hparse hfault
  refine ⟨hexact, ?_, ?_⟩
  · intro hformat
    rw [hexact]
    intro request schemaName cause hparse hinvalid
    refine Request.oneLine_of_notation (fun path hpath => hformat path ?_) hinvalid
    simp only [schemaPath?, hparse, hpath, Except.toOption]
  · rcases run_cases read explain hhelp with htext | ⟨refusal, -, hrun⟩ | ⟨_, fault, -, -, hrun⟩
    · exact Or.inl htext
    · exact Or.inr ⟨_, hrun⟩
    · exact Or.inr ⟨_, hrun⟩

/-- One fault of a schema in the notation: its names are identifiers. -/
theorem allOrNothing_of_unknown_type :
    AllOrNothing ["cpp", "m"] (fun _ => .ok "module m \x7b p = (word w) \x7d")
      fun _ => "did not find expected node content" := by
  have hparse : parse ["cpp", "m"] = .ok { action := some "cpp", schemaPath := some "m" } := by
    cbv
  have hhelp : parse ["cpp", "m"] ≠ .error .help := by
    rw [hparse]
    exact nofun
  refine (allOrNothing_iff (by decide) (by intro _ _ h; cases h) (fun _ => by decide) hhelp).2.1 ?_
  intro path hpath
  rw [schemaPath?, hparse] at hpath
  cases hpath
  cbv

/-! A schema in YAML whose name has a line end breaks its own diagnostic. -/

/-- While a path is looked through for its components, a character that is no slash is passed. -/
theorem splitOnAux_slash {path : String} {i : String.Pos.Raw} (next : String.Pos.Raw)
    (hmore : i.atEnd path = false) (hother : (i.get path == '/') = false)
    (hnext : i.next path = next) :
    path.splitOnAux "/" 0 i 0 [] = path.splitOnAux "/" 0 next 0 [] := by
  have hslash : String.Pos.Raw.get "/" 0 = '/' := by decide
  conv_lhs => rw [String.splitOnAux]
  rw [if_neg (by simp [hmore]), hslash, if_neg (by simp [hother]), ← hnext]
  rfl

theorem ofPath_yml : SchemaFormat.ofPath "m.yml" = .yaml := by
  have hcomponents : pathComponents "m.yml" = ["m.yml"] := by
    rw [pathComponents, String.splitOn, if_neg (by decide),
      splitOnAux_slash ⟨1⟩ (by decide) (by decide) (by decide),
      splitOnAux_slash ⟨2⟩ (by decide) (by decide) (by decide),
      splitOnAux_slash ⟨3⟩ (by decide) (by decide) (by decide),
      splitOnAux_slash ⟨4⟩ (by decide) (by decide) (by decide),
      splitOnAux_slash ⟨5⟩ (by decide) (by decide) (by decide), String.splitOnAux]
    decide
  have hname : fileName? "m.yml" = some "m.yml" := by simp [fileName?, hcomponents]
  have hextension : extension? "m.yml" = some "yml" := by simp [extension?, hname]
  have hlower : ("yml" : String).map Char.toLower = "yml" := by cbv
  simp [SchemaFormat.ofPath, hextension, hlower]

/-- A schema whose name has a line end, and whose field has a type that nothing defines. -/
def brokenSource : String :=
  "name: \"a\\nb\"\ntypes:\n- name: p\n  body:\n    product:\n      fields:\n" ++
    "      - name: x\n        type: t\n"

set_option maxRecDepth 10000 in
theorem schemaOfText_brokenSource : Yaml.schemaOfText? brokenSource =
    some ⟨"a\nb", [⟨"p", .product ⟨[⟨"x", "t", false, false⟩], []⟩⟩]⟩ := by
  unfold brokenSource
  cbv

theorem not_allOrNothing_of_broken_name :
    ¬ AllOrNothing ["cpp", "m.yml"] (fun _ => .ok brokenSource)
      fun _ => "did not find expected node content" := by
  have hparse : parse ["cpp", "m.yml"] =
      .ok { action := some "cpp", schemaPath := some "m.yml" } := by
    cbv
  have hload : ∀ explain, loadSchema explain "m.yml" (.ok brokenSource) =
      .ok ⟨"a\nb", [⟨"p", .product ⟨[⟨"x", "t", false, false⟩], []⟩⟩]⟩ := by
    intro explain
    simp only [loadSchema, readSchema, ofPath_yml, schemaOfText_brokenSource, Except.mapError]
  have hrun : run ["cpp", "m.yml"] (fun _ => .ok brokenSource)
      (fun _ => "did not find expected node content") = .failure
      (ReaderError.invalid "a\nb" (.resolve (.unknownType "p" "x" "t"))).message := by
    simp only [run, hparse, Request.run, Request.schemaPath?, hload]
    rfl
  rw [allOrNothing_failure_iff hrun, ReaderError.oneLine_invalid_iff]
  intro hnames
  exact absurd (hnames "a\nb" (List.mem_cons_self ..)) (by decide)

end CommandLine

end ReaderGen
