import ReaderGen.Proofs.Notation.Errors
import ReaderGen.Proofs.Notation.FieldLists

/-!
# ReaderGen.Proofs.Notation.Traces -- the readers go along with the automaton

Each reader of the parser starts at a place of the grammar. What it takes leads the automaton of
`Viable` to the place where the next reader starts (`Passes`), and where it stops, the automaton
stops or a field repeats a name (`Blames`). `Traces` says both of the answer of a reader.

A reader looks one token ahead, or two at the word `attributes`, and the automaton does not. What
the parser saw ahead is known of the tokens that are left (`Stops`), so that a token the parser
passes by is one that the automaton can not take later.
-/

namespace ReaderGen.Notation

open State

/-! ## Faults at a token -/

/-- From a place on, the fault is that of the token which may not stand where it does. -/
def Jams (state : State) (tokens : List Token) (fault : ParseError) : Prop :=
  ∃ kinds rest expected next, Reads kinds tokens rest ∧ state.run kinds = some next ∧
    next ≠ .done ∧ next.step (current rest).kind = none ∧ fault = unexpected expected rest

/-- From a place on, the fault is that of the name of a field. -/
def Repeats (state : State) (tokens : List Token) (fault : ParseError) : Prop :=
  ∃ kinds rest owner name position next, Reads kinds tokens (⟨.ident name, position⟩ :: rest) ∧
    state.run (kinds ++ [.ident name]) = some next ∧ RepeatsField (kinds ++ [.ident name]) name ∧
    fault = .duplicateField owner name position

/-- What the readers of a definition report. -/
def Blames (state : State) (tokens : List Token) (fault : ParseError) : Prop :=
  Jams state tokens fault ∨ Repeats state tokens fault

/-- From one place to another by settled kinds. -/
structure Passes (state next : State) (kinds : List TokenKind) (tokens rest : List Token) :
    Prop where
  reads : Reads kinds tokens rest
  run : state.run kinds = some next
  settled : Settled kinds

section Places

variable {state next last : State} {kind : TokenKind} {kinds more : List TokenKind}
  {tokens middle rest : List Token} {fault : ParseError}

theorem passes_nil : Passes state state [] tokens tokens where
  reads := reads_nil_iff.mpr rfl
  run := rfl
  settled := settled_nil

theorem Passes.append (h : Passes state next kinds tokens middle)
    (hmore : Passes next last more middle rest) :
    Passes state last (kinds ++ more) tokens rest where
  reads := h.reads.append hmore.reads
  run := (run_append_of_run h.run).trans hmore.run
  settled := h.settled.append hmore.settled

theorem Passes.cons {position : Position} (hstep : state.step kind = some next)
    (hkind : kind ≠ .openParen) (h : Passes next last kinds tokens rest) :
    Passes state last (kind :: kinds) (⟨kind, position⟩ :: tokens) rest where
  reads := h.reads.cons
  run := (run_cons_of_step hstep).trans h.run
  settled := h.settled.cons hkind

theorem jams_unexpected {expected : Expected} (hstep : state.step (current tokens).kind = none)
    (hdone : state ≠ .done) : Jams state tokens (unexpected expected tokens) :=
  ⟨[], tokens, expected, state, reads_nil_iff.mpr rfl, rfl, hdone, hstep, rfl⟩

theorem Jams.of_reads (h : Jams next middle fault) (hreads : Reads kinds tokens middle)
    (hrun : state.run kinds = some next) : Jams state tokens fault := by
  obtain ⟨inner, rest, expected, last, hinner, hlast, hdone, hstep, rfl⟩ := h
  exact ⟨kinds ++ inner, rest, expected, last, hreads.append hinner,
    (run_append_of_run hrun).trans hlast, hdone, hstep, rfl⟩

theorem Repeats.of_passes (h : Repeats next middle fault)
    (hpasses : Passes state next kinds tokens middle) : Repeats state tokens fault := by
  obtain ⟨inner, rest, owner, name, position, last, hinner, hlast, hrepeats, rfl⟩ := h
  refine ⟨kinds ++ inner, rest, owner, name, position, last, hpasses.reads.append hinner, ?_, ?_,
    rfl⟩
  · rw [List.append_assoc]
    exact (run_append_of_run hpasses.run).trans hlast
  · rw [List.append_assoc]
    exact hrepeats.append hpasses.settled

/-- What is reported behind a part is reported of the whole. -/
theorem Blames.of_passes (h : Blames next middle fault)
    (hpasses : Passes state next kinds tokens middle) : Blames state tokens fault :=
  h.imp (fun hjams => hjams.of_reads hpasses.reads hpasses.run)
    (fun hrepeats => hrepeats.of_passes hpasses)

theorem blames_unexpected {expected : Expected} (hstep : state.step (current tokens).kind = none)
    (hdone : state ≠ .done) : Blames state tokens (unexpected expected tokens) :=
  Or.inl (jams_unexpected hstep hdone)

/-! ## Single tokens -/

theorem kind_of_expectIdent_error {expected : Expected}
    (h : expectIdent expected tokens = .error fault) (name : String) :
    (current tokens).kind ≠ .ident name := by
  unfold expectIdent at h
  split at h
  · cases h
  · next hident =>
    intro hname
    cases tokens with
    | nil => cases hname
    | cons token rest => exact hident name token.position rest (by rw [← hname]; rfl)

theorem kind_of_expect_error {expected : Expected} (h : expect kind expected tokens = .error fault)
    (hkind : tokens = [] → kind ≠ .eof) : (current tokens).kind ≠ kind := by
  unfold expect at h
  split at h
  · split at h
    · cases h
    · next hne => exact hne
  · exact (hkind rfl).symm

/-- A kind in front that is not the end stands in front of tokens. -/
theorem exists_of_current (h : (current tokens).kind = kind) (hkind : kind ≠ .eof) :
    ∃ position rest, tokens = ⟨kind, position⟩ :: rest := by
  cases tokens with
  | nil => exact absurd h.symm hkind
  | cons token rest => exact ⟨token.position, rest, by rw [← h]; rfl⟩

end Places

/-! ## The first name that comes twice -/

/-- `names` are new and `name` is not: it is one of them, or was seen before. -/
structure FirstRepeat (seen names : List String) (name : String) : Prop where
  fresh : Fresh seen names
  repeated : name ∈ seen ∨ name ∈ names

theorem firstRepeat_nil {seen : List String} {name : String} (h : name ∈ seen) :
    FirstRepeat seen [] name where
  fresh := fresh_nil
  repeated := Or.inl h

/-- A loop that saw one name more goes on with the others. -/
theorem FirstRepeat.cons {seen names : List String} {first name : String} (hfirst : first ∉ seen)
    (h : FirstRepeat (first :: seen) names name) : FirstRepeat seen (first :: names) name where
  fresh := fresh_cons_iff.mpr ⟨hfirst, h.fresh⟩
  repeated := by
    rcases h.repeated with hseen | hnames
    · rcases List.mem_cons.mp hseen with rfl | hseen
      · exact Or.inr List.mem_cons_self
      · exact Or.inl hseen
    · exact Or.inr (List.mem_cons_of_mem _ hnames)

theorem FirstRepeat.mem {names : List String} {name : String} (h : FirstRepeat [] names name) :
    name ∈ names :=
  h.repeated.resolve_left List.not_mem_nil

/-! ## Fields -/

section Fields

variable {list : Part} {tokens rest : List Token} {fault : ParseError}

/-- Behind the type of a field, the parser and the automaton take a mark alike. -/
theorem fieldMark_run (list : Part) {isSequence isOptional : Bool}
    (h : fieldMark tokens = (isSequence, isOptional, rest)) :
    ∃ kinds next, Reads kinds tokens rest ∧ (mark list).run kinds = some next ∧ next ≠ .done ∧
      ((∀ name, (current rest).kind ≠ .ident name) → next.step (current rest).kind = none) := by
  have hname : (∀ name, (current rest).kind ≠ .ident name) →
      (fieldName list).step (current rest).kind = none := (TakesName.fieldName list).step_eq_none
  unfold fieldMark at h
  split at h
  · cases h
    exact ⟨[.star], fieldName list, reads_singleton_iff.mpr ⟨_, rfl⟩, rfl, by simp, hname⟩
  · cases h
    exact ⟨[.question], fieldName list, reads_singleton_iff.mpr ⟨_, rfl⟩, rfl, by simp, hname⟩
  · next hstar hquestion =>
    cases h
    refine ⟨[], mark list, reads_nil_iff.mpr rfl, rfl, by simp, ?_⟩
    intro hident
    cases hkind : (current tokens).kind with
    | ident name => exact absurd hkind (hident name)
    | star =>
      obtain ⟨place, after, rfl⟩ := exists_of_current hkind (by simp)
      exact absurd rfl (hstar place after)
    | question =>
      obtain ⟨place, after, rfl⟩ := exists_of_current hkind (by simp)
      exact absurd rfl (hquestion place after)
    | _ => rfl

theorem parseField_jams (h : parseField tokens = .error fault) :
    Jams (fieldType list) tokens fault := by
  unfold parseField at h
  split at h
  · next htype =>
    cases h
    have hplace := TakesName.fieldType list
    rw [expectIdent_eq_error htype]
    exact jams_unexpected (hplace.step_eq_none (kind_of_expectIdent_error htype)) hplace.ne_done
  · next typeName place afterType htype =>
    rcases hmark : fieldMark afterType with ⟨isSequence, isOptional, afterMark⟩
    rw [hmark] at h
    simp only at h
    split at h
    · next hname =>
      cases h
      obtain ⟨kinds, next, hreads, hrun, hdone, hstep⟩ := fieldMark_run list hmark
      rw [expectIdent_eq_error hname, expectIdent_eq_ok htype]
      exact (jams_unexpected (hstep (kind_of_expectIdent_error hname)) hdone).of_reads
        hreads.cons ((run_cons_of_step rfl).trans hrun)
    · cases h

/-- The position of a field is that of its name. -/
theorem parseField_position {field : Field} {position : Position}
    (h : parseField tokens = .ok (field, position, rest)) :
    ∃ kinds, Reads kinds tokens (⟨.ident field.name, position⟩ :: rest) ∧
      field.kinds = kinds ++ [.ident field.name] := by
  unfold parseField at h
  split at h
  · cases h
  · next typeName place afterType htype =>
    rcases hmark : fieldMark afterType with ⟨isSequence, isOptional, afterMark⟩
    rw [hmark] at h
    simp only at h
    split at h
    · cases h
    · next name position left hname =>
      cases h
      obtain ⟨hreads, -⟩ := fieldMark_reads hmark name typeName
      rw [expectIdent_eq_ok htype]
      rw [expectIdent_eq_ok hname] at hreads
      exact ⟨_, hreads.cons, rfl⟩

/-- Between the fields of a list, the fault is that of the name of a field which is one of those
read before, the names in `seen` included. -/
def RepeatsSeen (owner : String) (seen : List String) (tokens : List Token) (fault : ParseError) :
    Prop :=
  ∃ fields : List Field, ∃ last : Field, ∃ kinds rest position,
    Reads kinds tokens (⟨.ident last.name, position⟩ :: rest) ∧
      kinds ++ [.ident last.name] =
        (fields.flatMap fun field => field.kinds ++ [.comma]) ++ last.kinds ∧
      FirstRepeat seen (fields.map Field.name) last.name ∧
      fault = .duplicateField owner last.name position

theorem parseFieldItems_eq_error {owner : String} {seen : List String}
    (h : parseFieldItems owner seen tokens = .error fault) :
    Jams (fieldType list) tokens fault ∨ RepeatsSeen owner seen tokens fault := by
  revert h
  -- the automaton is back at the same place behind each field and its comma
  fun_induction parseFieldItems owner seen tokens with
  | case1 seen tokens cause hfield =>
    rintro ⟨⟩
    exact Or.inl (parseField_jams hfield)
  | case2 seen tokens field position afterField hfield hseen =>
    rintro ⟨⟩
    obtain ⟨kinds, hreads, hkinds⟩ := parseField_position hfield
    exact Or.inr ⟨[], field, kinds, afterField, position, hreads, hkinds.symm,
      firstRepeat_nil hseen, rfl⟩
  | case3 seen tokens field position hseen place rest hfield cause hitems _ ih =>
    rintro ⟨⟩
    have hfirst : Reads (field.kinds ++ [.comma]) tokens rest :=
      (parseField_eq_ok_iff.mp ⟨position, hfield⟩).1.append (reads_singleton_iff.mpr ⟨place, rfl⟩)
    rcases ih hitems with hjams | ⟨fields, last, kinds, left, spot, hreads, hkinds, hrepeat, rfl⟩
    · exact Or.inl (hjams.of_reads hfirst (run_append_of_run (run_field field)))
    · refine Or.inr ⟨field :: fields, last, _, left, spot, hfirst.append hreads, ?_,
        hrepeat.cons hseen, rfl⟩
      rw [List.append_assoc, hkinds, List.flatMap_cons]
      simp only [List.append_assoc]
  | case4 => rintro ⟨⟩
  | case5 => rintro ⟨⟩
  | case6 seen tokens field position afterField hfield hseen hread hcomma hclose =>
    rintro ⟨⟩
    have hfirst := (parseField_eq_ok_iff.mp ⟨position, hfield⟩).1
    have hdone : separator list ≠ .done := by simp
    refine Or.inl ((jams_unexpected ?_ hdone).of_reads hfirst (run_field field))
    cases hkind : (current afterField).kind with
    | comma =>
      obtain ⟨place, after, rfl⟩ := exists_of_current hkind (by simp)
      exact (hcomma place after hread rfl HEq.rfl).elim
    | closeParen =>
      obtain ⟨place, after, rfl⟩ := exists_of_current hkind (by simp)
      exact (hclose place after hread rfl HEq.rfl).elim
    | _ => rfl

end Fields

/-! ## Readers that go along with the automaton -/

/-- The answer of a reader that starts at a place: what it read leads behind a part, and what is
left goes with that part; or it reports the first fault. -/
def Traces {α : Type} (state : State) (kinds : α → List TokenKind)
    (stops : Part → List Token → Prop) (tokens : List Token) :
    Except ParseError (α × List Token) → Prop
  | .ok (item, rest) =>
    ∃ part, Passes state (behind part) (kinds item) tokens rest ∧ stops part rest
  | .error fault => Blames state tokens fault

section Answers

variable {α : Type} {state : State} {kinds : α → List TokenKind}
  {stops : Part → List Token → Prop} {tokens : List Token}
  {result : Except ParseError (α × List Token)}

theorem Traces.blames (h : Traces state kinds stops tokens result) {fault : ParseError}
    (heq : result = .error fault) : Blames state tokens fault := by
  subst heq
  exact h

theorem Traces.passes (h : Traces state kinds stops tokens result) {item : α} {rest : List Token}
    (heq : result = .ok (item, rest)) :
    ∃ part, Passes state (behind part) (kinds item) tokens rest ∧ stops part rest := by
  subst heq
  exact h

end Answers

/-- What is left does not go on with the constructor that was read. -/
structure StopsVariant (part : Part) (rest : List Token) : Prop where
  is_variant : part = .variantName ∨ part = .variant
  no_fields : part = .variantName → (current rest).kind ≠ .openParen

theorem StopsVariant.step_pipe {part : Part} {rest : List Token} (h : StopsVariant part rest) :
    (behind part).step .pipe = some variant := by
  rcases h.is_variant with rfl | rfl <;> rfl

/-- What is left does not go on with the part of a definition that was read. -/
structure Stops (part : Part) (rest : List Token) : Prop where
  no_fields : part = .variantName → (current rest).kind ≠ .openParen
  no_variant : part = .variantName ∨ part = .variant → (current rest).kind ≠ .pipe
  no_attributes : part ≠ .whole → ¬ AttributesAhead rest

theorem stops_whole (rest : List Token) : Stops .whole rest where
  no_fields := by simp
  no_variant := by simp
  no_attributes h := absurd rfl h

section Readers

variable {state : State} {list part : Part} {tokens rest : List Token} {fault : ParseError}

/-- In a list from its parenthesis on, the name is that of another field of the list. -/
theorem RepeatsSeen.repeats {owner : String} {position : Position}
    (h : RepeatsSeen owner [] tokens fault)
    (hopen : state.step .openParen = some (fieldType list)) :
    Repeats state (⟨.openParen, position⟩ :: tokens) fault := by
  obtain ⟨fields, last, kinds, rest, spot, hreads, hkinds, hrepeat, rfl⟩ := h
  have hlist : .openParen :: kinds ++ [.ident last.name] = openListKinds fields last := by
    rw [openListKinds, ← hkinds]
    rfl
  refine ⟨.openParen :: kinds, rest, owner, last.name, spot, separator list, hreads.cons, ?_, ?_,
    rfl⟩
  · rw [hlist]
    exact run_openList hopen fields last
  · rw [hlist]
    exact ⟨[], fields, last, rfl, rfl, hrepeat.mem, hrepeat.fresh.distinct, settled_nil.distinct⟩

theorem parseFields_traces (owner : String) {position : Position}
    (hopen : state.step .openParen = some (fieldType list)) :
    Traces state fieldListKinds (fun part _ => part = list) (⟨.openParen, position⟩ :: tokens)
      (parseFields owner (⟨.openParen, position⟩ :: tokens)) := by
  cases hresult : parseFields owner (⟨.openParen, position⟩ :: tokens) with
  | ok answer =>
    obtain ⟨fields, rest⟩ := answer
    obtain ⟨hne, hreads, hwf⟩ := parseFields_eq_ok_iff.mp hresult
    exact ⟨list, ⟨hreads, run_fieldList hopen hne, settled_fieldList hwf.distinct⟩, rfl⟩
  | error fault =>
    rw [parseFields, expect_cons_self] at hresult
    have hparen : Reads [.openParen] (⟨.openParen, position⟩ :: tokens) tokens :=
      reads_singleton_iff.mpr ⟨position, rfl⟩
    exact (parseFieldItems_eq_error hresult).imp
      (fun hjams => hjams.of_reads hparen (run_cons_of_step hopen))
      (fun hrepeats => hrepeats.repeats hopen)

/-- From behind a part that misses attributes. -/
theorem parseAttributes_traces (owner : String) (hpart : part ≠ .whole)
    (hfields : part = .variantName → (current tokens).kind ≠ .openParen)
    (hvariants : part = .variantName ∨ part = .variant → (current tokens).kind ≠ .pipe) :
    Traces (behind part) attributeKinds Stops tokens (parseAttributes owner tokens) := by
  unfold parseAttributes
  split
  · next word position after =>
    have hword : (behind part).step (.ident "attributes") = some attributesOrEquals :=
      if_pos ⟨rfl, hpart⟩
    have hlist : Traces attributesOrEquals fieldListKinds (fun part _ => part = .whole)
        (⟨.openParen, position⟩ :: after) (parseFields owner (⟨.openParen, position⟩ :: after)) :=
      parseFields_traces owner rfl
    cases hresult : parseFields owner (⟨.openParen, position⟩ :: after) with
    | error fault => exact (hlist.blames hresult).of_passes (passes_nil.cons hword (by simp))
    | ok answer =>
      obtain ⟨attributes, rest⟩ := answer
      obtain ⟨_, hpasses, rfl⟩ := hlist.passes hresult
      have hne : attributes ≠ [] := (parseFields_eq_ok_iff.mp hresult).1
      refine ⟨.whole, ?_, stops_whole rest⟩
      rw [attributeKinds, if_neg hne]
      exact hpasses.cons hword (by simp)
  · next hahead =>
    refine ⟨part, passes_nil, hfields, hvariants, ?_⟩
    rintro - ⟨after, hreads⟩
    obtain ⟨position, next, rfl, hparen⟩ := reads_cons_iff.mp hreads
    obtain ⟨place, rfl⟩ := reads_singleton_iff.mp hparen
    exact hahead position place after rfl

/-- A constructor has to stand here: behind a pipe, or behind an equals sign where no field list
begins. -/
def AwaitsVariant (state : State) (tokens : List Token) : Prop :=
  state = .variant ∨ state = .body ∧ (current tokens).kind ≠ .openParen

theorem AwaitsVariant.step_ident (h : AwaitsVariant state tokens) (name : String) :
    state.step (.ident name) = some (behind .variantName) := by
  rcases h with rfl | ⟨rfl, -⟩ <;> rfl

theorem AwaitsVariant.blames (h : AwaitsVariant state tokens) {expected : Expected}
    (hident : ∀ name, (current tokens).kind ≠ .ident name) :
    Blames state tokens (unexpected expected tokens) := by
  rcases h with rfl | ⟨rfl, hparen⟩
  · exact blames_unexpected (TakesName.variant.step_eq_none hident) (by simp)
  · refine blames_unexpected ?_ (by simp)
    cases hkind : (current tokens).kind with
    | ident name => exact absurd hkind (hident name)
    | openParen => exact absurd hkind hparen
    | _ => rfl

theorem parseConstructor_traces (h : AwaitsVariant state tokens) :
    Traces state Constructor.kinds StopsVariant tokens (parseConstructor tokens) := by
  unfold parseConstructor
  split
  · next hname =>
    rw [expectIdent_eq_error hname]
    exact h.blames (kind_of_expectIdent_error hname)
  · next name position afterName hname =>
    have hstep := h.step_ident name
    rw [expectIdent_eq_ok hname]
    split
    · next hparen =>
      obtain ⟨place, after, rfl⟩ := exists_of_current hparen (by simp)
      have hlist : Traces (behind .variantName) fieldListKinds (fun part _ => part = .variant)
          (⟨.openParen, place⟩ :: after) (parseFields name (⟨.openParen, place⟩ :: after)) :=
        parseFields_traces name rfl
      split
      · next hresult =>
        exact (hlist.blames hresult).of_passes (passes_nil.cons hstep (by simp))
      · next fields rest hresult =>
        obtain ⟨_, hpasses, rfl⟩ := hlist.passes hresult
        have hne : fields ≠ [] := (parseFields_eq_ok_iff.mp hresult).1
        refine ⟨.variant, ?_, Or.inr rfl, by simp⟩
        rw [Constructor.kinds, if_neg hne]
        exact hpasses.cons hstep (by simp)
    · next hparen =>
      exact ⟨.variantName, passes_nil.cons hstep (by simp), Or.inl rfl, fun _ => hparen⟩

theorem parseConstructors_traces (h : AwaitsVariant state tokens) :
    Traces state variantKinds (fun part rest => StopsVariant part rest ∧
      (current rest).kind ≠ .pipe) tokens (parseConstructors tokens) := by
  fun_induction parseConstructors tokens generalizing state with
  | case1 tokens fault hvariant => exact (parseConstructor_traces h).blames hvariant
  | case2 tokens variant place rest hvariant fault htail _ ih =>
    obtain ⟨part, hpasses, hstops⟩ := (parseConstructor_traces h).passes hvariant
    exact ((ih (Or.inl rfl)).blames htail).of_passes
      (hpasses.append (passes_nil.cons hstops.step_pipe (by simp)))
  | case3 tokens variant place rest hvariant variants left htail _ ih =>
    obtain ⟨part, hpasses, hstops⟩ := (parseConstructor_traces h).passes hvariant
    obtain ⟨last, hothers, hlast⟩ := (ih (Or.inl rfl)).passes htail
    -- without a constructor the automaton would still be behind the pipe
    have hne : variants ≠ [] := by
      rintro rfl
      cases hothers.run
    refine ⟨last, ?_, hlast⟩
    rw [variantKinds_cons hne]
    exact hpasses.append (hothers.cons hstops.step_pipe (by simp))
  | case4 tokens variant afterVariant hvariant hread hlast =>
    have hfirst := parseConstructor_traces h
    obtain ⟨part, hpasses, hstops⟩ := hfirst.passes hvariant
    refine ⟨part, ?_, hstops, ?_⟩
    · rw [variantKinds_singleton]
      exact hpasses
    · intro hkind
      obtain ⟨place, after, rfl⟩ := exists_of_current hkind (by simp)
      exact (hlast place after hread rfl HEq.rfl).elim

theorem parseBody_traces (name : String) :
    Traces body Body.kinds Stops tokens (parseBody name tokens) := by
  unfold parseBody
  split
  · next hparen =>
    obtain ⟨place, after, rfl⟩ := exists_of_current hparen (by simp)
    have hlist : Traces body fieldListKinds (fun part _ => part = .fields)
        (⟨.openParen, place⟩ :: after) (parseFields name (⟨.openParen, place⟩ :: after)) :=
      parseFields_traces name rfl
    split
    · next hresult => exact hlist.blames hresult
    · next fields afterFields hresult =>
      obtain ⟨_, hpasses, rfl⟩ := hlist.passes hresult
      have hattributes : Traces (behind .fields) attributeKinds Stops afterFields
          (parseAttributes name afterFields) :=
        parseAttributes_traces name (by simp) (by simp) (by simp)
      split
      · next hlast => exact (hattributes.blames hlast).of_passes hpasses
      · next attributes rest hlast =>
        obtain ⟨part, hmore, hstops⟩ := hattributes.passes hlast
        exact ⟨part, hpasses.append hmore, hstops⟩
  · next hparen =>
    have hvariants := parseConstructors_traces (Or.inr ⟨rfl, hparen⟩)
    split
    · next hresult => exact hvariants.blames hresult
    · next variants afterVariants hresult =>
      obtain ⟨part, hpasses, hstops, hpipe⟩ := hvariants.passes hresult
      have hpart : part ≠ .whole := by
        rcases hstops.is_variant with rfl | rfl <;> simp
      have hattributes := parseAttributes_traces name hpart hstops.no_fields (fun _ => hpipe)
      split
      · next hlast => exact (hattributes.blames hlast).of_passes hpasses
      · next attributes rest hlast =>
        obtain ⟨last, hmore, hlast⟩ := hattributes.passes hlast
        exact ⟨last, hpasses.append hmore, hlast⟩

theorem Stops.step_eq_none (h : Stops part tokens)
    (hident : ∀ name, (current tokens).kind ≠ .ident name)
    (hbrace : (current tokens).kind ≠ .closeBrace) :
    (behind part).step (current tokens).kind = none := by
  cases hkind : (current tokens).kind with
  | ident name => exact absurd hkind (hident name)
  | closeBrace => exact absurd hkind hbrace
  | openParen =>
    cases part with
    | variantName => exact absurd hkind (h.no_fields rfl)
    | _ => rfl
  | pipe =>
    cases part with
    | variantName => exact absurd hkind (h.no_variant (Or.inl rfl))
    | variant => exact absurd hkind (h.no_variant (Or.inr rfl))
    | _ => rfl
  | _ => cases part <;> rfl

/-- Behind the name of a definition only an equals sign may stand, also if its name is the word
`attributes`. -/
theorem Stops.step_name {name : String} {position : Position}
    (h : Stops part (⟨.ident name, position⟩ :: rest)) :
    ∃ next, (behind part).step (.ident name) = some next ∧ next ≠ .done ∧
      next.step .equals = some body ∧
      ((current rest).kind ≠ .equals → next.step (current rest).kind = none) := by
  by_cases hword : name = "attributes" ∧ part ≠ .whole
  · obtain ⟨rfl, hpart⟩ := hword
    refine ⟨attributesOrEquals, if_pos ⟨rfl, hpart⟩, by simp, rfl, ?_⟩
    intro hequals
    cases hkind : (current rest).kind with
    | equals => exact absurd hkind hequals
    | openParen =>
      obtain ⟨place, after, rfl⟩ := exists_of_current hkind (by simp)
      exact absurd ⟨after, (reads_singleton_iff.mpr ⟨place, rfl⟩).cons⟩ (h.no_attributes hpart)
    | _ => rfl
  · exact ⟨equals, if_neg hword, by simp, rfl, equals_step_eq_none⟩

theorem parseDefinition_traces (h : Stops part tokens)
    (hbrace : (current tokens).kind ≠ .closeBrace) :
    Traces (behind part) Definition.kinds Stops tokens (parseDefinition tokens) := by
  unfold parseDefinition
  split
  · next hname =>
    rw [expectIdent_eq_error hname]
    exact blames_unexpected (h.step_eq_none (kind_of_expectIdent_error hname) hbrace) (by simp)
  · next name position afterName hname =>
    obtain rfl := expectIdent_eq_ok hname
    obtain ⟨next, hstep, hdone, hequals, hnone⟩ := h.step_name
    split
    · next hexpect =>
      rw [expect_eq_error hexpect]
      have hjams := hnone (kind_of_expect_error hexpect (by simp))
      exact (blames_unexpected hjams hdone).of_passes (passes_nil.cons hstep (by simp))
    · next afterEquals hexpect =>
      obtain ⟨place, rfl⟩ := expect_eq_ok hexpect
      have hbody : Traces body Body.kinds Stops afterEquals (parseBody name afterEquals) :=
        parseBody_traces name
      split
      · next hresult =>
        exact (hbody.blames hresult).of_passes
          ((passes_nil.cons hequals (by simp)).cons hstep (by simp))
      · next content rest hresult =>
        obtain ⟨last, hpasses, hstops⟩ := hbody.passes hresult
        exact ⟨last, (hpasses.cons hequals (by simp)).cons hstep (by simp), hstops⟩

/-- Between the definitions of a module, the fault is that of the definition whose name is one of
those read before, the names in `seen` included. -/
def RepeatsType (seen : List String) (part : Part) (tokens : List Token) (fault : ParseError) :
    Prop :=
  ∃ definitions : List Definition, ∃ definition : Definition, ∃ middle rest next last,
    Passes (behind part) (behind next) (definitions.flatMap Definition.kinds) tokens middle ∧
      Passes (behind next) (behind last) definition.kinds middle rest ∧ Stops last rest ∧
      FirstRepeat seen (definitions.map Definition.name) definition.name ∧
      fault = .duplicateType definition.name (current middle).position

theorem parseDefinitions_eq_error {seen : List String} (hstops : Stops part tokens)
    (h : parseDefinitions seen tokens = .error fault) :
    Blames (behind part) tokens fault ∨ RepeatsType seen part tokens fault := by
  revert h
  -- the next definition starts from where this one stops, so the part is not fixed
  fun_induction parseDefinitions seen tokens generalizing part with
  | case1 => rintro ⟨⟩
  | case2 seen tokens hbrace cause hdefinition =>
    rintro ⟨⟩
    have hfirst := parseDefinition_traces hstops hbrace
    exact Or.inl (hfirst.blames hdefinition)
  | case3 seen tokens hbrace definition after hdefinition hseen =>
    rintro ⟨⟩
    have hfirst := parseDefinition_traces hstops hbrace
    obtain ⟨last, hpasses, hlast⟩ := hfirst.passes hdefinition
    exact Or.inr ⟨[], definition, tokens, after, part, last, passes_nil, hpasses, hlast,
      firstRepeat_nil hseen, rfl⟩
  | case4 seen tokens hbrace definition after hdefinition hseen cause hmore ih =>
    rintro ⟨⟩
    have hfirst := parseDefinition_traces hstops hbrace
    obtain ⟨first, hpasses, hafter⟩ := hfirst.passes hdefinition
    rcases ih hafter hmore with hblames | ⟨definitions, other, middle, rest, next, last, hothers,
      hother, hlast, hrepeat, rfl⟩
    · exact Or.inl (hblames.of_passes hpasses)
    · exact Or.inr ⟨definition :: definitions, other, middle, rest, next, last,
        hpasses.append hothers, hother, hlast, hrepeat.cons hseen, rfl⟩
  | case5 => rintro ⟨⟩

end Readers

end ReaderGen.Notation
