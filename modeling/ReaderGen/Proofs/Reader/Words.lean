import ReaderGen.Proofs.Reader.Emitters

/-!
# ReaderGen.Proofs.Reader.Words -- wrapping moves blanks and newlines only

The words of a text are its maximal runs of characters other than the space and the newline.
A break takes a space out of a line and puts a newline and padding in its place, so **a
wrapped line has the words of the line** (`Formatter.words_format`), at every width and
indentation. Every entry is set off from the next by a newline, so **the words of a unit are
those of its entries, whatever the formatter** (`words_of_unitText`).

Nothing is asked of the names in a layout. A name with a space in it is two words, in every
layout of the text.
-/

namespace ReaderGen

namespace Text

/-! ## Words -/

/-- The characters that stand between words. -/
def isGap (c : Char) : Bool := c = ' ' || c = '\n'

/-- The words of a text: its maximal runs of characters that are no gap. -/
def words (cs : List Char) : List (List Char) :=
  (cs.splitOnP isGap).filter fun run => !run.isEmpty

@[simp] theorem words_nil : words [] = [] := by
  rw [words, List.splitOnP_nil]
  rfl

/-- **A gap separates the words in front of it from those behind it.** -/
theorem words_append_gap {c : Char} (hgap : isGap c = true) (front back : List Char) :
    words (front ++ c :: back) = words front ++ words back := by
  rw [words, List.splitOnP_append_cons front back hgap, List.filter_append]
  rfl

/-- Spaces in front of a text add no word. -/
theorem words_spaces_append (count : Nat) (cs : List Char) :
    words (List.replicate count ' ' ++ cs) = words cs := by
  induction count with
  | zero => rfl
  | succ count ih =>
    have hfirst := words_append_gap (c := ' ') (by decide) [] (List.replicate count ' ' ++ cs)
    rw [words_nil, List.nil_append, List.nil_append] at hfirst
    rw [List.replicate_succ, List.cons_append, hfirst, ih]

/-- No word of the text runs into what is written behind it. -/
def SetOff (text : String) : Prop :=
  ∀ back, words (text.toList ++ back) = words text.toList ++ words back

theorem setOff_empty : SetOff "" := fun _ => rfl

theorem SetOff.append {first second : String} (hfirst : SetOff first) (hsecond : SetOff second) :
    SetOff (first ++ second) := by
  intro back
  rw [String.toList_append, List.append_assoc, hfirst, hsecond, hfirst, List.append_assoc]

theorem words_newline (text : String) : words (text ++ "\n").toList = words text.toList := by
  have hends := words_append_gap (c := '\n') (by decide) text.toList []
  rw [words_nil, List.append_nil] at hends
  rw [String.toList_append]
  exact hends

/-- A newline sets a text off. -/
theorem setOff_newline (text : String) : SetOff (text ++ "\n") := by
  intro back
  rw [words_newline, String.toList_append, List.append_assoc]
  exact words_append_gap (by decide) text.toList back

/-- **The words of texts that are set off are the words of each, in order.** -/
theorem words_join {texts : List String} (h : ∀ text ∈ texts, SetOff text) :
    words (String.join texts).toList = texts.flatMap fun text => words text.toList := by
  induction texts with
  | nil => exact words_nil
  | cons text texts ih =>
    rw [List.forall_mem_cons] at h
    rw [String.join_cons, String.toList_append, h.1, ih h.2, List.flatMap_cons]

theorem setOff_join {texts : List String} (h : ∀ text ∈ texts, SetOff text) :
    SetOff (String.join texts) := by
  induction texts with
  | nil => exact setOff_empty
  | cons text texts ih =>
    rw [List.forall_mem_cons] at h
    rw [String.join_cons]
    exact h.1.append (ih h.2)

end Text

open Text

/-! ## Wrapped lines -/

namespace Reflow

/-- A break takes out a space, which is between words. -/
theorem words_of_break {budget : Nat} {cs piece rest : List Char}
    (h : breakAt? budget cs = some (piece, rest)) : words cs = words piece ++ words rest := by
  rw [(breakAt?_eq_some h).1]
  exact words_append_gap (by decide) piece rest

theorem words_of_continued {line : String} {budget column : Nat} {cs : List Char}
    {pieces : List String} (h : continued line budget column cs = .ok pieces) :
    pieces.flatMap (fun piece => words piece.toList) = words cs := by
  fun_induction continued line budget column cs generalizing pieces with
  | case1 cs _ =>
    cases h
    rw [List.flatMap_singleton, String.toList_ofList, padding, words_spaces_append]
  | case2 => cases h
  | case3 => cases h
  | case4 cs _ piece rest hbreak found hfound ih =>
    cases h
    rw [List.flatMap_cons, String.toList_ofList, padding, words_spaces_append, ih hfound,
      words_of_break hbreak]

end Reflow

namespace Formatter

open Reflow

variable {formatter : Formatter} {line : String} {depth : Nat}

/-- The pieces of a line have the words of the line. -/
theorem words_reflow {pieces : List String} (h : formatter.reflow line depth = .ok pieces) :
    pieces.flatMap (fun piece => words piece.toList) = words line.toList := by
  rcases reflow_eq_ok h with ⟨-, rfl⟩ | ⟨piece, rest, more, hbreak, hmore, rfl⟩
  · rw [List.flatMap_singleton]
  · rw [List.flatMap_cons, String.toList_ofList, words_of_continued hmore, words_of_break hbreak]

/-- **The physical lines of a line have its words**, at every width and depth. -/
theorem words_format {lines : List String} (h : formatter.format line depth = .ok lines) :
    words (String.join lines).toList = words line.toList ∧ SetOff (String.join lines) := by
  rw [format] at h
  cases hreflow : formatter.reflow line depth with
  | error fault => simp [hreflow] at h
  | ok pieces =>
    simp only [hreflow, Except.ok.injEq] at h
    subst h
    have hsetOff : ∀ text ∈ pieces.map fun piece => formatter.indentation depth ++ piece ++ "\n",
        SetOff text := by
      rw [List.forall_mem_map]
      intro piece _
      exact setOff_newline _
    have hindented : ∀ piece, words (formatter.indentation depth ++ piece ++ "\n").toList =
        words piece.toList := by
      intro piece
      rw [words_newline, String.toList_append, indentation, String.toList_ofList,
        words_spaces_append]
    refine ⟨?_, setOff_join hsetOff⟩
    rw [words_join hsetOff, List.flatMap_map]
    simp only [hindented]
    exact words_reflow hreflow

end Formatter

/-! ## Entries -/

namespace Reader

/-- What an entry says, before it is wrapped. -/
def Entry.content : Entry → String
  | .line text _ => text
  | .raw text => text

/-- The entry is set off from the next: a line by its newline, raw text by itself. -/
def Entry.IsSetOff : Entry → Prop
  | .line _ _ => True
  | .raw text => SetOff text

theorem Entry.words_of_physical {formatter : Formatter} {entry : Entry} {text : String}
    (hsetOff : entry.IsSetOff) (h : entry.physical formatter = .ok text) :
    words text.toList = words entry.content.toList ∧ SetOff text := by
  cases entry with
  | raw content =>
    cases h
    exact ⟨rfl, hsetOff⟩
  | line content depth =>
    rw [physical] at h
    cases hformat : formatter.format content depth with
    | error fault => simp [hformat] at h
    | ok lines =>
      simp only [hformat, Except.ok.injEq] at h
      subst h
      exact Formatter.words_format hformat

/-- **Rendered entries have the words of the entries.** -/
theorem words_of_render {formatter : Formatter} {entries : List Entry} {text : String}
    (hsetOff : ∀ entry ∈ entries, entry.IsSetOff) (h : render formatter entries = .ok text) :
    words text.toList = entries.flatMap fun entry => words entry.content.toList := by
  obtain ⟨texts, htexts, rfl⟩ := render_eq_ok_iff.mp h
  have heach : (∀ text ∈ texts, SetOff text) ∧
      (texts.flatMap fun text => words text.toList) =
        entries.flatMap fun entry => words entry.content.toList := by
    clear h
    induction htexts with
    | nil => exact ⟨nofun, rfl⟩
    | cons hentry _ ih =>
      rw [List.forall_mem_cons] at hsetOff
      obtain ⟨hrest, hwords⟩ := ih hsetOff.2
      obtain ⟨hfirst, hend⟩ := Entry.words_of_physical hsetOff.1 hentry
      refine ⟨List.forall_mem_cons.mpr ⟨hend, hrest⟩, ?_⟩
      rw [List.flatMap_cons, List.flatMap_cons, hfirst, hwords]
  rw [words_join heach.1, heach.2]

/-! ## Units -/

section Parts

variable {pointer : String} {depth : Nat}

theorem function_isSetOff (header : String) (body : List String) :
    ∀ entry ∈ function header body depth, entry.IsSetOff :=
  forall_function.mpr ⟨trivial, fun _ _ => trivial, trivial⟩

/-- An accessor is written in lines only. -/
theorem accessorLines_isSetOff (accessor : Accessor) :
    ∀ entry ∈ accessorLines accessor pointer depth, entry.IsSetOff := by
  obtain ⟨field, offset, value, cardinality⟩ := accessor
  cases cardinality with
  | single =>
    cases value with
    | object typeName isOptional => exact List.forall_mem_singleton.mpr trivial
    | _ => exact function_isSetOff _ _
  | «repeated» stride =>
    rw [accessorLines, List.forall_mem_append]
    refine ⟨function_isSetOff _ _, ?_⟩
    cases value with
    | object typeName isOptional => exact List.forall_mem_singleton.mpr trivial
    | _ => exact function_isSetOff _ _

theorem attributeLines_isSetOff (attributes : List Attribute) :
    ∀ entry ∈ attributeLines attributes depth, entry.IsSetOff :=
  forall_attributeLines.mpr fun _ _ => trivial

theorem classLines_isSetOff {name parent : String} {members : List Entry}
    (h : ∀ entry ∈ members, entry.IsSetOff) :
    ∀ entry ∈ classLines name parent members depth, entry.IsSetOff :=
  forall_classLines.mpr ⟨trivial, trivial, h, trivial, trivial⟩

theorem declarationLines_isSetOff (declaration : Declaration) :
    ∀ entry ∈ declarationLines declaration pointer, entry.IsSetOff := by
  cases declaration with
  | enumeration body => exact forall_enumerationLines.mpr ⟨trivial, trivial, trivial, trivial⟩
  | taggedBase body =>
    apply classLines_isSetOff
    rw [List.forall_mem_append]
    exact ⟨function_isSetOff _ _, attributeLines_isSetOff _⟩
  | accessorClass body =>
    apply classLines_isSetOff
    rw [List.forall_mem_append]
    refine ⟨?_, attributeLines_isSetOff _⟩
    intro entry hmem
    obtain ⟨accessor, -, hline⟩ := List.mem_flatMap.mp hmem
    exact accessorLines_isSetOff accessor entry hline

/-- A deferred body ends with a brace and a blank line, in raw text. -/
theorem deferredLines_isSetOff (deferred : Deferred) :
    ∀ entry ∈ deferredLines deferred pointer, entry.IsSetOff :=
  forall_deferredLines.mpr ⟨trivial, fun _ _ => trivial, setOff_newline (closing ++ "\n")⟩

end Parts

theorem unwrapped_setOff (lines : List String) : SetOff (unwrapped lines) := by
  apply setOff_join
  rw [List.forall_mem_map]
  intro line _
  exact setOff_newline line

/-- No word runs from one entry of a unit into the next. -/
theorem unitEntries_isSetOff (layout : Layout) : ∀ entry ∈ unitEntries layout, entry.IsSetOff := by
  simp only [unitEntries, List.forall_mem_append, List.forall_mem_singleton,
    List.forall_mem_flatMap]
  refine ⟨⟨⟨⟨unwrapped_setOff _, ?_⟩, ?_⟩, ?_⟩, unwrapped_setOff _⟩
  · exact forall_forwardLines.mpr ⟨fun _ _ => trivial, trivial⟩
  · intro declaration _
    exact declarationLines_isSetOff declaration
  · intro deferred _
    exact deferredLines_isSetOff deferred

/-- **The words of a unit are those of its entries**, whatever the formatter. -/
theorem words_of_unitText {formatter : Formatter} {layout : Layout} {text : String}
    (h : unitText formatter layout = .ok text) :
    words text.toList = (unitEntries layout).flatMap fun entry => words entry.content.toList := by
  rw [unitText_eq_render] at h
  exact words_of_render (unitEntries_isSetOff layout) h

/-- **Two formatters write the same words.** -/
theorem words_unitText_eq {these those : Formatter} {layout : Layout} {text other : String}
    (htext : unitText these layout = .ok text) (hother : unitText those layout = .ok other) :
    words text.toList = words other.toList := by
  rw [words_of_unitText htext, words_of_unitText hother]

/-- An enumeration whose names hold spaces and letters of two bytes. -/
def spacedLayout : Layout :=
  ⟨1, "m", .standard, [], [.enumeration ⟨"réponse brève", [⟨"oui", 1⟩, ⟨"pas du tout", 2⟩]⟩], []⟩

theorem exists_spacedLayout_iff {formatter : Formatter} :
    (∃ text, unitText formatter spacedLayout = .ok text) ↔
      formatter.Wraps "" 0 ∧ formatter.Wraps "enum class réponse brève_e : uint8_t \x7b" 0 ∧
        formatter.Wraps "oui = 1, pas du tout = 2" 1 ∧ formatter.Wraps "\x7d;" 0 := by
  rw [unitText_eq_render, exists_render_iff]
  simp only [unitEntries, spacedLayout, List.forall_mem_append, List.forall_mem_flatMap,
    List.forall_mem_singleton, declarationLines, forall_enumerationLines, forall_forwardLines,
    Entry.Wraps, List.not_mem_nil, false_imp_iff, implies_true, true_and, and_true]
  constructor
  · rintro ⟨hblank, hhead, hvalues, hclosing, -⟩
    exact ⟨hblank, hhead, hvalues, hclosing⟩
  · rintro ⟨hblank, hhead, hvalues, hclosing⟩
    exact ⟨hblank, hhead, hvalues, hclosing, hblank⟩

/-- The wide formatter breaks no line; the narrow one breaks the head at the space in its name. -/
theorem words_of_spacedLayout :
    ∃ wide narrow, unitText {} spacedLayout = .ok wide ∧
      unitText { maxCol := 30 } spacedLayout = .ok narrow ∧
      words wide.toList = words narrow.toList := by
  obtain ⟨wide, hwide⟩ : ∃ text, unitText {} spacedLayout = .ok text := by
    rw [exists_spacedLayout_iff]
    exact ⟨Formatter.wraps_of_fits (by decide), Formatter.wraps_of_fits (by decide),
      Formatter.wraps_of_fits (by decide), Formatter.wraps_of_fits (by decide)⟩
  obtain ⟨narrow, hnarrow⟩ : ∃ text, unitText { maxCol := 30 } spacedLayout = .ok text := by
    rw [exists_spacedLayout_iff]
    have hhead : Formatter.Wraps { maxCol := 30 } "enum class réponse brève_e : uint8_t \x7b" 0 :=
      Formatter.wraps_iff.mpr (Or.inr ⟨_, _, rfl, .last (by decide)⟩)
    exact ⟨Formatter.wraps_of_fits (by decide), hhead, Formatter.wraps_of_fits (by decide),
      Formatter.wraps_of_fits (by decide)⟩
  exact ⟨wide, narrow, hwide, hnarrow, words_unitText_eq hwide hnarrow⟩

end Reader

end ReaderGen
