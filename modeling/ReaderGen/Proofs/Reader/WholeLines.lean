import ReaderGen.Proofs.Reader.Emitters

/-!
# ReaderGen.Proofs.Reader.WholeLines -- an emitter that fails has written whole lines

A composite emitter sends logical lines to a sheet one by one, each with a depth of its own, and
any of them may turn out to be too long. **What is on the sheet afterwards is what was there
before, then the physical lines of the logical lines in front of the first that cannot be
wrapped, and nothing else** (`emitter_writes_whole_lines`). If there is no such line, all of them
are on the sheet, and behind a deferred body its closing text.

The emitters here are the programs that write a unit, run on a sheet. What they write is read off
their entries, which they are shown to write in ReaderGen.Proofs.Reader.Emitters.

The sheet is usable after a failure: a call adds behind the text that it finds what it would
write on a blank sheet, however that text came about (`session_eq`).
-/

namespace ReaderGen.Reader

open Writer

/-! ## Emitters -/

/-- A line before it is wrapped. -/
structure LogicalLine where
  text : String
  depth : Nat
  deriving DecidableEq, Repr

/-- The line as something to be written. -/
def LogicalLine.entry (line : LogicalLine) : Entry := .line line.text line.depth

/-- The logical line that an entry is; raw text is none. -/
def Entry.logical? : Entry → Option LogicalLine
  | .line text depth => some ⟨text, depth⟩
  | .raw _ => none

/-- A composite emitter with what it is given. -/
inductive Emitter where
  | forwards (names : List String)
  | enumeration (body : Enumeration) (depth : Nat)
  | taggedBase (body : TaggedBase) (depth : Nat)
  | accessorClass (body : AccessorClass) (pointer : String) (depth : Nat)
  | accessor (body : Accessor) (pointer : String) (depth : Nat)
  | declaration (body : Declaration) (pointer : String)
  | outlined (deferred : Deferred) (pointer : String)
  deriving DecidableEq, Repr

namespace Emitter

/-- Runs an emitter. -/
def emit : Emitter → Writer Unit
  | forwards names => emitForwards names
  | enumeration body depth => emitEnumeration body depth
  | taggedBase body depth => emitTaggedBase body depth
  | accessorClass body pointer depth => emitAccessorClass body pointer depth
  | accessor body pointer depth => emitAccessor body pointer depth
  | declaration body pointer => emitDeclaration body pointer
  | outlined deferred pointer => emitDeferred deferred pointer

/-- What an emitter writes. -/
def entries : Emitter → List Entry
  | forwards names => forwardLines names
  | enumeration body depth => enumerationLines body depth
  | taggedBase body depth => taggedBaseLines body depth
  | accessorClass body pointer depth => accessorClassLines body pointer depth
  | accessor body pointer depth => accessorLines body pointer depth
  | declaration body pointer => declarationLines body pointer
  | outlined deferred pointer => deferredLines deferred pointer

/-- The logical lines that an emitter sends, in order. -/
def lines (emitter : Emitter) : List LogicalLine :=
  emitter.entries.filterMap Entry.logical?

/-- The raw text that an emitter ends with: only a deferred body has one. -/
def closingText : Emitter → Option String
  | outlined _ _ => some (closing ++ "\n\n")
  | _ => none

end Emitter

/-- **Each emitter writes its entries.** -/
theorem writes_emitter (emitter : Emitter) : Writes emitter.emit emitter.entries := by
  cases emitter with
  | forwards names => exact writes_emitForwards names
  | enumeration body depth => exact writes_emitEnumeration body depth
  | taggedBase body depth => exact writes_emitTaggedBase body depth
  | accessorClass body pointer depth => exact writes_emitAccessorClass body pointer depth
  | accessor body pointer depth => exact writes_emitAccessor body pointer depth
  | declaration body pointer => exact writes_emitDeclaration body pointer
  | outlined deferred pointer => exact writes_emitDeferred deferred pointer

/-! ## Entries that are lines -/

/-- The entry is a logical line. -/
def Entry.IsLine (entry : Entry) : Prop := ∃ line : LogicalLine, entry = line.entry

theorem isLine_line (text : String) (depth : Nat) : (Entry.line text depth).IsLine :=
  ⟨⟨text, depth⟩, rfl⟩

theorem map_entry_logical {entries : List Entry} (h : ∀ entry ∈ entries, entry.IsLine) :
    (entries.filterMap Entry.logical?).map LogicalLine.entry = entries := by
  induction entries with
  | nil => rfl
  | cons entry rest ih =>
    rw [List.forall_mem_cons] at h
    obtain ⟨⟨line, rfl⟩, hrest⟩ := h
    show line.entry :: (rest.filterMap Entry.logical?).map LogicalLine.entry = _
    rw [ih hrest]

theorem function_isLine (header : String) (body : List String) (depth : Nat) :
    ∀ entry ∈ function header body depth, entry.IsLine :=
  forall_function.mpr ⟨isLine_line _ _, fun _ _ => isLine_line _ _, isLine_line _ _⟩

/-- Every branch of an accessor, by value and cardinality, sends lines only. -/
theorem accessorLines_isLine (accessor : Accessor) (pointer : String) (depth : Nat) :
    ∀ entry ∈ accessorLines accessor pointer depth, entry.IsLine := by
  have hprototype : ∀ text, ∀ entry ∈ [Entry.line text depth], entry.IsLine :=
    fun text => List.forall_mem_singleton.mpr (isLine_line text depth)
  obtain ⟨field, offset, value, cardinality⟩ := accessor
  cases cardinality with
  | single =>
    cases value with
    | object => exact hprototype _
    | _ => exact function_isLine _ _ _
  | «repeated» stride =>
    rw [show accessorLines ⟨field, offset, value, .repeated stride⟩ pointer depth =
        sizeLines ⟨field, offset, value, .repeated stride⟩ pointer depth ++
          elementLines ⟨field, offset, value, .repeated stride⟩ stride pointer depth from rfl,
      List.forall_mem_append]
    refine ⟨function_isLine _ _ _, ?_⟩
    cases value with
    | object => exact hprototype _
    | _ => exact function_isLine _ _ _

theorem attributeLines_isLine (attributes : List Attribute) (depth : Nat) :
    ∀ entry ∈ attributeLines attributes depth, entry.IsLine :=
  forall_attributeLines.mpr fun _ _ => isLine_line _ _

theorem classLines_isLine {members : List Entry} (h : ∀ entry ∈ members, entry.IsLine)
    (name parent : String) (depth : Nat) :
    ∀ entry ∈ classLines name parent members depth, entry.IsLine :=
  forall_classLines.mpr
    ⟨isLine_line _ _, isLine_line _ _, h, isLine_line _ _, isLine_line _ _⟩

theorem enumerationLines_isLine (enumeration : Enumeration) (depth : Nat) :
    ∀ entry ∈ enumerationLines enumeration depth, entry.IsLine :=
  forall_enumerationLines.mpr
    ⟨isLine_line _ _, isLine_line _ _, isLine_line _ _, isLine_line _ _⟩

theorem taggedBaseLines_isLine (base : TaggedBase) (depth : Nat) :
    ∀ entry ∈ taggedBaseLines base depth, entry.IsLine := by
  apply classLines_isLine
  rw [List.forall_mem_append]
  exact ⟨function_isLine _ _ _, attributeLines_isLine _ _⟩

theorem accessorClassLines_isLine (cls : AccessorClass) (pointer : String) (depth : Nat) :
    ∀ entry ∈ accessorClassLines cls pointer depth, entry.IsLine := by
  apply classLines_isLine
  rw [List.forall_mem_append]
  refine ⟨?_, attributeLines_isLine _ _⟩
  intro entry hentry
  obtain ⟨accessor, -, hmem⟩ := List.mem_flatMap.mp hentry
  exact accessorLines_isLine accessor pointer (depth + 1) entry hmem

/-- **An emitter sends its lines and then its closing text.** -/
theorem Emitter.entries_eq (emitter : Emitter) :
    emitter.entries =
      emitter.lines.map LogicalLine.entry ++ emitter.closingText.toList.map .raw := by
  have hlines : ∀ {entries : List Entry}, (∀ entry ∈ entries, entry.IsLine) →
      entries = (entries.filterMap Entry.logical?).map LogicalLine.entry ++ [] := by
    intro entries h
    rw [map_entry_logical h, List.append_nil]
  cases emitter with
  | forwards names =>
    exact hlines (forall_forwardLines.mpr ⟨fun _ _ => isLine_line _ _, isLine_line _ _⟩)
  | enumeration body depth => exact hlines (enumerationLines_isLine body depth)
  | taggedBase body depth => exact hlines (taggedBaseLines_isLine body depth)
  | accessorClass body pointer depth => exact hlines (accessorClassLines_isLine body pointer depth)
  | accessor body pointer depth => exact hlines (accessorLines_isLine body pointer depth)
  | declaration body pointer =>
    apply hlines
    cases body with
    | enumeration body => exact enumerationLines_isLine body 0
    | taggedBase body => exact taggedBaseLines_isLine body 0
    | accessorClass body => exact accessorClassLines_isLine body pointer 0
  | outlined deferred pointer =>
    -- the closing text is the last entry, and all entries in front of it are lines
    show deferredLines deferred pointer =
      ((deferredLines deferred pointer).filterMap Entry.logical?).map LogicalLine.entry ++
        [.raw (closing ++ "\n\n")]
    have hfront : ∀ entry ∈ (Entry.line (outlinedHead deferred pointer) 0) ::
        (outlinedBody deferred.accessor).map (Entry.line · 1), entry.IsLine := by
      rw [List.forall_mem_cons, List.forall_mem_map]
      exact ⟨isLine_line _ _, fun _ _ => isLine_line _ _⟩
    rw [deferredLines_eq, ← List.cons_append, List.filterMap_append, List.map_append,
      map_entry_logical hfront]
    show _ = _ ++ [] ++ _
    rw [List.append_nil]

/-! ## Writing lines -/

/-- The texts of logical lines, each made of its physical lines. -/
def Formatted (formatter : Formatter) (lines : List LogicalLine) (texts : List String) : Prop :=
  List.Forall₂ (fun line text => ∃ physical,
    formatter.format line.text line.depth = .ok physical ∧ text = String.join physical) lines texts

section Lines

variable {formatter : Formatter} {line : LogicalLine}

theorem physical_entry_eq_ok_iff {text : String} :
    line.entry.physical formatter = .ok text ↔
      ∃ physical, formatter.format line.text line.depth = .ok physical ∧
        text = String.join physical := by
  rw [LogicalLine.entry, Entry.physical]
  cases formatter.format line.text line.depth <;> simp [eq_comm]

/-- The fault of a line is that of its wrapping. -/
theorem physical_entry_eq_error_iff {fault : Reflow.Unbreakable} :
    line.entry.physical formatter = .error fault ↔
      formatter.reflow line.text line.depth = .error fault := by
  rw [LogicalLine.entry, Entry.physical, Formatter.format]
  cases formatter.reflow line.text line.depth <;> simp

end Lines

/-- Lines have their texts exactly if each of them can be wrapped. -/
theorem exists_formatted_iff {formatter : Formatter} {lines : List LogicalLine} :
    (∃ texts, Formatted formatter lines texts) ↔
      ∀ line ∈ lines, ∃ pieces, formatter.reflow line.text line.depth = .ok pieces := by
  rw [show Formatted formatter lines = List.Forall₂ _ lines from rfl, exists_forall₂_iff]
  apply forall₂_congr
  intro line _
  rw [← Formatter.wraps_iff_reflow, Formatter.Wraps]
  constructor
  · rintro ⟨_, physical, hphysical, -⟩
    exact ⟨physical, hphysical⟩
  · rintro ⟨physical, hphysical⟩
    exact ⟨_, physical, hphysical, rfl⟩

section Writing

variable {sheet after : Sheet} {lines : List LogicalLine} {tail : List String}

/-- The texts of lines and of raw text behind them. -/
theorem forall₂_physical_iff {formatter : Formatter} {texts : List String} :
    List.Forall₂ (fun entry text => entry.physical formatter = .ok text)
        (lines.map LogicalLine.entry ++ tail.map .raw) texts ↔
      ∃ written, Formatted formatter lines written ∧ texts = written ++ tail := by
  have hraw : ∀ texts, List.Forall₂ (fun entry text => entry.physical formatter = .ok text)
      (tail.map Entry.raw) texts ↔ texts = tail := by
    intro texts
    rw [List.forall₂_map_left_iff]
    simp only [Entry.physical, Except.ok.injEq, List.forall₂_eq_eq_eq]
    exact eq_comm
  simp only [forall₂_append_left_iff, List.forall₂_map_left_iff, physical_entry_eq_ok_iff, hraw]
  constructor
  · rintro ⟨written, _, rfl, hwritten, rfl⟩
    exact ⟨written, hwritten, rfl⟩
  · rintro ⟨written, hwritten, rfl⟩
    exact ⟨written, tail, rfl, hwritten, rfl⟩

theorem write_lines_eq_ok_iff :
    sheet.write (lines.map LogicalLine.entry ++ tail.map .raw) = .ok () after ↔
      ∃ texts, Formatted sheet.formatter lines texts ∧
        after = { sheet with text := sheet.text ++ String.join texts ++ String.join tail } := by
  rw [write_eq_ok_iff]
  simp only [forall₂_physical_iff]
  constructor
  · rintro ⟨_, ⟨texts, htexts, rfl⟩, rfl⟩
    exact ⟨texts, htexts, by rw [String.join_append, String.append_assoc]⟩
  · rintro ⟨texts, htexts, rfl⟩
    exact ⟨_, ⟨texts, htexts, rfl⟩, by rw [String.join_append, String.append_assoc]⟩

/-- Raw text does not fail, so the first entry that fails is a line. -/
theorem exists_line_of_fault {before rest : List Entry} {entry : Entry}
    {fault : Reflow.Unbreakable}
    (hsplit : lines.map LogicalLine.entry ++ tail.map .raw = before ++ entry :: rest)
    (hfault : entry.physical sheet.formatter = .error fault) :
    ∃ front line back, lines = front ++ line :: back ∧
      before = front.map LogicalLine.entry ∧ entry = line.entry := by
  have hnotRaw : entry ∉ tail.map Entry.raw := by
    intro hmem
    obtain ⟨text, -, rfl⟩ := List.mem_map.mp hmem
    exact nomatch hfault
  obtain ⟨more, hbefore, hraw⟩ | ⟨more, hlines, hraw⟩ := List.append_eq_append_iff.mp hsplit
  · refine absurd ?_ hnotRaw
    rw [hraw]
    exact List.mem_append_right more (List.mem_cons_self ..)
  · cases more with
    | nil =>
      refine absurd ?_ hnotRaw
      rw [← List.nil_append (tail.map Entry.raw), ← hraw]
      exact List.mem_cons_self ..
    | cons first more =>
      obtain ⟨rfl, -⟩ := List.cons.inj hraw
      obtain ⟨front, behind, rfl, rfl, hbehind⟩ := List.map_eq_append_iff.mp hlines
      obtain ⟨line, back, rfl, rfl, -⟩ := List.map_eq_cons_iff.mp hbehind
      exact ⟨front, line, back, rfl, rfl, rfl⟩

theorem write_lines_eq_error_iff {fault : Reflow.Unbreakable} :
    sheet.write (lines.map LogicalLine.entry ++ tail.map .raw) = .error fault after ↔
      ∃ front line back texts, lines = front ++ line :: back ∧
        Formatted sheet.formatter front texts ∧
        sheet.formatter.reflow line.text line.depth = .error fault ∧
        after = { sheet with text := sheet.text ++ String.join texts } := by
  rw [write_eq_error_iff]
  constructor
  · rintro ⟨before, entry, rest, texts, hsplit, htexts, hfault, rfl⟩
    obtain ⟨front, line, back, rfl, rfl, rfl⟩ := exists_line_of_fault hsplit hfault
    rw [List.forall₂_map_left_iff] at htexts
    simp only [physical_entry_eq_ok_iff] at htexts
    exact ⟨front, line, back, texts, rfl, htexts, physical_entry_eq_error_iff.mp hfault, rfl⟩
  · rintro ⟨front, line, back, texts, rfl, htexts, hfault, rfl⟩
    refine ⟨front.map LogicalLine.entry, line.entry,
      back.map LogicalLine.entry ++ tail.map .raw, texts, ?_, ?_,
      physical_entry_eq_error_iff.mpr hfault, rfl⟩
    · rw [List.map_append, List.map_cons, List.append_assoc, List.cons_append]
    · rw [List.forall₂_map_left_iff]
      simp only [physical_entry_eq_ok_iff]
      exact htexts

end Writing

/-! ## Sessions -/

/-- A call to a writer: of an emitter, or of what the emitters are made of. -/
inductive Call where
  | composite (emitter : Emitter)
  | line (text : String) (depth : Nat)
  | blank
  | raw (text : String)
  deriving DecidableEq, Repr

namespace Call

/-- Runs a call. -/
def step : Call → Writer Unit
  | composite emitter => emitter.emit
  | line text depth => emit text depth
  | blank => pushBlank
  | raw text => pushRaw text

/-- What a call writes. -/
def entries : Call → List Entry
  | composite emitter => emitter.entries
  | line text depth => [.line text depth]
  | blank => [.raw "\n"]
  | raw text => [.raw text]

end Call

theorem writes_call (call : Call) : Writes call.step call.entries := by
  cases call with
  | composite emitter => exact writes_emitter emitter
  | line text depth => exact writes_emit text depth
  | blank => exact writes_pushRaw "\n"
  | raw text => exact writes_pushRaw text

/-- What the caller of a step is left with: the sheet, and how the step ended. -/
def outcome : EStateM.Result Reflow.Unbreakable Sheet Unit → Sheet × Except Reflow.Unbreakable Unit
  | .ok () after => (after, .ok ())
  | .error fault after => (after, .error fault)

/-- Makes calls one after another, also behind a call that has failed. -/
def Sheet.session (sheet : Sheet) : List Call → Sheet × List (Except Reflow.Unbreakable Unit)
  | [] => (sheet, [])
  | call :: calls =>
    let (after, ended) := outcome (call.step.run sheet)
    let (last, outcomes) := after.session calls
    (last, ended :: outcomes)

/-- The text that a call leaves on a blank sheet. -/
def addition (formatter : Formatter) (call : Call) : String :=
  (outcome (call.step.run (Sheet.blank formatter))).1.text

/-- How a call on a blank sheet ends. -/
def ending (formatter : Formatter) (call : Call) : Except Reflow.Unbreakable Unit :=
  (outcome (call.step.run (Sheet.blank formatter))).2

theorem write_behind (formatter : Formatter) (front text : String) (entries : List Entry) :
    outcome ((Sheet.mk formatter (front ++ text)).write entries) =
      (⟨formatter, front ++ (outcome ((Sheet.mk formatter text).write entries)).1.text⟩,
        (outcome ((Sheet.mk formatter text).write entries)).2) := by
  induction entries generalizing text with
  | nil => rfl
  | cons entry rest ih =>
    simp only [Sheet.write]
    cases entry.physical formatter with
    | error fault => rfl
    | ok written =>
      show outcome ((Sheet.mk formatter (front ++ text ++ written)).write rest) = _
      rw [String.append_assoc, ih]

/-- **A call adds the same text to every sheet**, and ends alike on all of them. -/
theorem outcome_eq_addition (sheet : Sheet) (call : Call) :
    outcome (call.step.run sheet) =
      ({ sheet with text := sheet.text ++ addition sheet.formatter call },
        ending sheet.formatter call) := by
  obtain ⟨formatter, text⟩ := sheet
  have h := write_behind formatter text "" call.entries
  rw [String.append_empty] at h
  simp only [addition, ending, Sheet.blank, writes_call call _]
  exact h

theorem session_eq (sheet : Sheet) (calls : List Call) :
    sheet.session calls =
      ({ sheet with text := sheet.text ++ String.join (calls.map (addition sheet.formatter)) },
        calls.map (ending sheet.formatter)) := by
  induction calls generalizing sheet with
  | nil => simp [Sheet.session]
  | cons call calls ih =>
    simp only [Sheet.session, outcome_eq_addition, ih, List.map_cons, String.join_cons,
      String.append_assoc]

/-! ## Emitters on a sheet -/

/-- **A failing emitter has written whole lines only.** An emitter ends exactly if each of its
logical lines can be wrapped at its depth. It has then added the physical lines of all of them and
its closing text; otherwise it has added those of the lines in front of the first that cannot be
wrapped, and its fault is the fault of that line. The text that was on the sheet is kept, and
later calls add, behind what they find, what each of them writes on a blank sheet. -/
theorem emitter_writes_whole_lines (sheet : Sheet) (emitter : Emitter) :
    ((∃ after, emitter.emit.run sheet = .ok () after) ↔
      ∀ line ∈ emitter.lines, ∃ pieces,
        sheet.formatter.reflow line.text line.depth = .ok pieces) ∧
    (∀ after, emitter.emit.run sheet = .ok () after ↔
      ∃ texts, Formatted sheet.formatter emitter.lines texts ∧
        after = { sheet with
          text := sheet.text ++ String.join texts ++ emitter.closingText.getD "" }) ∧
    (∀ after fault, emitter.emit.run sheet = .error fault after ↔
      ∃ front line back texts, emitter.lines = front ++ line :: back ∧
        Formatted sheet.formatter front texts ∧
        sheet.formatter.reflow line.text line.depth = .error fault ∧
        after = { sheet with text := sheet.text ++ String.join texts }) ∧
    (∀ calls, sheet.session (.composite emitter :: calls) =
      ({ sheet with
          text := sheet.text ++ addition sheet.formatter (.composite emitter) ++
            String.join (calls.map (addition sheet.formatter)) },
        ending sheet.formatter (.composite emitter) :: calls.map (ending sheet.formatter))) := by
  have hok : ∀ after, emitter.emit.run sheet = .ok () after ↔
      ∃ texts, Formatted sheet.formatter emitter.lines texts ∧
        after = { sheet with
          text := sheet.text ++ String.join texts ++ emitter.closingText.getD "" } := by
    intro after
    have hclosing : String.join emitter.closingText.toList = emitter.closingText.getD "" := by
      cases emitter.closingText <;> simp
    rw [writes_emitter emitter sheet, emitter.entries_eq, write_lines_eq_ok_iff, hclosing]
  refine ⟨?_, hok, ?_, ?_⟩
  · simp only [hok]
    rw [← exists_formatted_iff]
    constructor
    · rintro ⟨_, texts, htexts, -⟩
      exact ⟨texts, htexts⟩
    · rintro ⟨texts, htexts⟩
      exact ⟨_, texts, htexts, rfl⟩
  · intro after fault
    rw [writes_emitter emitter sheet, emitter.entries_eq, write_lines_eq_error_iff]
  · intro calls
    rw [session_eq, List.map_cons, List.map_cons, String.join_cons, String.append_assoc]

end ReaderGen.Reader
