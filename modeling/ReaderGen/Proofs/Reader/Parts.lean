import ReaderGen.Proofs.Reader.Emitters

/-!
# ReaderGen.Proofs.Reader.Parts -- a unit is its parts, each rendered alone

One sheet takes all entries of a unit, and every emitter adds to what the others wrote. Here a
part is rendered on a blank sheet of its own, and **the unit is the texts of its parts in order,
between the two texts of the base class** (`unit_is_its_parts`). What was written in front of a
part changes nothing about it, and a fault of the unit is that of its first faulty part.

Nothing is asked of the layout: it need not come from a schema, and its queue of bodies need not
belong to its classes.
-/

namespace ReaderGen

open Reader

namespace Reader

/-! ## Parts -/

/-- What a unit writes for one item of its layout: a name that is declared ahead, a declaration,
or the body of a deferred accessor. -/
inductive Part where
  | forward (name : String)
  | declaration (body : Declaration)
  | outlined (deferred : Deferred)
  deriving DecidableEq, Repr

/-- Writes a part. -/
def Part.emit (pointer : String) : Part → Writer Unit
  | forward name => Writer.emit ("class " ++ className name ++ ";") 0
  | declaration body => Writer.emitDeclaration body pointer
  | outlined deferred => Writer.emitDeferred deferred pointer

/-- The entries of a part. -/
def Part.entries (pointer : String) : Part → List Entry
  | forward name => [.line ("class " ++ className name ++ ";") 0]
  | declaration body => declarationLines body pointer
  | outlined deferred => deferredLines deferred pointer

/-- The text of a part alone, on a blank sheet. -/
def Part.text (formatter : Formatter) (pointer : String) (part : Part) :
    Except Reflow.Unbreakable String :=
  (part.emit pointer).text formatter

theorem writes_part (pointer : String) (part : Part) :
    Writes (part.emit pointer) (part.entries pointer) := by
  cases part with
  | forward name => exact writes_emit _ 0
  | declaration body => exact writes_emitDeclaration body pointer
  | outlined deferred => exact writes_emitDeferred deferred pointer

theorem Part.text_eq_render (formatter : Formatter) (pointer : String) (part : Part) :
    part.text formatter pointer = render formatter (part.entries pointer) :=
  (writes_part pointer part).text_eq formatter

/-- Each piece of a line is ended, so a line that is written leaves a text, also a blank one. -/
theorem physical_line_ne_empty {formatter : Formatter} {line text : String} {depth : Nat}
    (h : (Entry.line line depth).physical formatter = .ok text) : text ≠ "" := by
  rw [Entry.physical, Formatter.format] at h
  cases hreflow : formatter.reflow line depth with
  | error fault => simp [hreflow] at h
  | ok pieces =>
    obtain ⟨piece, rest, rfl⟩ := List.exists_cons_of_ne_nil (Formatter.ne_nil_of_reflow hreflow)
    simp only [hreflow, List.map_cons, Except.ok.injEq] at h
    rw [← h, String.join_cons]
    intro hempty
    simpa using congrArg String.toList hempty

/-- Every part has a line at its head. -/
theorem Part.exists_entries (pointer : String) (part : Part) :
    ∃ line depth rest, part.entries pointer = .line line depth :: rest := by
  cases part with
  | forward name => exact ⟨_, _, _, rfl⟩
  | declaration body => cases body <;> exact ⟨_, _, _, rfl⟩
  | outlined deferred =>
    rw [entries, deferredLines_eq]
    exact ⟨_, _, _, rfl⟩

/-- The texts of parts, each part alone. -/
def Written (formatter : Formatter) (pointer : String) (parts : List Part)
    (texts : List String) : Prop :=
  List.Forall₂ (fun part text => part.text formatter pointer = .ok text) parts texts

end Reader

namespace Layout

/-- The names that a layout declares ahead, as parts. -/
def forwardParts (layout : Layout) : List Part := layout.forwards.map .forward

/-- The declarations of a layout, as parts. -/
def declarationParts (layout : Layout) : List Part := layout.declarations.map .declaration

/-- The deferred bodies of a layout, as parts. -/
def outlinedParts (layout : Layout) : List Part := layout.deferred.map .outlined

/-- The parts of the unit of a layout, in the order of the unit. -/
def parts (layout : Layout) : List Part :=
  layout.forwardParts ++ layout.declarationParts ++ layout.outlinedParts

end Layout

namespace Reader

/-! ## Entries of parts -/

section Sheets

variable {formatter : Formatter} {pointer : String}

/-- An entry in front of others has its text in front of theirs. -/
theorem render_cons_eq_ok_iff {entry : Entry} {entries : List Entry} {first text : String}
    (hfirst : entry.physical formatter = .ok first) :
    render formatter (entry :: entries) = .ok text ↔
      ∃ rest, render formatter entries = .ok rest ∧ text = first ++ rest := by
  have hsingle : render formatter [entry] = .ok first :=
    render_eq_ok_iff.mpr ⟨[first], .cons hfirst .nil, by simp⟩
  rw [← List.singleton_append, render_append_eq_ok_iff]
  constructor
  · rintro ⟨_, rest, hother, hrest, rfl⟩
    cases hsingle.symm.trans hother
    exact ⟨rest, hrest, rfl⟩
  · rintro ⟨rest, hrest, rfl⟩
    exact ⟨first, rest, hsingle, hrest, rfl⟩

/-- **No part is written as nothing.** -/
theorem Part.text_ne_empty {part : Part} {text : String}
    (h : part.text formatter pointer = .ok text) : text ≠ "" := by
  obtain ⟨line, depth, rest, hentries⟩ := part.exists_entries pointer
  rw [Part.text_eq_render, hentries, render_eq_ok_iff] at h
  obtain ⟨texts, htexts, rfl⟩ := h
  obtain ⟨first, more, hfirst, -, rfl⟩ := List.forall₂_cons_left_iff.mp htexts
  rw [String.join_cons]
  intro hempty
  exact physical_line_ne_empty hfirst (String.append_eq_empty_iff.mp hempty).1

/-- The text of several parts is the text of each, in order. -/
theorem render_parts_eq_ok_iff {parts : List Part} {text : String} :
    render formatter (parts.flatMap (Part.entries pointer)) = .ok text ↔
      ∃ texts, Written formatter pointer parts texts ∧ text = String.join texts := by
  induction parts generalizing text with
  | nil => simp [Written, render_eq_ok_iff]
  | cons part parts ih =>
    rw [List.flatMap_cons, render_append_eq_ok_iff]
    simp only [ih]
    simp only [← Part.text_eq_render]
    constructor
    · rintro ⟨first, _, hfirst, ⟨texts, htexts, rfl⟩, rfl⟩
      exact ⟨first :: texts, .cons hfirst htexts, String.join_cons.symm⟩
    · rintro ⟨_, htexts, rfl⟩
      obtain ⟨first, texts, hfirst, hrest, rfl⟩ := List.forall₂_cons_left_iff.mp htexts
      exact ⟨first, _, hfirst, ⟨texts, hrest, rfl⟩, String.join_cons⟩

/-- The first faulty entry of several parts is that of the first faulty part. -/
theorem failsFirst_parts_iff {parts : List Part} {fault : Reflow.Unbreakable} :
    FailsFirst (fun entry : Entry => entry.physical formatter)
        (parts.flatMap (Part.entries pointer)) fault ↔
      FailsFirst (Part.text formatter pointer) parts fault := by
  induction parts with
  | nil => exact iff_of_false not_failsFirst_nil not_failsFirst_nil
  | cons part parts ih =>
    have hfails : part.text formatter pointer = .error fault ↔
        FailsFirst (fun entry : Entry => entry.physical formatter) (part.entries pointer)
          fault := by
      rw [Part.text_eq_render, render_eq_error_iff]
    have hpasses : (∃ text, part.text formatter pointer = .ok text) ↔
        ∀ entry ∈ part.entries pointer, ∃ text, entry.physical formatter = .ok text := by
      rw [Part.text_eq_render, exists_render_iff_physical]
    rw [List.flatMap_cons, failsFirst_append_iff, failsFirst_cons_iff, ih, hfails, hpasses]

theorem physical_raw (text : String) : (Entry.raw text).physical formatter = .ok text :=
  rfl

/-- A blank line is written by every formatter. -/
theorem physical_blank : (Entry.line "" 0).physical formatter = .ok "\n" := by
  simp [Entry.physical, Formatter.format, Formatter.reflow, Formatter.indentation,
    Formatter.columns, Reflow.fits]

theorem exists_written_iff {parts : List Part} :
    (∃ texts, Written formatter pointer parts texts) ↔
      ∀ part ∈ parts, ∃ text, part.text formatter pointer = .ok text :=
  exists_forall₂_iff

end Sheets

/-- The entries of a unit are those of its parts, with the base class around them and a blank
line behind the names ahead. -/
theorem unitEntries_eq_parts (layout : Layout) :
    unitEntries layout =
      .raw (prologue layout.encoding) ::
        (layout.forwardParts.flatMap (Part.entries layout.encoding.indexElement.typeName) ++
          (.line "" 0 ::
            ((layout.declarationParts ++ layout.outlinedParts).flatMap
                (Part.entries layout.encoding.indexElement.typeName) ++
              [.raw (epilogue layout.encoding)]))) := by
  have hforwards : forwardLines layout.forwards =
      layout.forwardParts.flatMap (Part.entries layout.encoding.indexElement.typeName) ++
        [.line "" 0] := by
    rw [forwardLines, Layout.forwardParts, List.flatMap_map, List.map_eq_flatMap]
    rfl
  rw [unitEntries, hforwards, List.flatMap_append, Layout.declarationParts, Layout.outlinedParts,
    List.flatMap_map, List.flatMap_map]
  simp only [List.append_assoc, List.cons_append, List.nil_append]
  rfl

/-! ## The unit -/

section Units

variable {formatter : Formatter} {layout : Layout}

/-- **The text of a unit is made of the texts of its parts.** -/
theorem unitText_eq_ok_iff {text : String} :
    unitText formatter layout = .ok text ↔
      ∃ forwards declarations bodies,
        Written formatter layout.encoding.indexElement.typeName layout.forwardParts forwards ∧
        Written formatter layout.encoding.indexElement.typeName layout.declarationParts
          declarations ∧
        Written formatter layout.encoding.indexElement.typeName layout.outlinedParts bodies ∧
        text = prologue layout.encoding ++ String.join forwards ++ "\n" ++
          String.join declarations ++ String.join bodies ++ epilogue layout.encoding := by
  have hepilogue : ∀ text, render formatter [.raw (epilogue layout.encoding)] = .ok text ↔
      text = epilogue layout.encoding := by
    intro text
    rw [render_cons_eq_ok_iff (physical_raw (epilogue layout.encoding))]
    simp [render_eq_ok_iff]
  rw [unitText_eq_render, unitEntries_eq_parts,
    render_cons_eq_ok_iff (physical_raw (prologue layout.encoding))]
  simp only [render_append_eq_ok_iff, render_cons_eq_ok_iff physical_blank,
    render_parts_eq_ok_iff, hepilogue, List.flatMap_append]
  constructor
  · rintro ⟨_, ⟨_, _, ⟨forwards, hforwards, rfl⟩, ⟨_, ⟨_, _, ⟨_, _, ⟨declarations,
      hdeclarations, rfl⟩, ⟨bodies, hbodies, rfl⟩, rfl⟩, rfl, rfl⟩, rfl⟩, rfl⟩, rfl⟩
    exact ⟨forwards, declarations, bodies, hforwards, hdeclarations, hbodies, by
      simp only [String.append_assoc]⟩
  · rintro ⟨forwards, declarations, bodies, hforwards, hdeclarations, hbodies, rfl⟩
    refine ⟨_, ⟨_, _, ⟨forwards, hforwards, rfl⟩, ⟨_, ⟨_, _, ⟨_, _, ⟨declarations,
      hdeclarations, rfl⟩, ⟨bodies, hbodies, rfl⟩, rfl⟩, rfl, rfl⟩, rfl⟩, rfl⟩, ?_⟩
    simp only [String.append_assoc]

/-- **The fault of a unit is that of its first faulty part.** The texts of the base class and the
blank line are no parts, and have no faults. -/
theorem unitText_eq_error_iff {fault : Reflow.Unbreakable} :
    unitText formatter layout = .error fault ↔
      FailsFirst (Part.text formatter layout.encoding.indexElement.typeName) layout.parts
        fault := by
  have hraw : ∀ text, ¬ (Entry.raw text).physical formatter = .error fault := by
    intro text
    rw [physical_raw]
    exact nofun
  have hrawPasses : ∀ text, ∃ written, (Entry.raw text).physical formatter = .ok written :=
    fun text => ⟨text, physical_raw text⟩
  have hblank : ¬ (Entry.line "" 0).physical formatter = .error fault := by
    rw [physical_blank]
    exact nofun
  have hblankPasses : ∃ written, (Entry.line "" 0).physical formatter = .ok written :=
    ⟨"\n", physical_blank⟩
  rw [unitText_eq_render, render_eq_error_iff, unitEntries_eq_parts, Layout.parts,
    List.append_assoc, ← failsFirst_parts_iff]
  simp only [List.flatMap_append, failsFirst_append_iff, failsFirst_cons_iff, hraw, hrawPasses,
    hblank, hblankPasses, not_failsFirst_nil, false_or, true_and, and_false, or_false]

/-- A unit has a text exactly if each part has one. -/
theorem exists_unitText_iff :
    (∃ text, unitText formatter layout = .ok text) ↔
      ∀ part ∈ layout.parts, ∃ text,
        part.text formatter layout.encoding.indexElement.typeName = .ok text := by
  simp only [unitText_eq_ok_iff, Layout.parts, List.forall_mem_append, ← exists_written_iff]
  constructor
  · rintro ⟨_, forwards, declarations, bodies, hforwards, hdeclarations, hbodies, -⟩
    exact ⟨⟨⟨forwards, hforwards⟩, ⟨declarations, hdeclarations⟩⟩, ⟨bodies, hbodies⟩⟩
  · rintro ⟨⟨⟨forwards, hforwards⟩, ⟨declarations, hdeclarations⟩⟩, ⟨bodies, hbodies⟩⟩
    exact ⟨_, forwards, declarations, bodies, hforwards, hdeclarations, hbodies, rfl⟩

/-- Each part has a text that is not empty and stands within the joined texts. -/
theorem Written.exists_infix {pointer : String} {parts : List Part} {texts : List String}
    (h : Written formatter pointer parts texts) {part : Part} (hmem : part ∈ parts) :
    ∃ text, part.text formatter pointer = .ok text ∧ text ≠ "" ∧
      text.toList <:+: (String.join texts).toList := by
  obtain ⟨text, htext, hpart⟩ := exists_right_of_forall₂ h hmem
  obtain ⟨before, after, rfl⟩ := List.append_of_mem htext
  refine ⟨text, hpart, Part.text_ne_empty hpart, (String.join before).toList,
    (String.join after).toList, ?_⟩
  rw [String.join_append, String.join_cons, String.toList_append, String.toList_append,
    List.append_assoc]

/-- **A unit is the ordered concatenation of its parts, each rendered alone.** It has a text
exactly if every part has one; its text is then the base class, the names ahead, a blank line, the
declarations, the deferred bodies and the bodies of the base class, in this order; and otherwise
its fault is that of its first faulty part. So some cut of the text has every declaration in front
of it and every deferred body behind it, and none of them is empty. -/
theorem unit_is_its_parts (formatter : Formatter) (layout : Layout) :
    ((∃ text, unitText formatter layout = .ok text) ↔
      ∀ part ∈ layout.parts, ∃ text,
        part.text formatter layout.encoding.indexElement.typeName = .ok text) ∧
    (∀ text, unitText formatter layout = .ok text ↔
      ∃ forwards declarations bodies,
        Written formatter layout.encoding.indexElement.typeName layout.forwardParts forwards ∧
        Written formatter layout.encoding.indexElement.typeName layout.declarationParts
          declarations ∧
        Written formatter layout.encoding.indexElement.typeName layout.outlinedParts bodies ∧
        text = prologue layout.encoding ++ String.join forwards ++ "\n" ++
          String.join declarations ++ String.join bodies ++ epilogue layout.encoding) ∧
    (∀ fault, unitText formatter layout = .error fault ↔
      FailsFirst (Part.text formatter layout.encoding.indexElement.typeName) layout.parts fault) ∧
    (∀ text, unitText formatter layout = .ok text → ∃ front back, text = front ++ back ∧
      (∀ part ∈ layout.declarationParts, ∃ written,
        part.text formatter layout.encoding.indexElement.typeName = .ok written ∧
          written ≠ "" ∧ written.toList <:+: front.toList) ∧
      (∀ part ∈ layout.outlinedParts, ∃ written,
        part.text formatter layout.encoding.indexElement.typeName = .ok written ∧
          written ≠ "" ∧ written.toList <:+: back.toList)) := by
  refine ⟨exists_unitText_iff, fun text => unitText_eq_ok_iff, fun fault => unitText_eq_error_iff,
    ?_⟩
  intro text htext
  obtain ⟨forwards, declarations, bodies, -, hdeclarations, hbodies, rfl⟩ :=
    unitText_eq_ok_iff.mp htext
  refine ⟨prologue layout.encoding ++ String.join forwards ++ "\n" ++ String.join declarations,
    String.join bodies ++ epilogue layout.encoding, by simp only [String.append_assoc], ?_, ?_⟩
  · intro part hmem
    obtain ⟨written, hwritten, hne, hinfix⟩ := hdeclarations.exists_infix hmem
    refine ⟨written, hwritten, hne, hinfix.trans ?_⟩
    rw [String.toList_append]
    exact List.infix_append_right
  · intro part hmem
    obtain ⟨written, hwritten, hne, hinfix⟩ := hbodies.exists_infix hmem
    refine ⟨written, hwritten, hne, hinfix.trans ?_⟩
    rw [String.toList_append]
    exact List.infix_append_left

end Units

/-- Leads from the class of `a` to the class of `b`. -/
def linkAccessor : Accessor := ⟨"x", 0, .object "b" false, .single⟩

/-- Two classes, and the body that leads from the first to the second. -/
def linkedLayout : Layout :=
  ⟨1, "m", .standard, ["a", "b"],
    [.accessorClass ⟨.product "a", [linkAccessor], []⟩, .accessorClass ⟨.product "b", [], []⟩],
    [⟨.product "a", linkAccessor⟩]⟩

/-- The body of the link stands behind both classes. -/
theorem unit_is_its_parts_of_link :
    ∃ text, unitText {} linkedLayout = .ok text ∧ ∃ front back, text = front ++ back ∧
      (∀ part ∈ linkedLayout.declarationParts, ∃ written,
        part.text {} "uint32_t" = .ok written ∧ written ≠ "" ∧
          written.toList <:+: front.toList) ∧
      (∀ part ∈ linkedLayout.outlinedParts, ∃ written,
        part.text {} "uint32_t" = .ok written ∧ written ≠ "" ∧
          written.toList <:+: back.toList) := by
  have hwritten : ∃ text, unitText {} linkedLayout = .ok text := by
    rw [exists_unitText_iff]
    simp only [Layout.parts, linkedLayout, Layout.forwardParts, Layout.declarationParts,
      Layout.outlinedParts, List.map_cons, List.map_nil, List.cons_append, List.nil_append,
      List.forall_mem_cons]
    exact ⟨⟨_, rfl⟩, ⟨_, rfl⟩, ⟨_, rfl⟩, ⟨_, rfl⟩, ⟨_, rfl⟩, nofun⟩
  obtain ⟨text, htext⟩ := hwritten
  exact ⟨text, htext, (unit_is_its_parts {} linkedLayout).2.2.2 text htext⟩

end Reader

end ReaderGen
