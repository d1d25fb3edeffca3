import ReaderGen.Proofs.Reader.Lines

/-!
# ReaderGen.Proofs.Reader.Emitters -- every emitter writes its lines

An emitter is a program on a sheet, with branches, loops and early ends, and its lines are a list.
Here the two meet: **on every sheet, an emitter does what writing its lines does** (`Writes`). It
leaves the same text, ends or fails alike, and a failure leaves the text that stood when it
happened.

Two rules carry this through every emitter: steps in sequence write what each of them writes, in
order (`Writes.append`), and a loop writes what its rounds write (`writes_for`). So there is one
lemma for each emitter, and a unit is written as its entries say (`unitText_eq_render`).
-/

namespace ReaderGen.Reader

open Writer

/-- On every sheet, the step does what writing the entries does. -/
def Writes (step : Writer Unit) (entries : List Entry) : Prop :=
  ∀ sheet, step.run sheet = sheet.write entries

/-! ## Steps in sequence -/

theorem write_append (sheet : Sheet) (front back : List Entry) :
    sheet.write (front ++ back) =
      match sheet.write front with
      | .ok () after => after.write back
      | .error fault after => .error fault after := by
  induction front generalizing sheet with
  | nil => rfl
  | cons entry front ih =>
    simp only [List.cons_append, Sheet.write]
    cases entry.physical sheet.formatter with
    | error fault => rfl
    | ok text => exact ih _

section Sequence

variable {first second : Writer Unit} {front back : List Entry}

/-- **A failure of the first step is the end of both**: the second runs behind a first that
ended. -/
theorem Writes.append (hfirst : Writes first front) (hsecond : Writes second back) :
    Writes (do first; second) (front ++ back) := by
  intro sheet
  rw [write_append, ← hfirst sheet]
  show EStateM.bind first (fun _ => second) sheet = _
  rw [EStateM.bind, EStateM.run]
  cases first sheet with
  | error fault after => rfl
  | ok _ after => exact hsecond after

/-- A loop writes what its rounds write, in order, and then what stands behind it. -/
theorem Writes.for_append {α : Type} {step : α → Writer Unit} {entries : α → List Entry}
    (h : ∀ item, Writes (step item) (entries item)) (items : List α)
    (hsecond : Writes second back) :
    Writes (do
        for item in items do
          step item
        second)
      (items.flatMap entries ++ back) := by
  induction items with
  | nil => exact hsecond
  | cons item items ih =>
    have hround := (h item).append ih
    simpa only [List.forIn_cons, bind_assoc, pure_bind, List.flatMap_cons, List.append_assoc]
      using hround

/-- A loop alone. -/
theorem writes_for {α : Type} {step : α → Writer Unit} {entries : α → List Entry}
    (h : ∀ item, Writes (step item) (entries item)) (items : List α) :
    Writes (do
        for item in items do
          step item)
      (items.flatMap entries) := by
  have hnothing : Writes (pure ()) [] := fun _ => rfl
  have hloop := Writes.for_append h items hnothing
  rwa [List.append_nil] at hloop

end Sequence

/-! ## Single lines -/

theorem writes_pushRaw (text : String) : Writes (pushRaw text) [.raw text] := fun _ => rfl

/-- Pieces that are pushed one by one stand on the sheet as one text. -/
theorem write_raws (sheet : Sheet) (pieces : List String) :
    sheet.write (pieces.map .raw) =
      .ok () { sheet with text := sheet.text ++ String.join pieces } := by
  induction pieces generalizing sheet with
  | nil => simp [Sheet.write]
  | cons piece pieces ih =>
    simp only [List.map_cons, Sheet.write, Entry.physical, ih, String.join_cons,
      String.append_assoc]

/-- **Nothing of a line is written unless all of it is**: it is wrapped before its first piece is
written. -/
theorem writes_emit (line : String) (depth : Nat) :
    Writes (emit line depth) [.line line depth] := by
  intro sheet
  have hpieces : ∀ pieces : List String,
      Writes (do for physical in pieces do pushRaw physical) (pieces.map .raw) := by
    intro pieces
    rw [List.map_eq_flatMap]
    exact writes_for writes_pushRaw pieces
  rw [Sheet.write, Entry.physical]
  rw [emit, EStateM.run_bind, EStateM.run_get]
  dsimp only
  cases sheet.formatter.format line depth with
  | error fault => rfl
  | ok pieces => exact (hpieces pieces sheet).trans (write_raws sheet pieces)

/-- A line in front of a step. -/
theorem Writes.line {step : Writer Unit} {entries : List Entry} (line : String) (depth : Nat)
    (h : Writes step entries) :
    Writes (do emit line depth; step) (.line line depth :: entries) :=
  (writes_emit line depth).append h

/-! ## Emitters -/

theorem writes_emitForwards (names : List String) :
    Writes (emitForwards names) (forwardLines names) := by
  rw [forwardLines, List.map_eq_flatMap]
  exact .for_append (fun name => writes_emit _ 0) names (writes_emit "" 0)

theorem writes_emitEnumeration (enumeration : Enumeration) (depth : Nat) :
    Writes (emitEnumeration enumeration depth) (enumerationLines enumeration depth) :=
  .line _ _ <| .line _ _ <| .line _ _ <| writes_emit _ _

theorem writes_emitAttributes (attributes : List Attribute) (depth : Nat) :
    Writes (emitAttributes attributes depth) (attributeLines attributes depth) := by
  rw [attributeLines, List.map_eq_flatMap]
  exact writes_for (fun member => writes_emit _ depth) attributes

theorem writes_emitTaggedBase (base : TaggedBase) (depth : Nat) :
    Writes (emitTaggedBase base depth) (taggedBaseLines base depth) := by
  have hmembers := (writes_emitAttributes base.attributes (depth + 1)).append
    (.line (closing ++ ";") depth (writes_emit "" depth))
  have hheader : "class " ++ className base.typeName ++ " : public " ++ "Obj" =
      "class " ++ className base.typeName ++ " : public Obj" :=
    String.append_assoc
  simp only [taggedBaseLines, classLines, function, hheader, List.append_assoc]
  exact .line _ _ <| .line _ _ <| .line _ _ <| .line _ _ <| .line _ _ hmembers

/-- An accessor of an object ends behind its prototype; any other goes on to its body. -/
theorem writes_emitAccessor (accessor : Accessor) (pointer : String) (depth : Nat) :
    Writes (emitAccessor accessor pointer depth) (accessorLines accessor pointer depth) := by
  obtain ⟨field, offset, value, cardinality⟩ := accessor
  cases cardinality with
  | single =>
    cases value with
    | object => exact writes_emit _ _
    | _ =>
      simp only [emitAccessor, pure_bind]
      exact .line _ _ <| .line _ _ <| writes_emit _ _
  | «repeated» stride =>
    -- the count stands in front of both ends
    cases value with
    | object =>
      simp only [emitAccessor]
      exact .line _ _ <| .line _ _ <| .line _ _ <| writes_emit _ _
    | _ =>
      simp only [emitAccessor, pure_bind]
      exact .line _ _ <| .line _ _ <| .line _ _ <| .line _ _ <| .line _ _ <| .line _ _ <|
        writes_emit _ _

theorem writes_emitAccessorClass (cls : AccessorClass) (pointer : String) (depth : Nat) :
    Writes (emitAccessorClass cls pointer depth) (accessorClassLines cls pointer depth) := by
  have hattributes := (writes_emitAttributes cls.attributes (depth + 1)).append
    (.line (closing ++ ";") depth (writes_emit "" depth))
  have hmembers := Writes.for_append
    (fun accessor => writes_emitAccessor accessor pointer (depth + 1)) cls.accessors hattributes
  simp only [accessorClassLines, classLines, List.append_assoc]
  exact .line _ _ <| .line _ _ hmembers

theorem writes_emitDeclaration (declaration : Declaration) (pointer : String) :
    Writes (emitDeclaration declaration pointer) (declarationLines declaration pointer) := by
  cases declaration with
  | enumeration body => exact writes_emitEnumeration body 0
  | taggedBase body => exact writes_emitTaggedBase body 0
  | accessorClass body => exact writes_emitAccessorClass body pointer 0

theorem writes_emitDeferred (deferred : Deferred) (pointer : String) :
    Writes (emitDeferred deferred pointer) (deferredLines deferred pointer) := by
  obtain ⟨owner, ⟨field, offset, value, cardinality⟩⟩ := deferred
  have hend := Writes.line (downcast ⟨field, offset, value, cardinality⟩) 1
    (writes_pushRaw (closing ++ "\n\n"))
  cases cardinality with
  | single => exact .line _ _ hend
  | «repeated» stride => exact .line _ _ <| .line _ _ hend

/-! ## The unit -/

/-- A unit is written as its entries say. -/
theorem writes_emitUnit (layout : Layout) : Writes (emitUnit layout) (unitEntries layout) := by
  have hbodies := Writes.for_append
    (fun deferred => writes_emitDeferred deferred layout.encoding.indexElement.typeName)
    layout.deferred (writes_pushRaw (epilogue layout.encoding))
  have hdeclarations := Writes.for_append
    (fun declaration => writes_emitDeclaration declaration layout.encoding.indexElement.typeName)
    layout.declarations hbodies
  simp only [unitEntries, List.append_assoc]
  exact (writes_pushRaw _).append <| (writes_emitForwards _).append hdeclarations

/-- What a step leaves on a blank sheet is the text of its entries. -/
theorem Writes.text_eq {step : Writer Unit} {entries : List Entry} (h : Writes step entries)
    (formatter : Formatter) : step.text formatter = render formatter entries := by
  rw [Writer.text, render, h]
  cases (Sheet.blank formatter).write entries <;> rfl

/-- **The text of a unit is that of its entries.** -/
theorem unitText_eq_render (formatter : Formatter) (layout : Layout) :
    unitText formatter layout = render formatter (unitEntries layout) :=
  (writes_emitUnit layout).text_eq formatter

end ReaderGen.Reader
