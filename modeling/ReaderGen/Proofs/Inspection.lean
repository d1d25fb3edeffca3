import ReaderGen.Proofs.Json.Text
import ReaderGen.Proofs.Layout.Record
import ReaderGen.Proofs.Reader.LineBudget

/-!
# ReaderGen.Proofs.Inspection -- the printed layout is all that the reader depends on

A request can ask for the layout in place of the reader. What it prints then is a record of
the layout, and the record is read back (`Layout.reads`), so the reader that the same request
gives otherwise can be written from the print alone.

The library that reads the JSON text is a parameter. **It has to give back what was printed,
up to the order of keys**; `Json.read?` is such a reader.
-/

namespace ReaderGen

/-! ## Requests that give a text -/

/-- A request gives a text exactly if every stage passes on what the next one needs. -/
theorem Request.run_eq_ok_iff {request : Request} {read : String → Except ReadError String}
    {explain : String → String} {text : String} :
    request.run read explain = .ok text ↔ ∃ path encoding schema,
      request.schemaPath? = .ok path ∧ request.encoding = .ok encoding ∧
      loadSchema explain path (read path) = .ok schema ∧
      request.output schema encoding = .ok text := by
  rw [Request.run]
  cases hpath : request.schemaPath? with
  | error fault => simp
  | ok path =>
    cases hencoding : request.encoding with
    | error fault => simp
    | ok encoding =>
      cases hload : loadSchema explain path (read path) with
      | error fault => simp [hload]
      | ok schema => simp [hload, mapError_eq_ok_iff]

theorem output_printLayout_iff {request : Request} {schema : Schema} {encoding : Encoding}
    {dump : String} :
    ({ request with printLayout := true } : Request).output schema encoding = .ok dump ↔
      ∃ layout, layoutOf schema encoding = .ok layout ∧ layoutText layout = dump := by
  simp only [Request.output, if_true]
  cases layoutOf schema encoding <;> simp [Except.map]

theorem output_reader_iff {request : Request} {schema : Schema} {encoding : Encoding}
    {layout : Layout} (hlayout : layoutOf schema encoding = .ok layout) {reader : String} :
    ({ request with printLayout := false } : Request).output schema encoding = .ok reader ↔
      Reader.unitText {} layout = .ok reader := by
  simp [Request.output, readerOf_eq hlayout, mapError_eq_ok_iff]

/-! ## The printed layout is faithful -/

/-- **A layout is printed in full.** Its record, with the keys of its objects in any order, is
read as that layout and no other. So where a request gives both a print of the layout and a
reader, and a JSON library gives back what was printed, the print holds a layout from which
the very same reader is written. -/
theorem printed_layout_faithful :
    (∀ (layout : Layout) (json : Json), json.Rearranged layout.toJson →
      Layout.ofJson? json = some layout) ∧
    ∀ parse : String → Option Json,
      (∀ layout : Layout,
        ∃ json, parse (layoutText layout) = some json ∧ json.Rearranged layout.toJson) →
      ∀ (request : Request) (read : String → Except ReadError String)
        (explain : String → String) (dump reader : String),
        ({ request with printLayout := true } : Request).run read explain = .ok dump →
        ({ request with printLayout := false } : Request).run read explain = .ok reader →
        ∃ layout, (parse dump).bind Layout.ofJson? = some layout ∧
          Reader.unitText {} layout = .ok reader := by
  refine ⟨Layout.reads, fun parse hparse request read explain dump reader hdump hreader => ?_⟩
  obtain ⟨path, encoding, schema, hpath, hencoding, hload, hprinted⟩ :=
    Request.run_eq_ok_iff.mp hdump
  obtain ⟨layout, hlayout, rfl⟩ := output_printLayout_iff.mp hprinted
  have hunit : Reader.unitText {} layout = .ok reader := by
    -- The two requests differ in the last stage alone, so they load the same schema.
    obtain ⟨path', encoding', schema', hpath', hencoding', hload', hwritten⟩ :=
      Request.run_eq_ok_iff.mp hreader
    obtain rfl : path = path' := Except.ok.inj (hpath.symm.trans hpath')
    obtain rfl : encoding = encoding' := Except.ok.inj (hencoding.symm.trans hencoding')
    obtain rfl : schema = schema' := Except.ok.inj (hload.symm.trans hload')
    exact (output_reader_iff hlayout).mp hwritten
  obtain ⟨json, hjson, hrelated⟩ := hparse layout
  exact ⟨layout, by rw [hjson]; exact Layout.reads layout json hrelated, hunit⟩

/-- A simple sum, a compound sum with an attribute, and a product with both marks. -/
def exprSource : String :=
  "module m \x7b op = Add | Sub expr = Bin(expr l, op o) | Num(int n) attributes (int line) " ++
    "block = (expr* body, expr? last) \x7d"

/-- What that source says. -/
def exprSchema : Schema :=
  ⟨"m", [⟨"op", .sum ⟨[⟨"Add", []⟩, ⟨"Sub", []⟩], []⟩⟩,
    ⟨"expr", .sum ⟨[⟨"Bin", [⟨"l", "expr", false, false⟩, ⟨"o", "op", false, false⟩]⟩,
      ⟨"Num", [⟨"n", "int", false, false⟩]⟩], [⟨"line", "int", false, false⟩]⟩⟩,
    ⟨"block", .product ⟨[⟨"body", "expr", true, false⟩, ⟨"last", "expr", false, true⟩], []⟩⟩]⟩

theorem loadSchema_expr (explain : String → String) :
    loadSchema explain "m" (.ok exprSource) = .ok exprSchema := by
  have hparse : Notation.parse exprSource = .ok exprSchema :=
    Notation.parse_of_kinds (by cbv) (by decide)
  have hcomponents : pathComponents "m" = ["m"] := by cbv
  have hformat : SchemaFormat.ofPath "m" = .asdl := by
    simp [SchemaFormat.ofPath, extension?, fileName?, hcomponents]
  simp [loadSchema, readSchema, hformat, hparse, Except.mapError]

/-- The request for its reader, or for its layout. -/
def exprRequest : Request := { action := some "cpp", schemaPath := some "m" }

/-- The print of that schema's layout, read by `Json.read?`, and the record of the layout with
its keys the other way round. -/
theorem printed_expr_faithful :
    (∃ layout members, layoutOf exprSchema .standard = .ok layout ∧
      layout.toJson = .obj members ∧ Layout.ofJson? (.obj members.reverse) = some layout) ∧
    ∃ dump reader,
      ({ exprRequest with printLayout := true } : Request).run (fun _ => .ok exprSource)
        (fun _ => "") = .ok dump ∧
      ({ exprRequest with printLayout := false } : Request).run (fun _ => .ok exprSource)
        (fun _ => "") = .ok reader ∧
      ∃ layout, (Json.read? dump).bind Layout.ofJson? = some layout ∧
        Reader.unitText {} layout = .ok reader := by
  obtain ⟨layout, hlayout, hnames⟩ : ∃ layout, layoutOf exprSchema .standard = .ok layout ∧
      ∀ name ∈ layout.names, Reader.Narrow 16 name := ⟨_, rfl, by decide⟩
  obtain ⟨reader, hreader⟩ := Reader.exists_unitText hnames
  constructor
  · refine ⟨layout, _, hlayout, rfl, printed_layout_faithful.1 layout _ ?_⟩
    exact .obj (List.reverse_perm _) rfl (List.forall₂_same.mpr fun json _ => .refl json)
  · have hread : ∀ layout : Layout,
        ∃ json, Json.read? (layoutText layout) = some json ∧ json.Rearranged layout.toJson :=
      fun layout =>
        ⟨layout.toJson, Json.read?_pretty layout.toJson (by simp [Json.isBlank]), .refl _⟩
    have hdump : ({ exprRequest with printLayout := true } : Request).run
        (fun _ => .ok exprSource) (fun _ => "") = .ok (layoutText layout) :=
      Request.run_eq_ok_iff.mpr ⟨"m", .standard, exprSchema, rfl, rfl, loadSchema_expr _,
        output_printLayout_iff.mpr ⟨layout, hlayout, rfl⟩⟩
    have hwritten : ({ exprRequest with printLayout := false } : Request).run
        (fun _ => .ok exprSource) (fun _ => "") = .ok reader :=
      Request.run_eq_ok_iff.mpr ⟨"m", .standard, exprSchema, rfl, rfl, loadSchema_expr _,
        (output_reader_iff hlayout).mpr hreader⟩
    exact ⟨_, _, hdump, hwritten,
      printed_layout_faithful.2 Json.read? hread exprRequest _ _ _ _ hdump hwritten⟩

end ReaderGen
