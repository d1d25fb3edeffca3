import ReaderGen.Proofs.Layout.Denotation
import ReaderGen.Proofs.Reader.Lines
import Mathlib.Tactic.ByContra

/-!
# ReaderGen.Proofs.Reader.Scan -- the functions of a unit, read off its lines

The logical lines of a unit are read here the way a compiler of the generated code would
read them, without the layout that they came from: a line that starts with `inline` is a
function, which has a body if the line ends in a brace, and is a prototype if it ends in a
semicolon. One scan collects the prototypes, each with the head of the class around it
(`prototypesFrom`), another the functions outside every class, with the lines of their
bodies (`outlinedFrom`).

**Both scans find deferred accessors and nothing else**, the first those of the classes
(`prototypesFrom_unitEntries`) and the second those of the queue
(`outlinedFrom_unitEntries`). Every kind of line is passed over by a lemma of its own.
-/

namespace ReaderGen.Reader

/-! ## Reading a line -/

/-- The text starts with that word. -/
def Starts (word text : String) : Prop := word.toList <+: text.toList

/-- The text ends with that mark. -/
def Ends (mark : Char) (text : String) : Prop := text.toList.getLast? = some mark

instance (word text : String) : Decidable (Starts word text) :=
  inferInstanceAs (Decidable (_ <+: _))

instance (mark : Char) (text : String) : Decidable (Ends mark text) :=
  inferInstanceAs (Decidable (_ = _))

/-- A function without a body. -/
def IsPrototype (text : String) : Prop := Starts "inline " text ∧ Ends ';' text

/-- The head of a function whose body follows. -/
def OpensFunction (text : String) : Prop := Starts "inline " text ∧ Ends '\x7b' text

/-- The head of a class whose members follow. A class that is declared ahead is none. -/
def OpensClass (text : String) : Prop := Starts "class " text ∧ Ends '\x7b' text

instance (text : String) : Decidable (IsPrototype text) := inferInstanceAs (Decidable (_ ∧ _))

instance (text : String) : Decidable (OpensFunction text) := inferInstanceAs (Decidable (_ ∧ _))

instance (text : String) : Decidable (OpensClass text) := inferInstanceAs (Decidable (_ ∧ _))

/-! ## Scanning a unit -/

/-- A prototype, with the head of the class that it stands in. -/
structure Prototype where
  scope : Option String
  text : String
  deriving DecidableEq, Repr

/-- A function outside every class: its head and the lines of its body. -/
structure Outlined where
  head : String
  body : List String
  deriving DecidableEq, Repr

/-- The prototypes among the entries, inside the class with the head `scope`. -/
def prototypesFrom (scope : Option String) : List Entry → List Prototype
  | [] => []
  | .raw _ :: rest => prototypesFrom scope rest
  | .line text depth :: rest =>
    if depth = 0 ∧ OpensClass text then prototypesFrom (some text) rest
    else if depth = 0 ∧ text = closing ++ ";" then prototypesFrom none rest
    else if IsPrototype text then ⟨scope, text⟩ :: prototypesFrom scope rest
    else prototypesFrom scope rest

/-- The lines up to the next one without indentation. -/
def indented : List Entry → List String
  | .line text (_ + 1) :: rest => text :: indented rest
  | _ => []

/-- The functions with bodies among the entries that stand outside every class. -/
def outlinedFrom : List Entry → List Outlined
  | [] => []
  | .raw _ :: rest => outlinedFrom rest
  | .line text depth :: rest =>
    if depth = 0 ∧ OpensFunction text then ⟨text, indented rest⟩ :: outlinedFrom rest
    else outlinedFrom rest

/-! ## Lines that a scan passes over -/

/-- Neither a prototype nor the border of a class. -/
def Entry.Inert : Entry → Prop
  | .raw _ => True
  | .line text depth => ¬ IsPrototype text ∧ (depth = 0 → ¬ OpensClass text ∧ text ≠ closing ++ ";")

/-- Not the head of a function outside a class. -/
def Entry.Enclosed : Entry → Prop
  | .raw _ => True
  | .line text depth => depth = 0 → ¬ OpensFunction text

theorem prototypesFrom_append_of_inert {entries : List Entry} (h : ∀ entry ∈ entries, entry.Inert)
    (scope : Option String) (rest : List Entry) :
    prototypesFrom scope (entries ++ rest) = prototypesFrom scope rest := by
  induction entries with
  | nil => rfl
  | cons entry entries ih =>
    obtain ⟨hentry, hentries⟩ := List.forall_mem_cons.mp h
    rw [List.cons_append]
    cases entry with
    | raw text => exact ih hentries
    | line text depth =>
      obtain ⟨hprototype, hborder⟩ := hentry
      rw [prototypesFrom, if_neg (fun hopen => (hborder hopen.1).1 hopen.2),
        if_neg (fun hclose => (hborder hclose.1).2 hclose.2), if_neg hprototype]
      exact ih hentries

theorem outlinedFrom_append_of_enclosed {entries : List Entry}
    (h : ∀ entry ∈ entries, entry.Enclosed) (rest : List Entry) :
    outlinedFrom (entries ++ rest) = outlinedFrom rest := by
  induction entries with
  | nil => rfl
  | cons entry entries ih =>
    obtain ⟨hentry, hentries⟩ := List.forall_mem_cons.mp h
    rw [List.cons_append]
    cases entry with
    | raw text => exact ih hentries
    | line text depth =>
      rw [outlinedFrom, if_neg (fun hopen => hentry hopen.1 hopen.2)]
      exact ih hentries

/-- Inside a class only a prototype is looked at. -/
theorem inert_indented {text : String} {depth : Nat} (h : ¬ IsPrototype text) :
    (Entry.line text (depth + 1)).Inert :=
  ⟨h, fun hborder => absurd hborder (Nat.succ_ne_zero depth)⟩

theorem enclosed_indented (text : String) (depth : Nat) :
    (Entry.line text (depth + 1)).Enclosed :=
  fun hborder => absurd hborder (Nat.succ_ne_zero depth)

/-! ## How a line ends -/

theorem Ends.unique {c mark : Char} {text : String} (h : Ends c text) (hmark : Ends mark text) :
    c = mark :=
  Option.some.inj (h.symm.trans hmark)

/-- What a text ends with is what its last part ends with. -/
theorem ends_append {mark c : Char} {text last : String} (h : Ends c last) :
    Ends mark (text ++ last) ↔ mark = c := by
  rw [Ends] at h
  rw [Ends, String.toList_append, List.getLast?_append, h, Option.some_or, Option.some.injEq,
    eq_comm]

theorem ends_opened {mark : Char} {header : String} : Ends mark (opened header) ↔ mark = '\x7b' :=
  ends_append (by decide)

theorem ends_semicolon {mark : Char} {text : String} : Ends mark (text ++ ";") ↔ mark = ';' :=
  ends_append (by decide)

theorem not_isPrototype_opened (header : String) : ¬ IsPrototype (opened header) := by
  rintro ⟨-, hend⟩
  exact absurd (ends_opened.mp hend) (by decide)

/-- A head with a brace is passed over, unless it is the head of a class. -/
theorem inert_opened {header : String} (h : ¬ Starts "class " (opened header)) (depth : Nat) :
    (Entry.line (opened header) depth).Inert := by
  refine ⟨not_isPrototype_opened header, fun _ => ⟨fun hopen => h hopen.1, ?_⟩⟩
  intro heq
  have hends : Ends ';' (opened header) := by
    rw [heq]
    decide
  exact absurd (ends_opened.mp hends) (by decide)

/-- Functions with those headers one after the other, each with a body that holds no prototype. -/
def AllBodied (depth : Nat) (headers : List String) (entries : List Entry) : Prop :=
  ∃ functions : List (String × List String), functions.map Prod.fst = headers ∧
    (∀ written ∈ functions, written.2 ≠ [] ∧ ∀ text ∈ written.2, ¬ IsPrototype text) ∧
    entries = functions.flatMap fun written => function written.1 written.2 depth

theorem allBodied_function {header : String} {body : List String} {depth : Nat}
    (hbody : body ≠ []) (h : ∀ text ∈ body, ¬ IsPrototype text) :
    AllBodied depth [header] (function header body depth) := by
  refine ⟨[(header, body)], rfl, ?_, ?_⟩
  · intro written hmem
    rw [List.mem_singleton.mp hmem]
    exact ⟨hbody, h⟩
  · simp

theorem AllBodied.append {first second : List Entry} {headers more : List String} {depth : Nat}
    (hfirst : AllBodied depth headers first) (hsecond : AllBodied depth more second) :
    AllBodied depth (headers ++ more) (first ++ second) := by
  obtain ⟨these, rfl, hbodies, rfl⟩ := hfirst
  obtain ⟨those, rfl, hothers, rfl⟩ := hsecond
  refine ⟨these ++ those, List.map_append, ?_, by rw [List.flatMap_append]⟩
  · intro written hmem
    rcases List.mem_append.mp hmem with h | h
    · exact hbodies written h
    · exact hothers written h

theorem AllBodied.inert {entries : List Entry} {headers : List String} {depth : Nat}
    (h : AllBodied (depth + 1) headers entries) : ∀ entry ∈ entries, entry.Inert := by
  obtain ⟨functions, -, hbodies, rfl⟩ := h
  intro entry hmem
  obtain ⟨written, hwritten, hentry⟩ := List.mem_flatMap.mp hmem
  refine forall_function.mpr ⟨?_, ?_, ?_⟩ entry hentry
  · exact inert_indented (not_isPrototype_opened _)
  · intro text htext
    exact inert_indented ((hbodies written hwritten).2 text htext)
  · exact inert_indented (by decide)

theorem AllBodied.enclosed {entries : List Entry} {headers : List String} {depth : Nat}
    (h : AllBodied (depth + 1) headers entries) : ∀ entry ∈ entries, entry.Enclosed := by
  obtain ⟨functions, -, -, rfl⟩ := h
  intro entry hmem
  obtain ⟨written, -, hentry⟩ := List.mem_flatMap.mp hmem
  have hall : ∀ text, (Entry.line text (depth + 2)).Enclosed := (enclosed_indented · _)
  exact forall_function.mpr ⟨enclosed_indented _ _, fun text _ => hall text,
    enclosed_indented _ _⟩ entry hentry

/-! ## Accessors in their class -/

/-- The header of an accessor that has a body. What the slot holds itself is read without the base
of the buffer, and anything else takes it. -/
def ownHeader (accessor : Accessor) (pointer : String) : String :=
  match accessor.value, accessor.cardinality with
  | .str, .single => signatureOf accessor accessor.field pointer
  | _, .single => "inline " ++ valueType accessor.value ++ " " ++ accessor.field ++ "() const"
  | _, .repeated _ => signatureOf accessor accessor.field pointer

/-- The header of the count of a repeated field; any other field has none. -/
def countHeaders (accessor : Accessor) (pointer : String) : List String :=
  match accessor.cardinality with
  | .single => []
  | .repeated _ => ["inline int " ++ accessor.field ++ "_size(const " ++ pointer ++ "* base) const"]

/-- The count of a repeated field has a body, also where the accessor behind it has none. -/
theorem countLines_allBodied (accessor : Accessor) (pointer : String) (depth : Nat) :
    AllBodied depth (countHeaders accessor pointer) (countLines accessor pointer depth) := by
  unfold countHeaders countLines
  cases accessor.cardinality with
  | single => exact ⟨[], rfl, nofun, rfl⟩
  | «repeated» stride =>
    refine allBodied_function (List.cons_ne_nil _ _) ?_
    simp [IsPrototype, Starts]

/-- An accessor that is not deferred is written with its body, behind its count if there is
one. -/
theorem accessorLines_of_not_deferred {accessor : Accessor} (h : accessor.isDeferred = false)
    (pointer : String) (depth : Nat) :
    AllBodied depth (countHeaders accessor pointer ++ [ownHeader accessor pointer])
      (accessorLines accessor pointer depth) := by
  obtain ⟨field, offset, value, cardinality⟩ := accessor
  cases cardinality with
  | single =>
    cases value with
    | object typeName isOptional => cases h
    | _ =>
      refine allBodied_function (List.cons_ne_nil _ _) ?_
      simp [IsPrototype, Starts, castTo_eq]
  | «repeated» stride =>
    refine (countLines_allBodied _ pointer depth).append ?_
    cases value with
    | object typeName isOptional => cases h
    | _ =>
      refine allBodied_function (List.cons_ne_nil _ _) ?_
      simp [IsPrototype, Starts, castTo_eq, elementPlace_eq]

theorem signatureOf_starts (accessor : Accessor) (name pointer : String) :
    Starts "inline " (signatureOf accessor name pointer) := by
  unfold signatureOf
  cases accessor.cardinality with
  | single => simp [Starts, pointerSignature_eq]
  | «repeated» stride => simp [Starts, elementSignature_eq]

/-- A text in front of another starts both. -/
theorem Starts.append {word text : String} (h : Starts word text) (rest : String) :
    Starts word (text ++ rest) := by
  rw [Starts, String.toList_append]
  exact h.trans (List.prefix_append ..)

theorem signatureOf_isPrototype (accessor : Accessor) (name pointer : String) :
    IsPrototype (signatureOf accessor name pointer ++ ";") :=
  ⟨(signatureOf_starts accessor name pointer).append ";", ends_semicolon.mpr rfl⟩

theorem signatureOf_opensFunction (accessor : Accessor) (name pointer : String) :
    OpensFunction (opened (signatureOf accessor name pointer)) :=
  ⟨(signatureOf_starts accessor name pointer).append _, ends_opened.mpr rfl⟩

theorem countLines_inert (accessor : Accessor) (pointer : String) (depth : Nat) :
    ∀ entry ∈ countLines accessor pointer (depth + 1), entry.Inert :=
  (countLines_allBodied accessor pointer (depth + 1)).inert

/-- **An accessor shows a prototype in its class exactly if it is deferred.** -/
theorem exists_prototype_iff (accessor : Accessor) (pointer : String) (depth : Nat) :
    (∃ text, .line text (depth + 1) ∈ accessorLines accessor pointer (depth + 1) ∧
      IsPrototype text) ↔ accessor.isDeferred = true := by
  constructor
  · rintro ⟨text, hmem, htext⟩
    by_contra hbodied
    rw [Bool.not_eq_true] at hbodied
    have hlines := accessorLines_of_not_deferred hbodied pointer (depth + 1)
    exact (hlines.inert _ hmem).1 htext
  · intro h
    refine ⟨_, ?_, signatureOf_isPrototype accessor accessor.field pointer⟩
    rw [accessorLines_of_deferred h]
    exact List.mem_append_right _ (List.mem_singleton_self _)

/-! ## The prototypes of a unit -/

/-- The head of a class. -/
def classHead (ref : ClassRef) : String :=
  opened ("class " ++ refName ref ++ " : public " ++ parentName ref)

/-- The prototype of a deferred accessor. -/
def prototypeOf (pointer : String) (deferred : Deferred) : Prototype :=
  ⟨some (classHead deferred.owner),
    signatureOf deferred.accessor deferred.accessor.field pointer ++ ";"⟩

theorem prototypesFrom_prototype {text : String} (h : IsPrototype text) (scope : Option String)
    (depth : Nat) (rest : List Entry) :
    prototypesFrom scope (.line text (depth + 1) :: rest) =
      ⟨scope, text⟩ :: prototypesFrom scope rest := by
  rw [prototypesFrom, if_neg (fun hopen => absurd hopen.1 (Nat.succ_ne_zero depth)),
    if_neg (fun hclose => absurd hclose.1 (Nat.succ_ne_zero depth)), if_pos h]

theorem prototypesFrom_accessors (scope : Option String) (accessors : List Accessor)
    (pointer : String) (rest : List Entry) :
    prototypesFrom scope
        ((accessors.flatMap fun accessor => accessorLines accessor pointer 1) ++ rest) =
      ((accessors.filter Accessor.isDeferred).map fun accessor =>
        ⟨scope, signatureOf accessor accessor.field pointer ++ ";"⟩) ++
        prototypesFrom scope rest := by
  induction accessors with
  | nil => rfl
  | cons accessor accessors ih =>
    rw [List.flatMap_cons, List.append_assoc, List.filter_cons]
    by_cases hdeferred : accessor.isDeferred = true
    · -- the count has a body, so the only line that the scan stops at is the prototype
      have hcount := countLines_inert accessor pointer 0
      have hprototype := signatureOf_isPrototype accessor accessor.field pointer
      rw [accessorLines_of_deferred hdeferred, List.append_assoc,
        prototypesFrom_append_of_inert hcount, List.singleton_append,
        prototypesFrom_prototype hprototype, ih, if_pos hdeferred]
      rfl
    · have hlines := accessorLines_of_not_deferred (Bool.not_eq_true _ ▸ hdeferred) pointer 1
      rw [prototypesFrom_append_of_inert hlines.inert, if_neg hdeferred]
      exact ih

theorem attributeLines_inert (attributes : List Attribute) (depth : Nat) :
    ∀ entry ∈ attributeLines attributes (depth + 1), entry.Inert := by
  rw [forall_attributeLines]
  intro member _
  apply inert_indented
  cases member.builtin <;> simp [IsPrototype, Starts, builtinType]

/-- The members of a class are scanned inside the head of the class, and what follows the
class is scanned outside. -/
theorem prototypesFrom_classLines (scope : Option String) (name parent : String)
    (members rest : List Entry) :
    prototypesFrom scope (classLines name parent members 0 ++ rest) =
      prototypesFrom (some (opened ("class " ++ name ++ " : public " ++ parent)))
        (members ++ ([.line (closing ++ ";") 0, .line "" 0] ++ rest)) := by
  have hhead : OpensClass (opened ("class " ++ name ++ " : public " ++ parent)) :=
    ⟨by simp [Starts, opened], ends_opened.mpr rfl⟩
  have haccess : ∀ entry ∈ [Entry.line " public:" 0], entry.Inert := by
    intro entry hmem
    rw [List.mem_singleton.mp hmem]
    exact ⟨by decide, fun _ => ⟨by decide, by decide⟩⟩
  rw [classLines, List.append_assoc, List.append_assoc, List.cons_append, prototypesFrom,
    if_pos ⟨rfl, hhead⟩]
  exact prototypesFrom_append_of_inert haccess _ _

theorem prototypesFrom_closing (scope : Option String) (rest : List Entry) :
    prototypesFrom scope ([.line (closing ++ ";") 0, .line "" 0] ++ rest) =
      prototypesFrom none rest := by
  have hblank : ∀ entry ∈ [Entry.line "" 0], entry.Inert := by
    intro entry hmem
    rw [List.mem_singleton.mp hmem]
    exact ⟨by decide, fun _ => ⟨by decide, by decide⟩⟩
  have hnotOpen : ¬ (0 = 0 ∧ OpensClass (closing ++ ";")) := by decide
  rw [List.cons_append, prototypesFrom, if_neg hnotOpen, if_pos ⟨rfl, rfl⟩]
  exact prototypesFrom_append_of_inert hblank _ _

theorem prototypesFrom_accessorClass (scope : Option String) (cls : AccessorClass)
    (pointer : String) (rest : List Entry) :
    prototypesFrom scope (accessorClassLines cls pointer 0 ++ rest) =
      cls.deferred.map (prototypeOf pointer) ++ prototypesFrom none rest := by
  rw [accessorClassLines, prototypesFrom_classLines, List.append_assoc, prototypesFrom_accessors,
    prototypesFrom_append_of_inert (attributeLines_inert _ 0), prototypesFrom_closing,
    AccessorClass.deferred, List.map_map]
  rfl

/-- A tagged base holds its tag and its attributes, and no prototype. -/
theorem prototypesFrom_taggedBase (scope : Option String) (base : TaggedBase)
    (rest : List Entry) :
    prototypesFrom scope (taggedBaseLines base 0 ++ rest) = prototypesFrom none rest := by
  have htag : AllBodied 1 [enumName base.typeName ++ " tag() const"]
      (function (enumName base.typeName ++ " tag() const")
        ["return static_cast<" ++ enumName base.typeName ++ ">(bytes_[0]);"] 1) := by
    refine allBodied_function (List.cons_ne_nil _ _) ?_
    simp [IsPrototype, Starts]
  rw [taggedBaseLines, prototypesFrom_classLines, List.append_assoc,
    prototypesFrom_append_of_inert htag.inert,
    prototypesFrom_append_of_inert (attributeLines_inert _ 0), prototypesFrom_closing]

/-- A list of texts ends as its last one does. -/
theorem ends_intercalate {mark : Char} (separator : String) {texts : List String}
    (hne : texts ≠ []) (h : ∀ text ∈ texts, ∃ c, Ends c text ∧ c ≠ mark) :
    ∃ c, Ends c (separator.intercalate texts) ∧ c ≠ mark := by
  induction texts with
  | nil => exact absurd rfl hne
  | cons text texts ih =>
    obtain ⟨htext, htexts⟩ := List.forall_mem_cons.mp h
    cases texts with
    | nil =>
      rw [String.intercalate_singleton]
      exact htext
    | cons next rest =>
      obtain ⟨c, hends, hc⟩ := ih (List.cons_ne_nil _ _) htexts
      rw [String.intercalate_cons_cons]
      exact ⟨c, (ends_append hends).mpr rfl, hc⟩

/-- The values of an enumeration end in a digit, or are empty. -/
theorem enumerationValues_not_ends (variants : List EnumVariant) :
    ¬ Ends ';' (enumerationValues variants) := by
  rw [enumerationValues]
  cases variants with
  | nil => decide
  | cons first rest =>
    have hvalues : ∀ text ∈ (first :: rest).map fun variant =>
        variant.name ++ " = " ++ toString variant.value.toNat, ∃ c, Ends c text ∧ c ≠ ';' := by
      intro text hmem
      obtain ⟨variant, -, rfl⟩ := List.mem_map.mp hmem
      have hsome : (Nat.toDigits 10 variant.value.toNat).getLast?.isSome = true :=
        List.getLast?_isSome.mpr Nat.toDigits_ne_nil
      obtain ⟨c, hlast⟩ := Option.isSome_iff_exists.mp hsome
      have hdigit : c.isDigit = true :=
        Nat.isDigit_of_mem_toDigits (by decide) (by decide) (List.mem_of_getLast? hlast)
      have hends : Ends c (toString variant.value.toNat) := by
        rw [Ends, Nat.toString_eq_repr, Nat.toList_repr]
        exact hlast
      refine ⟨c, (ends_append hends).mpr rfl, ?_⟩
      rintro rfl
      exact absurd hdigit (by decide)
    have hne : (first :: rest).map (fun variant =>
        variant.name ++ " = " ++ toString variant.value.toNat) ≠ [] := List.cons_ne_nil _ _
    obtain ⟨c, hends, hc⟩ := ends_intercalate ", " hne hvalues
    intro hmark
    exact hc (hends.unique hmark)

theorem prototypesFrom_enumeration (scope : Option String) (enumeration : Enumeration)
    (rest : List Entry) :
    prototypesFrom scope (enumerationLines enumeration 0 ++ rest) = prototypesFrom none rest := by
  have hfront : ∀ entry ∈ [Entry.line (opened ("enum class " ++ enumName enumeration.typeName ++
      " : uint8_t")) 0, Entry.line (enumerationValues enumeration.variants) 1],
      entry.Inert := by
    rw [List.forall_mem_cons, List.forall_mem_singleton]
    refine ⟨inert_opened (by simp [Starts, opened]) 0, inert_indented ?_⟩
    exact fun h => enumerationValues_not_ends _ h.2
  have hlines : enumerationLines enumeration 0 ++ rest =
      [Entry.line (opened ("enum class " ++ enumName enumeration.typeName ++ " : uint8_t")) 0,
        Entry.line (enumerationValues enumeration.variants) 1] ++
        ([.line (closing ++ ";") 0, .line "" 0] ++ rest) := rfl
  rw [hlines, prototypesFrom_append_of_inert hfront, prototypesFrom_closing]

theorem prototypesFrom_declarations (scope : Option String) (declarations : List Declaration)
    (pointer : String) (rest : List Entry) (hrest : ∀ other, prototypesFrom other rest = []) :
    prototypesFrom scope
        ((declarations.flatMap fun declaration => declarationLines declaration pointer) ++ rest) =
      (declarations.flatMap Declaration.deferred).map (prototypeOf pointer) := by
  -- each declaration is scanned outside the classes, whatever the scope was in front of it
  induction declarations generalizing scope with
  | nil => exact hrest scope
  | cons declaration declarations ih =>
    rw [List.flatMap_cons, List.flatMap_cons, List.append_assoc, List.map_append]
    cases declaration with
    | enumeration body =>
      rw [declarationLines, prototypesFrom_enumeration, ih]
      rfl
    | taggedBase body =>
      rw [declarationLines, prototypesFrom_taggedBase, ih]
      rfl
    | accessorClass body =>
      rw [declarationLines, prototypesFrom_accessorClass, ih]
      rfl

theorem forwardLines_inert (names : List String) : ∀ entry ∈ forwardLines names, entry.Inert := by
  rw [forall_forwardLines]
  refine ⟨?_, by decide, fun _ => ⟨by decide, by decide⟩⟩
  intro name _
  refine ⟨?_, fun _ => ⟨?_, ?_⟩⟩
  · simp [IsPrototype, Starts]
  · rintro ⟨-, hend⟩
    exact absurd (ends_semicolon.mp hend) (by decide)
  · intro heq
    have hchars := congrArg String.toList heq
    simp [closing] at hchars

/-! ## The functions outside every class -/

/-- The function of a deferred accessor. -/
def outlinedOf (pointer : String) (deferred : Deferred) : Outlined :=
  ⟨outlinedHead deferred pointer, outlinedBody deferred.accessor⟩

theorem deferredLines_inert (deferred : Deferred) (pointer : String) :
    ∀ entry ∈ deferredLines deferred pointer, entry.Inert := by
  have hhead : ¬ Starts "class " (outlinedHead deferred pointer) := by
    unfold outlinedHead signatureOf
    cases deferred.accessor.cardinality with
    | single => simp [Starts, opened, pointerSignature_eq]
    | «repeated» stride => simp [Starts, opened, elementSignature_eq]
  have hbody : ∀ text ∈ outlinedBody deferred.accessor, ¬ IsPrototype text := by
    unfold outlinedBody placeLines
    rw [downcast_eq]
    cases deferred.accessor.cardinality with
    | single => simp [IsPrototype, Starts]
    | «repeated» stride => simp [IsPrototype, Starts, elementPlace_eq]
  rw [forall_deferredLines]
  exact ⟨inert_opened hhead 0, fun text htext => inert_indented (hbody text htext), trivial⟩

/-- A deferred accessor is scanned as its function: the head opens it, the indented lines are
its body, and the brace, which is raw text, ends them. -/
theorem outlinedFrom_deferredLines (deferred : Deferred) (pointer : String)
    (rest : List Entry) :
    outlinedFrom (deferredLines deferred pointer ++ rest) =
      outlinedOf pointer deferred :: outlinedFrom rest := by
  have hopens : OpensFunction (outlinedHead deferred pointer) := signatureOf_opensFunction ..
  -- the brace is raw text, so the indented lines end in front of it
  have hindented : ∀ body : List String,
      indented (body.map (Entry.line · 1) ++ ([.raw (closing ++ "\n\n")] ++ rest)) = body := by
    intro body
    induction body with
    | nil => rfl
    | cons text body ih => rw [List.map_cons, List.cons_append, indented, ih]
  have henclosed : ∀ entry ∈ (outlinedBody deferred.accessor).map (Entry.line · 1),
      entry.Enclosed := by
    rw [List.forall_mem_map]
    exact fun text _ => enclosed_indented text 0
  rw [deferredLines_eq, List.cons_append, List.append_assoc, outlinedFrom, if_pos ⟨rfl, hopens⟩,
    hindented, outlinedFrom_append_of_enclosed henclosed]
  rfl

/-- Only lines without indentation can be heads outside a class. -/
theorem accessorLines_enclosed (accessor : Accessor) (pointer : String) (depth : Nat) :
    ∀ entry ∈ accessorLines accessor pointer (depth + 1), entry.Enclosed := by
  by_cases hdeferred : accessor.isDeferred = true
  · rw [accessorLines_of_deferred hdeferred, List.forall_mem_append, List.forall_mem_singleton]
    exact ⟨(countLines_allBodied accessor pointer (depth + 1)).enclosed,
      enclosed_indented _ depth⟩
  · have hlines :=
      accessorLines_of_not_deferred (Bool.not_eq_true _ ▸ hdeferred) pointer (depth + 1)
    exact hlines.enclosed

theorem attributeLines_enclosed (attributes : List Attribute) (depth : Nat) :
    ∀ entry ∈ attributeLines attributes (depth + 1), entry.Enclosed := by
  rw [forall_attributeLines]
  exact fun member _ => enclosed_indented _ depth

theorem classLines_enclosed {name parent : String} {members : List Entry}
    (h : ∀ entry ∈ members, entry.Enclosed) :
    ∀ entry ∈ classLines name parent members 0, entry.Enclosed := by
  have hhead : ¬ OpensFunction (opened ("class " ++ name ++ " : public " ++ parent)) := by
    simp [OpensFunction, Starts, opened]
  rw [forall_classLines]
  exact ⟨fun _ => hhead, fun _ => by decide, h, fun _ => by decide, fun _ => by decide⟩

/-- No declaration holds a function outside a class. -/
theorem declarationLines_enclosed (declaration : Declaration) (pointer : String) :
    ∀ entry ∈ declarationLines declaration pointer, entry.Enclosed := by
  cases declaration with
  | enumeration body =>
    have hhead : ¬ OpensFunction (opened ("enum class " ++ enumName body.typeName ++
        " : uint8_t")) := by
      simp [OpensFunction, Starts, opened]
    rw [declarationLines, forall_enumerationLines]
    exact ⟨fun _ => hhead, enclosed_indented _ 0, fun _ => by decide, fun _ => by decide⟩
  | taggedBase body =>
    apply classLines_enclosed
    rw [List.forall_mem_append, forall_function]
    exact ⟨⟨enclosed_indented _ 0, fun text _ => enclosed_indented text 1, enclosed_indented _ 0⟩,
      attributeLines_enclosed _ 0⟩
  | accessorClass body =>
    apply classLines_enclosed
    rw [List.forall_mem_append]
    refine ⟨?_, attributeLines_enclosed _ 0⟩
    intro entry hmem
    obtain ⟨accessor, -, hline⟩ := List.mem_flatMap.mp hmem
    exact accessorLines_enclosed accessor pointer 0 entry hline

theorem forwardLines_enclosed (names : List String) :
    ∀ entry ∈ forwardLines names, entry.Enclosed := by
  rw [forall_forwardLines]
  refine ⟨?_, fun _ => by decide⟩
  rintro name - - ⟨-, hend⟩
  exact absurd (ends_semicolon.mp hend) (by decide)

/-! ## Both scans of a unit -/

/-- **The prototypes of a unit are those of the deferred accessors of its classes, in order.** -/
theorem prototypesFrom_unitEntries (layout : Layout) :
    prototypesFrom none (unitEntries layout) =
      (layout.declarations.flatMap Declaration.deferred).map
        (prototypeOf layout.encoding.indexElement.typeName) := by
  have htail : ∀ scope, prototypesFrom scope
      ((layout.deferred.flatMap fun deferred =>
        deferredLines deferred layout.encoding.indexElement.typeName) ++
          [.raw (epilogue layout.encoding)]) = [] := by
    intro scope
    apply prototypesFrom_append_of_inert
    intro entry hmem
    obtain ⟨deferred, -, hline⟩ := List.mem_flatMap.mp hmem
    exact deferredLines_inert deferred _ entry hline
  simp only [unitEntries, List.append_assoc]
  rw [List.singleton_append, prototypesFrom,
    prototypesFrom_append_of_inert (forwardLines_inert layout.forwards),
    prototypesFrom_declarations _ _ _ _ htail]

/-- **The functions outside the classes are those of the queue, in order.** -/
theorem outlinedFrom_unitEntries (layout : Layout) :
    outlinedFrom (unitEntries layout) =
      layout.deferred.map (outlinedOf layout.encoding.indexElement.typeName) := by
  have hdeferred : ∀ queue : List Deferred, outlinedFrom
      ((queue.flatMap fun deferred =>
        deferredLines deferred layout.encoding.indexElement.typeName) ++
          [.raw (epilogue layout.encoding)]) =
      queue.map (outlinedOf layout.encoding.indexElement.typeName) := by
    intro queue
    induction queue with
    | nil => rfl
    | cons deferred queue ih =>
      rw [List.flatMap_cons, List.append_assoc, outlinedFrom_deferredLines, ih, List.map_cons]
  have hdeclarations : ∀ entry ∈ layout.declarations.flatMap fun declaration =>
      declarationLines declaration layout.encoding.indexElement.typeName, entry.Enclosed := by
    intro entry hmem
    obtain ⟨declaration, -, hline⟩ := List.mem_flatMap.mp hmem
    exact declarationLines_enclosed declaration _ entry hline
  simp only [unitEntries, List.append_assoc]
  rw [List.singleton_append, outlinedFrom,
    outlinedFrom_append_of_enclosed (forwardLines_enclosed layout.forwards),
    outlinedFrom_append_of_enclosed hdeclarations, hdeferred]

end ReaderGen.Reader
