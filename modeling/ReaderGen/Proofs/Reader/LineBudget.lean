import Mathlib
import ReaderGen.Proofs.Layout.Faults
import ReaderGen.Proofs.Layout.Names
import ReaderGen.Proofs.Reader.Emitters

/-!
# ReaderGen.Proofs.Reader.LineBudget -- names that leave every line room to wrap

A line with a long head can run out of columns: its continuation lines start behind the
opening parenthesis, and a word behind it may be wider than what is left. This module bounds
every line of a unit by the names in it. Lines of three shapes can be wider than the page:

* the values of an enumeration, which break after every value;
* signatures with a long type or a qualified name;
* the cast of an element, which follows two references.

**With names of at most sixteen bytes every line of every reader wraps, and with names of
seventeen bytes a line need not** (`sixteen_bytes_suffice`): the head of a deferred body then
leaves seven columns for a pointer type of eight.
-/

namespace ReaderGen.Reader

open Text Reflow

/-! ## Widths -/

/-- The width of a text in bytes. -/
def lineWidth (text : String) : Nat := width text.toList

theorem lineWidth_append (first second : String) :
    lineWidth (first ++ second) = lineWidth first + lineWidth second := by
  rw [lineWidth, String.toList_append, width_append]
  rfl

theorem width_digits {cs : List Char} (h : ∀ c ∈ cs, c.isDigit = true) : width cs = cs.length := by
  induction cs with
  | nil => rfl
  | cons c cs ih =>
    obtain ⟨hdigit, hrest⟩ := List.forall_mem_cons.mp h
    have hsize : c.utf8Size = 1 := by
      rw [Char.utf8Size_eq_one_iff]
      have hbounds : '0' ≤ c ∧ c ≤ '9' := by
        simpa [Char.isDigit, Char.le_def] using hdigit
      exact UInt32.le_trans hbounds.2 (by decide)
    rw [width_cons, ih hrest, hsize, List.length_cons, Nat.add_comm]

/-- A number below `10 ^ digits` takes that many columns at most. -/
theorem lineWidth_toString_le {n digits : Nat} (hpositive : 0 < digits) (h : n < 10 ^ digits) :
    lineWidth (toString n) ≤ digits := by
  have hdigits : ∀ c ∈ Nat.toDigits 10 n, c.isDigit = true :=
    fun _ hc => Nat.isDigit_of_mem_toDigits (by decide) (by decide) hc
  rw [lineWidth, Nat.toString_eq_repr, Nat.toList_repr, width_digits hdigits]
  exact (Nat.length_toDigits_le_iff (by decide) hpositive).mpr h

theorem not_mem_toString {c : Char} (h : c.isDigit = false) (n : Nat) :
    c ∉ (toString n).toList := by
  intro hmem
  rw [Nat.toString_eq_repr, Nat.toList_repr] at hmem
  rw [Nat.isDigit_of_mem_toDigits (by decide) (by decide) hmem] at h
  cases h

theorem lineWidth_number_le (n : UInt32) : lineWidth (number n) ≤ 10 := by
  have hbound : n.toNat < 2 ^ 32 := n.toNat_lt
  exact lineWidth_toString_le (by decide) (by omega)

theorem lineWidth_typeName_le (element : IndexElement) : lineWidth element.typeName ≤ 8 := by
  cases element <;> decide

/-! ## Narrow texts -/

/-- At most `limit` bytes, and no bracket that a continuation line could start behind. -/
def Narrow (limit : Nat) (text : String) : Prop :=
  lineWidth text ≤ limit ∧ '(' ∉ text.toList ∧ '\x7b' ∉ text.toList

instance (limit : Nat) (text : String) : Decidable (Narrow limit text) :=
  inferInstanceAs (Decidable (_ ∧ _))

theorem Narrow.append {limit more : Nat} {first second : String} (hfirst : Narrow limit first)
    (hsecond : Narrow more second) : Narrow (limit + more) (first ++ second) := by
  refine ⟨?_, ?_, ?_⟩
  · rw [lineWidth_append]
    exact Nat.add_le_add hfirst.1 hsecond.1
  · simp [hfirst.2.1, hsecond.2.1]
  · simp [hfirst.2.2, hsecond.2.2]

theorem Narrow.mono {limit more : Nat} {text : String} (h : Narrow limit text)
    (hle : limit ≤ more) : Narrow more text :=
  ⟨Nat.le_trans h.1 hle, h.2⟩

section Names

variable {value : ValueKind} {ref : ClassRef}

theorem className_narrow {name : String} (h : Narrow 16 name) : Narrow 18 (className name) := by
  have hsuffix : Narrow 2 "_t" := by decide
  exact h.append hsuffix

theorem enumName_narrow {name : String} (h : Narrow 16 name) : Narrow 18 (enumName name) := by
  have hsuffix : Narrow 2 "_e" := by decide
  exact h.append hsuffix

theorem valueType_narrow (h : ∀ name ∈ value.names, Narrow 16 name) :
    Narrow 19 (valueType value) := by
  cases value with
  | enumeration typeName =>
    have hname : Narrow 16 typeName := h typeName (List.mem_singleton_self _)
    exact (enumName_narrow hname).mono (by decide)
  | object typeName isOptional =>
    have hname : Narrow 16 typeName := h typeName (List.mem_singleton_self _)
    have hmark : Narrow 1 (if isOptional = true then "*" else "&") := by
      cases isOptional <;> decide
    exact (className_narrow hname).append hmark
  | _ => decide

theorem refName_narrow (h : ∀ name ∈ ref.names, Narrow 16 name) : Narrow 18 (refName ref) := by
  cases ref with
  | product typeName => exact className_narrow (h typeName (List.mem_singleton_self _))
  | variant sumName constructor =>
    exact (h constructor (List.mem_cons_of_mem _ (List.mem_singleton_self _))).mono (by decide)

theorem parentName_narrow (h : ∀ name ∈ ref.names, Narrow 16 name) :
    Narrow 18 (parentName ref) := by
  cases ref with
  | product typeName =>
    have hobject : Narrow 3 "Obj" := by decide
    exact hobject.mono (by decide)
  | variant sumName constructor => exact className_narrow (h sumName (List.mem_cons_self ..))

end Names

/-! ## Lines that wrap -/

/-- The page has eighty columns, and each level takes two of them. -/
theorem budget_page {depth : Nat} (h : 2 * depth ≤ 80) :
    ({} : Formatter).budget depth = 80 - depth * 2 := by
  have hcolumns : depth * 2 < UInt64.size := Nat.lt_of_le_of_lt (m := 80) (by omega) (by decide)
  exact Formatter.budget_eq hcolumns

/-- A line that fits with its indentation wraps. -/
theorem wraps_of_lineWidth {text : String} {depth : Nat} (h : lineWidth text + 2 * depth ≤ 80) :
    Formatter.Wraps {} text depth := by
  apply Formatter.wraps_of_fits
  rw [budget_page (by omega)]
  show lineWidth text ≤ 80 - depth * 2
  omega

/-- A text of pieces with a space between them is breakable piece by piece. -/
theorem breakable_cut {limit : Nat} {piece rest : String} (hpiece : lineWidth piece < limit)
    (hrest : Breakable limit rest.toList) : Breakable limit (piece ++ " " ++ rest).toList := by
  have hsplit : (piece ++ " " ++ rest).toList = piece.toList ++ ' ' :: rest.toList := by simp
  rw [hsplit]
  exact .cut hpiece hrest

/-- A narrow head and a parenthesis leave the rest of the columns to the text behind. -/
theorem wraps_of_head {head back : String} {limit room depth : Nat} (hhead : Narrow limit head)
    (hback : '\x7b' ∉ back.toList.dropLast) (h : Breakable room back.toList)
    (hbudget : limit + 1 + room + 2 * depth ≤ 80) :
    Formatter.Wraps {} (head ++ "(" ++ back) depth := by
  have hline : (head ++ "(" ++ back).toList = head.toList ++ '(' :: back.toList := by simp
  have hwidth : width head.toList ≤ limit := hhead.1
  refine Formatter.wraps_of_call hline hhead.2.1 hhead.2.2 hback h ?_
  rw [budget_page (by omega)]
  omega

/-! ## Signatures -/

/-- **A signature wraps if its type and its name leave ten columns behind the parenthesis**:
a pointer type is the widest word there, with eight bytes, a star and a space. -/
theorem signature_wraps {type name more : String} {typeLimit nameLimit depth : Nat}
    (htype : Narrow typeLimit type) (hname : Narrow nameLimit name) (element : IndexElement)
    (hmore : Breakable 10 more.toList) (hne : more.toList ≠ [])
    (hbrace : '\x7b' ∉ more.toList.dropLast)
    (hbudget : typeLimit + nameLimit + 25 + 2 * depth ≤ 80) :
    Formatter.Wraps {} ("inline const " ++ type ++ " " ++ name ++ "(" ++
      ("const" ++ " " ++ (element.typeName ++ "*" ++ " " ++ more))) depth := by
  have hword : Narrow 13 "inline const " := by decide
  have hspace : Narrow 1 " " := by decide
  -- the head is as wide as its four parts, and the pointer type is the widest word behind it
  have hhead := ((hword.append htype).append hspace).append hname
  have hpointer : lineWidth (element.typeName ++ "*") < 10 := by
    cases element <;> decide
  have hback : Breakable 10 ("const" ++ " " ++ (element.typeName ++ "*" ++ " " ++ more)).toList :=
    breakable_cut (by decide) (breakable_cut hpointer hmore)
  have hfront : '\x7b' ∉ ("const" ++ " " ++ (element.typeName ++ "*" ++ " ")).toList := by
    cases element <;> decide
  have hnoBrace : '\x7b' ∉
      ("const" ++ " " ++ (element.typeName ++ "*" ++ " " ++ more)).toList.dropLast := by
    have hsplit : ("const" ++ " " ++ (element.typeName ++ "*" ++ " " ++ more)).toList =
        ("const" ++ " " ++ (element.typeName ++ "*" ++ " ")).toList ++ more.toList := by simp
    rw [hsplit, List.dropLast_append_of_ne_nil hne, List.mem_append]
    rintro (hin | hin)
    · exact hfront hin
    · exact hbrace hin
  exact wraps_of_head hhead hnoBrace hback (by omega)

/-- What stands behind a signature: the end of a prototype, or the brace of a body. -/
def signatureTails : List String := [";", " \x7b"]

theorem pointerSignature_wraps {type name tail : String} {typeLimit nameLimit depth : Nat}
    (htype : Narrow typeLimit type) (hname : Narrow nameLimit name) (element : IndexElement)
    (htail : tail ∈ signatureTails) (hbudget : typeLimit + nameLimit + 25 + 2 * depth ≤ 80) :
    Formatter.Wraps {} (pointerSignature type name element.typeName ++ tail) depth := by
  have hline : pointerSignature type name element.typeName ++ tail =
      "inline const " ++ type ++ " " ++ name ++ "(" ++
        ("const" ++ " " ++ (element.typeName ++ "*" ++ " " ++
          ("base)" ++ " " ++ ("const" ++ tail)))) := by
    apply String.toList_injective
    simp [pointerSignature_eq]
  have hlast : lineWidth ("const" ++ tail) ≤ 10 ∧
      '\x7b' ∉ ("base)" ++ " " ++ ("const" ++ tail)).toList.dropLast := by
    simp only [signatureTails, List.mem_cons, List.not_mem_nil, or_false] at htail
    rcases htail with rfl | rfl <;> decide
  rw [hline]
  exact signature_wraps htype hname element (breakable_cut (by decide) (.last hlast.1)) (by simp)
    hlast.2 hbudget

theorem elementSignature_wraps {type name tail : String} {typeLimit nameLimit depth : Nat}
    (htype : Narrow typeLimit type) (hname : Narrow nameLimit name) (element : IndexElement)
    (htail : tail ∈ signatureTails) (hbudget : typeLimit + nameLimit + 25 + 2 * depth ≤ 80) :
    Formatter.Wraps {} (elementSignature type name element.typeName ++ tail) depth := by
  have hline : elementSignature type name element.typeName ++ tail =
      "inline const " ++ type ++ " " ++ name ++ "(" ++
        ("const" ++ " " ++ (element.typeName ++ "*" ++ " " ++
          ("base," ++ " " ++ ("int" ++ " " ++ ("index)" ++ " " ++ ("const" ++ tail)))))) := by
    apply String.toList_injective
    simp [elementSignature_eq]
  have hlast : lineWidth ("const" ++ tail) ≤ 10 ∧
      '\x7b' ∉ ("base," ++ " " ++ ("int" ++ " " ++ ("index)" ++ " " ++
        ("const" ++ tail)))).toList.dropLast := by
    simp only [signatureTails, List.mem_cons, List.not_mem_nil, or_false] at htail
    rcases htail with rfl | rfl <;> decide
  have hmore : Breakable 10 ("base," ++ " " ++ ("int" ++ " " ++ ("index)" ++ " " ++
      ("const" ++ tail)))).toList :=
    breakable_cut (by decide)
      (breakable_cut (by decide) (breakable_cut (by decide) (.last hlast.1)))
  rw [hline]
  exact signature_wraps htype hname element hmore (by simp) hlast.2 hbudget

/-- The signature of an accessor of either cardinality. -/
theorem signatureOf_wraps {accessor : Accessor} {name tail : String} {nameLimit depth : Nat}
    (htype : Narrow 19 (valueType accessor.value)) (hname : Narrow nameLimit name)
    (element : IndexElement) (htail : tail ∈ signatureTails)
    (hbudget : nameLimit + 44 + 2 * depth ≤ 80) :
    Formatter.Wraps {} (signatureOf accessor name element.typeName ++ tail) depth := by
  unfold signatureOf
  cases accessor.cardinality with
  | single => exact pointerSignature_wraps htype hname element htail (by omega)
  | «repeated» stride => exact elementSignature_wraps htype hname element htail (by omega)

/-! ## Accessors in their class -/

theorem lineWidth_opened (header : String) : lineWidth (opened header) = lineWidth header + 2 := by
  have hbrace : lineWidth " \x7b" = 2 := by decide
  rw [opened, lineWidth_append, hbrace]

theorem lineWidth_castTo (type operand : String) :
    lineWidth (castTo type operand) = 21 + lineWidth type + lineWidth operand := by
  have hcast : lineWidth "static_cast<const " = 18 := by decide
  have hmiddle : lineWidth ">(" = 2 := by decide
  have hend : lineWidth ")" = 1 := by decide
  rw [castTo_eq, lineWidth_append, lineWidth_append, lineWidth_append, lineWidth_append, hcast,
    hmiddle, hend]
  omega

/-- A line around one number. -/
theorem number_wraps {before after : String} {depth : Nat} (n : UInt32)
    (h : lineWidth before + lineWidth after + 10 + 2 * depth ≤ 80) :
    Formatter.Wraps {} (before ++ number n ++ after) depth := by
  have hnumber := lineWidth_number_le n
  apply wraps_of_lineWidth
  rw [lineWidth_append, lineWidth_append]
  omega

/-- The width of a reference to the array of a repeated field. -/
theorem lineWidth_array_le (slot : UInt32) :
    lineWidth ("Ref(base, " ++ number slot ++ ")") ≤ 21 := by
  have hnumber := lineWidth_number_le slot
  have hfront : lineWidth "Ref(base, " = 10 := by decide
  have hback : lineWidth ")" = 1 := by decide
  rw [lineWidth_append, lineWidth_append, hfront, hback]
  omega

/-- A line around the array of a repeated field. -/
theorem array_wraps {before after : String} {depth : Nat} (slot : UInt32)
    (h : lineWidth before + lineWidth after + 21 + 2 * depth ≤ 80) :
    Formatter.Wraps {} (before ++ ("Ref(base, " ++ number slot ++ ")") ++ after) depth := by
  have harray := lineWidth_array_le slot
  apply wraps_of_lineWidth
  rw [lineWidth_append, lineWidth_append]
  omega

/-- A line that returns a cast. -/
theorem cast_wraps {type operand : String} {depth : Nat}
    (h : lineWidth type + lineWidth operand + 29 + 2 * depth ≤ 80) :
    Formatter.Wraps {} ("return " ++ castTo type operand ++ ";") depth := by
  have hreturn : lineWidth "return " = 7 := by decide
  have hend : lineWidth ";" = 1 := by decide
  apply wraps_of_lineWidth
  rw [lineWidth_append, lineWidth_append, lineWidth_castTo, hreturn, hend]
  omega

theorem place_wraps (stride : UInt32) (depth : Nat) (h : depth ≤ 2) :
    Formatter.Wraps {} (elementPlace stride) depth := by
  have hwidth : lineWidth "int a = (index+1) * " + lineWidth ";" = 21 := by decide
  rw [elementPlace_eq]
  exact number_wraps stride (by omega)

/-- A line that casts an element breaks between its two references. -/
theorem chain_wraps {type : String} (htype : Narrow 19 type) (slot : UInt32) :
    Formatter.Wraps {} ("return " ++ castTo type
      ("Ref(base, " ++ number slot ++ ").Ref(base, a)") ++ ";") 1 := by
  have hcast : Narrow 25 "return static_cast<const " := by decide
  have hclose : Narrow 1 ">" := by decide
  have hhead := (hcast.append htype).append hclose
  have hline : "return " ++ castTo type ("Ref(base, " ++ number slot ++ ").Ref(base, a)") ++ ";" =
      "return static_cast<const " ++ type ++ ">" ++ "(" ++
        ("Ref(base," ++ " " ++ (number slot ++ ").Ref(base," ++ " " ++ "a));")) := by
    apply String.toList_injective
    simp [castTo_eq]
  -- the widest piece is the number with the call behind it
  have hmiddle : lineWidth (number slot ++ ").Ref(base,") < 22 := by
    have hnumber := lineWidth_number_le slot
    have hcall : lineWidth ").Ref(base," = 11 := by decide
    rw [lineWidth_append, hcall]
    omega
  have hback : Breakable 22
      ("Ref(base," ++ " " ++ (number slot ++ ").Ref(base," ++ " " ++ "a));")).toList :=
    breakable_cut (by decide) (breakable_cut hmiddle (.last (by decide)))
  have hbrace : '\x7b' ∉
      ("Ref(base," ++ " " ++ (number slot ++ ").Ref(base," ++ " " ++ "a));")).toList.dropLast := by
    intro hmem
    have hin := (List.dropLast_sublist _).subset hmem
    have hnumber : '\x7b' ∉ (number slot).toList := not_mem_toString (by decide) slot.toNat
    simp [hnumber] at hin
  rw [hline]
  exact wraps_of_head hhead hbrace hback (by decide)

/-- The function of a class wraps if its head and the lines of its body do. -/
theorem function_wraps {header : String} {body : List String}
    (hheader : Formatter.Wraps {} (opened header) 1)
    (hbody : ∀ text ∈ body, Formatter.Wraps {} text 2) :
    ∀ entry ∈ function header body 1, entry.Wraps {} := by
  rw [forall_function]
  exact ⟨hheader, hbody, wraps_of_lineWidth (by decide)⟩

section Accessors

variable {accessor : Accessor} (hnames : ∀ name ∈ accessor.names, Narrow 16 name)
  (element : IndexElement)

include hnames

theorem field_narrow : Narrow 16 accessor.field := hnames _ (List.mem_cons_self ..)

theorem type_narrow : Narrow 19 (valueType accessor.value) :=
  valueType_narrow fun name hname => hnames name (List.mem_cons_of_mem _ hname)

theorem bare_wraps :
    Formatter.Wraps {} (opened
      ("inline " ++ valueType accessor.value ++ " " ++ accessor.field ++ "() const")) 1 := by
  have htype := (type_narrow hnames).1
  have hfield := (field_narrow hnames).1
  have hinline : lineWidth "inline " = 7 := by decide
  have hspace : lineWidth " " = 1 := by decide
  have hend : lineWidth "() const" = 8 := by decide
  apply wraps_of_lineWidth
  rw [lineWidth_opened]
  simp only [lineWidth_append]
  omega

theorem sizeLines_wrap :
    ∀ entry ∈ sizeLines accessor element.typeName 1, entry.Wraps {} := by
  have hfield := (field_narrow hnames).1
  have hpointer := lineWidth_typeName_le element
  have hinline : lineWidth "inline int " = 11 := by decide
  have hsize : lineWidth "_size(const " = 12 := by decide
  have hend : lineWidth "* base) const" = 13 := by decide
  apply function_wraps
  · apply wraps_of_lineWidth
    rw [lineWidth_opened]
    simp only [lineWidth_append]
    omega
  · rw [List.forall_mem_singleton]
    exact number_wraps accessor.offset (by decide)

theorem singleLines_wrap (hsingle : accessor.cardinality = .single) :
    ∀ entry ∈ singleLines accessor element.typeName 1, entry.Wraps {} := by
  have htype := type_narrow hnames
  have hfield := field_narrow hnames
  have hbare := bare_wraps hnames
  have hcast : Formatter.Wraps {} ("return " ++ castTo (valueType accessor.value)
      ("Int(" ++ number accessor.offset ++ ")") ++ ";") 2 := by
    have hslot := lineWidth_number_le accessor.offset
    have hcall : lineWidth "Int(" + lineWidth ")" = 5 := by decide
    have hwidth := htype.1
    apply cast_wraps
    simp only [lineWidth_append]
    omega
  have hsignature := @signatureOf_wraps accessor accessor.field
  obtain ⟨field, offset, value, cardinality⟩ := accessor
  cases hsingle
  cases value with
  | int | bool =>
    refine function_wraps hbare ?_
    rw [List.forall_mem_singleton]
    exact number_wraps offset (by decide)
  | id | enumeration typeName =>
    refine function_wraps hbare ?_
    rw [List.forall_mem_singleton]
    exact hcast
  | str =>
    refine function_wraps (hsignature htype hfield element (by decide) (by decide)) ?_
    rw [List.forall_mem_singleton]
    exact number_wraps offset (by decide)
  | object typeName isOptional =>
    intro entry hentry
    rw [List.mem_singleton.mp hentry]
    exact hsignature htype hfield element (by decide) (by decide)

theorem elementLines_wrap {stride : UInt32} (hrepeated : accessor.cardinality = .repeated stride) :
    ∀ entry ∈ elementLines accessor stride element.typeName 1, entry.Wraps {} := by
  have htype := type_narrow hnames
  have hfield := field_narrow hnames
  have hplace := place_wraps stride 2 (Nat.le_refl 2)
  -- with sixteen bytes in the name of the type this line fills the page
  have hcast : Formatter.Wraps {} ("return " ++ castTo (valueType accessor.value)
      ("Ref(base, " ++ number accessor.offset ++ ")" ++ ".Int(a)") ++ ";") 2 := by
    have harray := lineWidth_array_le accessor.offset
    have hcall : lineWidth ".Int(a)" = 7 := by decide
    have hwidth := htype.1
    apply cast_wraps
    rw [lineWidth_append, hcall]
    omega
  have hsignature := @signatureOf_wraps accessor accessor.field
  obtain ⟨field, offset, value, cardinality⟩ := accessor
  cases hrepeated
  have hbodied : ∀ result, Formatter.Wraps {} result 2 →
      ∀ text ∈ [elementPlace stride, result], Formatter.Wraps {} text 2 := by
    intro result hresult
    rw [List.forall_mem_cons, List.forall_mem_singleton]
    exact ⟨hplace, hresult⟩
  cases value with
  | int | bool =>
    exact function_wraps (hsignature htype hfield element (by decide) (by decide))
      (hbodied _ (array_wraps offset (by decide)))
  | id | enumeration typeName =>
    exact function_wraps (hsignature htype hfield element (by decide) (by decide))
      (hbodied _ hcast)
  | str =>
    exact function_wraps (hsignature htype hfield element (by decide) (by decide))
      (hbodied _ (array_wraps offset (by decide)))
  | object typeName isOptional =>
    intro entry hentry
    rw [List.mem_singleton.mp hentry]
    exact hsignature htype hfield element (by decide) (by decide)

/-- **An accessor with names of sixteen bytes wraps in its class.** -/
theorem accessorLines_wrap :
    ∀ entry ∈ accessorLines accessor element.typeName 1, entry.Wraps {} := by
  rw [accessorLines]
  cases hcardinality : accessor.cardinality with
  | single => exact singleLines_wrap hnames element hcardinality
  | «repeated» stride =>
    intro entry hentry
    rcases List.mem_append.mp hentry with hsize | helement
    · exact sizeLines_wrap hnames element entry hsize
    · exact elementLines_wrap hnames element hcardinality entry helement

/-! ## Accessors behind their class -/

theorem downcast_wraps : Formatter.Wraps {} (downcast accessor) 1 := by
  have htype := type_narrow hnames
  have hsingle : ∀ call, lineWidth call ≤ 15 → Formatter.Wraps {} ("return " ++
      castTo (valueType accessor.value) (call ++ number accessor.offset ++ ")") ++ ";") 1 := by
    intro call hcall
    have hwidth := htype.1
    have hnumber := lineWidth_number_le accessor.offset
    have hend : lineWidth ")" = 1 := by decide
    apply cast_wraps
    rw [lineWidth_append, lineWidth_append, hend]
    omega
  have hchain := chain_wraps htype accessor.offset
  rw [downcast_eq]
  unfold operandOf
  rcases accessor with ⟨field, offset, value, cardinality⟩
  cases cardinality with
  | single =>
    rcases value with _ | _ | _ | _ | _ | ⟨typeName, _ | _⟩ <;> exact hsingle _ (by decide)
  | «repeated» stride =>
    rcases value with _ | _ | _ | _ | _ | ⟨typeName, _ | _⟩ <;> exact hchain

end Accessors

/-- **A deferred body with names of sixteen bytes wraps.** Its head has no column to spare. -/
theorem deferredLines_wrap {deferred : Deferred}
    (hnames : ∀ name ∈ deferred.names, Narrow 16 name) (element : IndexElement) :
    ∀ entry ∈ deferredLines deferred element.typeName, entry.Wraps {} := by
  have howner : Narrow 18 (refName deferred.owner) :=
    refName_narrow fun name hname => hnames name (List.mem_append_left _ hname)
  have haccessor : ∀ name ∈ deferred.accessor.names, Narrow 16 name :=
    fun name hname => hnames name (List.mem_append_right _ hname)
  have hcolons : Narrow 2 "::" := by decide
  have hqualified := (howner.append hcolons).append (field_narrow haccessor)
  -- 13 + 19 + 1 + 36 columns, the parenthesis, and ten for the pointer type: all 80
  have hhead : Formatter.Wraps {} (outlinedHead deferred element.typeName) 0 :=
    signatureOf_wraps (type_narrow haccessor) hqualified element (by decide) (by decide)
  have hplace : ∀ text ∈ placeLines deferred.accessor, Formatter.Wraps {} text 1 := by
    rw [placeLines]
    cases deferred.accessor.cardinality with
    | single => exact fun _ h => absurd h List.not_mem_nil
    | «repeated» stride =>
      rw [List.forall_mem_singleton]
      exact place_wraps stride 1 (by decide)
  rw [forall_deferredLines, outlinedBody, List.forall_mem_append, List.forall_mem_singleton]
  exact ⟨hhead, ⟨hplace, downcast_wraps haccessor⟩, trivial⟩

/-! ## Declarations -/

theorem forwardLines_wrap {names : List String} (hnames : ∀ name ∈ names, Narrow 16 name) :
    ∀ entry ∈ forwardLines names, entry.Wraps {} := by
  rw [forall_forwardLines]
  refine ⟨?_, wraps_of_lineWidth (by decide)⟩
  intro name hin
  have hclass := (className_narrow (hnames name hin)).1
  have hword : lineWidth "class " = 6 := by decide
  have hend : lineWidth ";" = 1 := by decide
  apply wraps_of_lineWidth
  rw [lineWidth_append, lineWidth_append]
  omega

/-- Texts with a comma and a space between them break after every comma. -/
theorem breakable_intercalate {limit : Nat} {texts : List String}
    (h : ∀ text ∈ texts, lineWidth text + 1 < limit) :
    Breakable limit (", ".intercalate texts).toList := by
  induction texts with
  | nil => exact .last (Nat.zero_le limit)
  | cons text texts ih =>
    obtain ⟨htext, htexts⟩ := List.forall_mem_cons.mp h
    cases texts with
    | nil =>
      rw [String.intercalate_singleton]
      exact .last (Nat.le_of_lt (Nat.lt_of_succ_lt htext))
    | cons next rest =>
      have hcomma : lineWidth "," = 1 := by decide
      have hsplit : ", ".intercalate (text :: next :: rest) =
          text ++ "," ++ " " ++ ", ".intercalate (next :: rest) := by
        rw [String.intercalate_cons_cons]
        apply String.toList_injective
        simp
      rw [hsplit]
      refine breakable_cut ?_ (ih htexts)
      rw [lineWidth_append, hcomma]
      exact htext

theorem not_mem_intercalate {c : Char} {texts : List String} (hcomma : c ∉ ", ".toList)
    (h : ∀ text ∈ texts, c ∉ text.toList) : c ∉ (", ".intercalate texts).toList := by
  induction texts with
  | nil =>
    rw [String.intercalate_nil]
    exact List.not_mem_nil
  | cons text texts ih =>
    obtain ⟨htext, htexts⟩ := List.forall_mem_cons.mp h
    cases texts with
    | nil =>
      rw [String.intercalate_singleton]
      exact htext
    | cons next rest =>
      rw [String.intercalate_cons_cons, String.toList_append, String.toList_append,
        List.mem_append, List.mem_append]
      rintro ((hin | hin) | hin)
      · exact htext hin
      · exact hcomma hin
      · exact ih htexts hin

/-- **Any number of values wraps**: no value is wider than the page. -/
theorem enumerationValues_wrap {variants : List EnumVariant}
    (hnames : ∀ variant ∈ variants, Narrow 16 variant.name) :
    Formatter.Wraps {} (enumerationValues variants) 1 := by
  have hvalues : ∀ text ∈ variants.map fun variant =>
      variant.name ++ " = " ++ toString variant.value.toNat, Narrow 22 text := by
    intro text htext
    obtain ⟨variant, hin, rfl⟩ := List.mem_map.mp htext
    have hequals : Narrow 3 " = " := by decide
    have hbound : variant.value.toNat < 256 := variant.value.toNat_lt
    have hvalue : Narrow 3 (toString variant.value.toNat) :=
      ⟨lineWidth_toString_le (by decide) (by omega), not_mem_toString (by decide) _,
        not_mem_toString (by decide) _⟩
    exact ((hnames variant hin).append hequals).append hvalue
  refine Formatter.wraps_of_plain ?_ ?_ ?_
  · exact not_mem_intercalate (by decide) fun text htext => (hvalues text htext).2.2
  · exact not_mem_intercalate (by decide) fun text htext => (hvalues text htext).2.1
  · show Breakable 78 _
    apply breakable_intercalate
    intro text htext
    have hwidth := (hvalues text htext).1
    omega

theorem attributeLines_wrap {attributes : List Attribute}
    (hnames : ∀ member ∈ attributes, Narrow 16 member.name) :
    ∀ entry ∈ attributeLines attributes 1, entry.Wraps {} := by
  rw [forall_attributeLines]
  intro member hin
  have hname := (hnames member hin).1
  have htype : lineWidth (builtinType member.builtin) ≤ 5 := by
    cases member.builtin <;> decide
  have hspace : lineWidth " " = 1 := by decide
  have hend : lineWidth ";" = 1 := by decide
  apply wraps_of_lineWidth
  simp only [lineWidth_append]
  omega

theorem classLines_wrap {name parent : String} {members : List Entry}
    (hname : lineWidth name ≤ 18) (hparent : lineWidth parent ≤ 18)
    (hmembers : ∀ entry ∈ members, entry.Wraps {}) :
    ∀ entry ∈ classLines name parent members 0, entry.Wraps {} := by
  have hhead : Formatter.Wraps {} (opened ("class " ++ name ++ " : public " ++ parent)) 0 := by
    have hclass : lineWidth "class " = 6 := by decide
    have hpublic : lineWidth " : public " = 10 := by decide
    apply wraps_of_lineWidth
    rw [lineWidth_opened]
    simp only [lineWidth_append]
    omega
  rw [forall_classLines]
  exact ⟨hhead, wraps_of_lineWidth (by decide), hmembers, wraps_of_lineWidth (by decide),
    wraps_of_lineWidth (by decide)⟩

/-- The lines of a declaration with names of sixteen bytes wrap. -/
theorem declarationLines_wrap {declaration : Declaration}
    (hnames : ∀ name ∈ declaration.names, Narrow 16 name) (element : IndexElement) :
    ∀ entry ∈ declarationLines declaration element.typeName, entry.Wraps {} := by
  cases declaration with
  | enumeration body =>
    have htype : Narrow 16 body.typeName := hnames _ (List.mem_cons_self ..)
    have hwidth := (enumName_narrow htype).1
    have hvalues := enumerationValues_wrap fun variant hin =>
      hnames variant.name (List.mem_cons_of_mem _ (List.mem_map_of_mem hin))
    have hhead : Formatter.Wraps {}
        (opened ("enum class " ++ enumName body.typeName ++ " : uint8_t")) 0 := by
      have hword : lineWidth "enum class " = 11 := by decide
      have hbase : lineWidth " : uint8_t" = 10 := by decide
      apply wraps_of_lineWidth
      rw [lineWidth_opened]
      simp only [lineWidth_append]
      omega
    rw [declarationLines, forall_enumerationLines]
    exact ⟨hhead, hvalues, wraps_of_lineWidth (by decide), wraps_of_lineWidth (by decide)⟩
  | taggedBase body =>
    have htype : Narrow 16 body.typeName := hnames _ (List.mem_cons_self ..)
    have hwidth := (enumName_narrow htype).1
    have hattributes := attributeLines_wrap fun member hin =>
      hnames member.name (List.mem_cons_of_mem _ (List.mem_map_of_mem hin))
    apply classLines_wrap (className_narrow htype).1 (by decide)
    rw [List.forall_mem_append]
    refine ⟨function_wraps ?_ ?_, hattributes⟩
    · have htag : lineWidth " tag() const" = 12 := by decide
      apply wraps_of_lineWidth
      rw [lineWidth_opened, lineWidth_append]
      omega
    · have hcast : lineWidth "return static_cast<" = 19 := by decide
      have hbytes : lineWidth ">(bytes_[0]);" = 13 := by decide
      rw [List.forall_mem_singleton]
      apply wraps_of_lineWidth
      simp only [lineWidth_append]
      omega
  | accessorClass body =>
    have href : ∀ name ∈ body.ref.names, Narrow 16 name :=
      fun name hin => hnames name (List.mem_append_left _ hin)
    have hattributes := attributeLines_wrap fun member hin => hnames member.name
      (List.mem_append_right _ (List.mem_append_right _ (List.mem_map_of_mem hin)))
    apply classLines_wrap (refName_narrow href).1 (parentName_narrow href).1
    rw [List.forall_mem_append]
    refine ⟨?_, hattributes⟩
    intro entry hmem
    obtain ⟨accessor, hin, hline⟩ := List.mem_flatMap.mp hmem
    have haccessors : ∀ name ∈ accessor.names, Narrow 16 name := fun name hname =>
      hnames name (List.mem_append_right _ (List.mem_append_left _
        (List.mem_flatMap.mpr ⟨accessor, hin, hname⟩)))
    exact accessorLines_wrap haccessors element entry hline

/-- **A unit with names of sixteen bytes can be written.** -/
theorem exists_unitText {layout : Layout} (hnames : ∀ name ∈ layout.names, Narrow 16 name) :
    ∃ text, unitText {} layout = .ok text := by
  rw [unitText_eq_render, exists_render_iff]
  intro entry hmem
  simp only [unitEntries, List.mem_append, List.mem_singleton] at hmem
  -- the first and the last entry are raw text
  rcases hmem with (((rfl | hforward) | hdeclaration) | hdeferred) | rfl
  · trivial
  · exact forwardLines_wrap (fun name hin => hnames name (List.mem_append_left _ hin)) entry
      hforward
  · obtain ⟨declaration, hin, hline⟩ := List.mem_flatMap.mp hdeclaration
    refine declarationLines_wrap (fun name hname => hnames name ?_) _ entry hline
    exact List.mem_append_right _ (List.mem_append_left _
      (List.mem_flatMap.mpr ⟨declaration, hin, hname⟩))
  · obtain ⟨deferred, hin, hline⟩ := List.mem_flatMap.mp hdeferred
    refine deferredLines_wrap (fun name hname => hnames name ?_) _ entry hline
    exact List.mem_append_right _ (List.mem_append_right _
      (List.mem_flatMap.mpr ⟨deferred, hin, hname⟩))
  · trivial

end ReaderGen.Reader

namespace ReaderGen

open Notation Reader

/-! ## The bound and its sharpness -/

theorem readerOf_eq {schema : Schema} {encoding : Encoding} {layout : Layout}
    (h : layoutOf schema encoding = .ok layout) :
    readerOf schema encoding = (unitText {} layout).mapError .format := by
  rw [readerOf, h]

/-- A product of the name that leads to itself under that name. -/
def loopSchema (name : String) : Schema :=
  ⟨"m", [⟨name, .product ⟨[⟨name, name, false, false⟩], []⟩⟩]⟩

theorem loopSchema_wellFormed (name : String) : (loopSchema name).WellFormed where
  distinct := List.nodup_singleton name
  bodies := by
    intro definition hmem
    rw [List.mem_singleton.mp hmem]
    have hone : FieldsWellFormed [⟨name, name, false, false⟩] := by
      refine ⟨List.nodup_singleton name, ?_⟩
      intro field hfield
      rw [List.mem_singleton.mp hfield]
      exact fun h => absurd h.1 Bool.false_ne_true
    exact .product (List.cons_ne_nil _ _) hone fieldsWellFormed_nil

theorem parse_loop_seventeen :
    parse "module m \x7b aaaaaaaaaaaaaaaaa = (aaaaaaaaaaaaaaaaa aaaaaaaaaaaaaaaaa) \x7d" =
      .ok (loopSchema "aaaaaaaaaaaaaaaaa") :=
  parse_of_kinds (by cbv) (loopSchema_wellFormed _)

/-- The accessor of that product, which is deferred. -/
def loopDeferred (name : String) : Deferred :=
  ⟨.product name, ⟨name, 0, .object name false, .single⟩⟩

/-- A name of seventeen bytes puts the parenthesis of the head in column 72, and the seven
columns behind it do not hold a pointer type. -/
theorem head_of_seventeen_not_wraps (element : IndexElement) :
    ¬ Formatter.Wraps {} (opened (pointerSignature "aaaaaaaaaaaaaaaaa_t&"
      "aaaaaaaaaaaaaaaaa_t::aaaaaaaaaaaaaaaaa" element.typeName)) 0 := by
  cases element <;>
    exact Formatter.not_wraps (by decide) rfl (by decide) (by decide)

/-- A queue with that accessor keeps a unit from being written. -/
theorem unitText_error_of_seventeen {layout : Layout}
    (hqueue : layout.deferred = [loopDeferred "aaaaaaaaaaaaaaaaa"]) :
    ∃ cause, unitText {} layout = .error cause := by
  cases hunit : unitText {} layout with
  | error cause => exact ⟨cause, rfl⟩
  | ok text =>
    rw [unitText_eq_render] at hunit
    have hwraps := exists_render_iff.mp ⟨text, hunit⟩
    refine absurd (hwraps (.line _ 0) ?_)
      (head_of_seventeen_not_wraps layout.encoding.indexElement)
    rw [unitEntries, hqueue]
    refine List.mem_append_left _ (List.mem_append_right _ ?_)
    exact List.mem_cons_self ..

/-- **Names of sixteen bytes always leave room, and names of seventeen do not.** A source whose
names have at most sixteen bytes gets a reader whenever it has a layout, for every encoding
there is. A source with names of seventeen bytes has a layout for every encoding and gets no
reader for any of them, since a line cannot be wrapped. -/
theorem sixteen_bytes_suffice :
    (∀ source schema encoding layout, parse source = .ok schema → schema.NamesWithin 16 →
      layoutOf schema encoding = .ok layout → ∃ text, readerOf schema encoding = .ok text) ∧
    (∃ source schema, parse source = .ok schema ∧ schema.NamesWithin 17 ∧
      ∀ encoding, (∃ layout, layoutOf schema encoding = .ok layout) ∧
        ∃ cause, readerOf schema encoding = .error (.format cause)) := by
  constructor
  · intro source schema encoding layout hparse hwithin hlayout
    have hnames : ∀ name ∈ layout.names, Narrow 16 name := by
      intro name hname
      have hin := Layout.names_subset_of_build (layoutOf_eq_ok_iff.mp hlayout) hname
      have hidentifier := identifier_of_parse hparse hin
      exact ⟨hwithin name hin, hidentifier.not_mem (by decide), hidentifier.not_mem (by decide)⟩
    obtain ⟨text, htext⟩ := exists_unitText hnames
    refine ⟨text, ?_⟩
    rw [readerOf_eq hlayout, htext]
    rfl
  · refine ⟨_, _, parse_loop_seventeen, by decide, ?_⟩
    intro encoding
    obtain ⟨layout, hlayout, hqueue⟩ :
        ∃ layout, layoutOf (loopSchema "aaaaaaaaaaaaaaaaa") encoding = .ok layout ∧
          layout.deferred = [loopDeferred "aaaaaaaaaaaaaaaaa"] := ⟨_, rfl, rfl⟩
    obtain ⟨cause, hcause⟩ := unitText_error_of_seventeen hqueue
    refine ⟨⟨layout, hlayout⟩, cause, ?_⟩
    rw [readerOf_eq hlayout, hcause]
    rfl

/-- The same product with a name of sixteen bytes. -/
theorem readerOf_loop_of_sixteen :
    parse "module m \x7b aaaaaaaaaaaaaaaa = (aaaaaaaaaaaaaaaa aaaaaaaaaaaaaaaa) \x7d" =
        .ok (loopSchema "aaaaaaaaaaaaaaaa") ∧
      (loopSchema "aaaaaaaaaaaaaaaa").NamesWithin 16 ∧
      (∃ layout, layoutOf (loopSchema "aaaaaaaaaaaaaaaa") .standard = .ok layout) ∧
      ∃ text, readerOf (loopSchema "aaaaaaaaaaaaaaaa") .standard = .ok text := by
  have hparse : parse "module m \x7b aaaaaaaaaaaaaaaa = (aaaaaaaaaaaaaaaa aaaaaaaaaaaaaaaa) \x7d" =
      .ok (loopSchema "aaaaaaaaaaaaaaaa") := parse_of_kinds (by cbv) (loopSchema_wellFormed _)
  have hwithin : (loopSchema "aaaaaaaaaaaaaaaa").NamesWithin 16 := by decide
  have hlayout : layoutOf (loopSchema "aaaaaaaaaaaaaaaa") .standard = .ok _ := rfl
  exact ⟨hparse, hwithin, ⟨_, hlayout⟩,
    sixteen_bytes_suffice.1 _ _ _ _ hparse hwithin hlayout⟩

end ReaderGen
