import ReaderGen.Proofs.Lists
import ReaderGen.Proofs.Reflow
import ReaderGen.Reader.Sheet

/-!
# ReaderGen.Proofs.Reader.Sheet -- what is written is the text of the entries, in order

What an emitter sends to its sheet is said here as data: a list of entries, each a logical line
with a depth or raw text. A sheet takes entries one by one, up to the first that cannot be
wrapped, and carries its text along (`Sheet.write`); **entries are written exactly if each of
them has a physical text, and these texts then stand behind what the sheet held**
(`write_eq_ok_iff`). An argument about a unit works with the list of physical texts and never
with the sheet.

That the emitters, which are programs with branches, loops and early ends, do to a sheet what
their entries say is the subject of ReaderGen.Proofs.Reader.Emitters.
-/

namespace ReaderGen.Reader

/-- One thing to be written. -/
inductive Entry where
  | line (text : String) (depth : Nat)
  | raw (text : String)
  deriving DecidableEq, Repr

/-- The text that an entry alone becomes. -/
def Entry.physical (formatter : Formatter) : Entry → Except Reflow.Unbreakable String
  | line text depth =>
    match formatter.format text depth with
    | .error fault => .error fault
    | .ok lines => .ok (String.join lines)
  | raw text => .ok text

/-- Writes entries in order, up to the first that cannot be wrapped. -/
def Sheet.write (sheet : Sheet) : List Entry → EStateM.Result Reflow.Unbreakable Sheet Unit
  | [] => .ok () sheet
  | entry :: rest =>
    match entry.physical sheet.formatter with
    | .error fault => .error fault sheet
    | .ok text => write { sheet with text := sheet.text ++ text } rest

/-- The text that entries become, if every line of them can be wrapped. -/
def render (formatter : Formatter) (entries : List Entry) : Except Reflow.Unbreakable String :=
  match (Sheet.blank formatter).write entries with
  | .error fault _ => .error fault
  | .ok () sheet => .ok sheet.text

/-- The entry can be written: raw text always can. -/
def Entry.Wraps (formatter : Formatter) : Entry → Prop
  | .line text depth => formatter.Wraps text depth
  | .raw _ => True

theorem exists_physical_iff {formatter : Formatter} {entry : Entry} :
    (∃ text, entry.physical formatter = .ok text) ↔ entry.Wraps formatter := by
  cases entry with
  | raw text => exact iff_of_true ⟨text, rfl⟩ trivial
  | line text depth =>
    rw [Entry.physical, Entry.Wraps, Formatter.Wraps]
    cases formatter.format text depth with
    | error fault => simp
    | ok lines => simp

/-- **Writing adds the physical texts of the entries, in order.** -/
theorem write_eq_ok_iff {sheet after : Sheet} {entries : List Entry} :
    sheet.write entries = .ok () after ↔
      ∃ texts, List.Forall₂ (fun entry text => entry.physical sheet.formatter = .ok text)
          entries texts ∧
        after = { sheet with text := sheet.text ++ String.join texts } := by
  induction entries generalizing sheet with
  | nil => simp [Sheet.write, eq_comm]
  | cons entry entries ih =>
    rw [Sheet.write]
    cases hphysical : entry.physical sheet.formatter with
    | error fault =>
      constructor
      · intro h
        cases h
      · rintro ⟨texts, htexts, -⟩
        cases htexts with
        | cons hentry _ => cases hphysical.symm.trans hentry
    | ok text =>
      simp only [ih]
      constructor
      · rintro ⟨texts, htexts, rfl⟩
        exact ⟨text :: texts, .cons hphysical htexts, by simp [String.append_assoc]⟩
      · rintro ⟨_, htexts, rfl⟩
        cases htexts with
        | @cons _ first _ texts hentry hrest =>
          cases hphysical.symm.trans hentry
          exact ⟨texts, hrest, by simp [String.append_assoc]⟩

theorem render_eq_ok_iff {formatter : Formatter} {entries : List Entry} {text : String} :
    render formatter entries = .ok text ↔
      ∃ texts, List.Forall₂ (fun entry text => entry.physical formatter = .ok text)
          entries texts ∧ text = String.join texts := by
  have hsheet : render formatter entries = .ok text ↔
      ∃ sheet, (Sheet.blank formatter).write entries = .ok () sheet ∧ sheet.text = text := by
    rw [render]
    cases (Sheet.blank formatter).write entries <;> simp
  rw [hsheet]
  constructor
  · rintro ⟨_, hwrite, rfl⟩
    obtain ⟨texts, htexts, rfl⟩ := write_eq_ok_iff.mp hwrite
    exact ⟨texts, htexts, String.empty_append⟩
  · rintro ⟨texts, htexts, rfl⟩
    exact ⟨_, write_eq_ok_iff.mpr ⟨texts, htexts, rfl⟩, String.empty_append⟩

/-- **Text is written exactly if every line of it wraps.** -/
theorem exists_render_iff {formatter : Formatter} {entries : List Entry} :
    (∃ text, render formatter entries = .ok text) ↔ ∀ entry ∈ entries, entry.Wraps formatter := by
  have htexts : (∃ text, render formatter entries = .ok text) ↔
      ∃ texts, List.Forall₂ (fun entry text => entry.physical formatter = .ok text)
        entries texts := by
    simp only [render_eq_ok_iff]
    constructor
    · rintro ⟨_, texts, htexts, -⟩
      exact ⟨texts, htexts⟩
    · rintro ⟨texts, htexts⟩
      exact ⟨_, texts, htexts, rfl⟩
  rw [htexts, exists_forall₂_iff]
  simp only [exists_physical_iff]

/-! ## Faults -/

/-- **Writing stops at the first entry that cannot be written**, behind the physical texts of
the entries in front of it. -/
theorem write_eq_error_iff {sheet after : Sheet} {entries : List Entry}
    {fault : Reflow.Unbreakable} :
    sheet.write entries = .error fault after ↔
      ∃ before entry rest texts, entries = before ++ entry :: rest ∧
        List.Forall₂ (fun entry text => entry.physical sheet.formatter = .ok text) before texts ∧
        entry.physical sheet.formatter = .error fault ∧
        after = { sheet with text := sheet.text ++ String.join texts } := by
  induction entries generalizing sheet with
  | nil => simp [Sheet.write]
  | cons entry entries ih =>
    rw [Sheet.write]
    cases hphysical : entry.physical sheet.formatter with
    | error cause =>
      constructor
      · intro h
        cases h
        exact ⟨[], entry, entries, [], rfl, .nil, hphysical, by simp⟩
      · rintro ⟨before, other, rest, texts, hentries, htexts, hfault, rfl⟩
        cases htexts with
        | nil =>
          obtain ⟨rfl, -⟩ := List.cons.inj hentries
          cases hphysical.symm.trans hfault
          simp
        | cons hfirst _ =>
          obtain ⟨rfl, -⟩ := List.cons.inj hentries
          cases hphysical.symm.trans hfirst
    | ok text =>
      simp only [ih]
      constructor
      · rintro ⟨before, other, rest, texts, rfl, htexts, hfault, rfl⟩
        exact ⟨entry :: before, other, rest, text :: texts, rfl, .cons hphysical htexts, hfault,
          by simp [String.append_assoc]⟩
      · rintro ⟨before, other, rest, texts, hentries, htexts, hfault, rfl⟩
        cases htexts with
        | nil =>
          obtain ⟨rfl, -⟩ := List.cons.inj hentries
          cases hphysical.symm.trans hfault
        | @cons _ first before texts hfirst hbefore =>
          obtain ⟨rfl, rfl⟩ := List.cons.inj hentries
          cases hphysical.symm.trans hfirst
          exact ⟨before, other, rest, texts, rfl, hbefore, hfault, by simp [String.append_assoc]⟩

/-- **The fault of entries is that of the first one that cannot be written.** -/
theorem render_eq_error_iff {formatter : Formatter} {entries : List Entry}
    {fault : Reflow.Unbreakable} :
    render formatter entries = .error fault ↔
      FailsFirst (fun entry : Entry => entry.physical formatter) entries fault := by
  have hsheet : render formatter entries = .error fault ↔
      ∃ sheet, (Sheet.blank formatter).write entries = .error fault sheet := by
    rw [render]
    cases (Sheet.blank formatter).write entries <;> simp
  simp only [hsheet, write_eq_error_iff]
  constructor
  · rintro ⟨_, before, entry, rest, texts, hentries, htexts, hfault, -⟩
    exact ⟨before, entry, rest, hentries, exists_forall₂_iff.mp ⟨texts, htexts⟩, hfault⟩
  · rintro ⟨before, entry, rest, hentries, hbefore, hfault⟩
    obtain ⟨texts, htexts⟩ := exists_forall₂_iff.mpr hbefore
    exact ⟨_, before, entry, rest, texts, hentries, htexts, hfault, rfl⟩

/-! ## Entries in parts -/

section Parts

variable {formatter : Formatter} {front back : List Entry} {text : String}

/-- Entries have a text exactly if each has a physical text. -/
theorem exists_render_iff_physical {entries : List Entry} :
    (∃ text, render formatter entries = .ok text) ↔
      ∀ entry ∈ entries, ∃ text, entry.physical formatter = .ok text := by
  simp only [exists_render_iff, exists_physical_iff]

/-- The text of two lists of entries is the two texts that each has alone. -/
theorem render_append_eq_ok_iff :
    render formatter (front ++ back) = .ok text ↔
      ∃ first second, render formatter front = .ok first ∧ render formatter back = .ok second ∧
        text = first ++ second := by
  simp only [render_eq_ok_iff]
  constructor
  · rintro ⟨texts, htexts, rfl⟩
    obtain ⟨firsts, seconds, rfl, hfirsts, hseconds⟩ := forall₂_append_left_iff.mp htexts
    exact ⟨_, _, ⟨firsts, hfirsts, rfl⟩, ⟨seconds, hseconds, rfl⟩, String.join_append⟩
  · rintro ⟨_, _, ⟨firsts, hfirsts, rfl⟩, ⟨seconds, hseconds, rfl⟩, rfl⟩
    exact ⟨firsts ++ seconds, forall₂_append_left_iff.mpr ⟨_, _, rfl, hfirsts, hseconds⟩,
      String.join_append.symm⟩

end Parts

end ReaderGen.Reader
