import ReaderGen.CommandLine
import Mathlib.Data.List.Basic

/-!
# ReaderGen.Proofs.CommandLine -- where the texts of a request come from

A request carries two texts, an action and a path. The reading of the arguments takes each of
them over from an argument of its own and makes none up (`parse_texts`): every step keeps the
texts it was given, and only a positional argument adds one, itself.
-/

namespace ReaderGen.CommandLine

/-! ## Texts -/

/-- The text that waits to be looked at as an action or as a path. -/
def Pending.text? : Pending → Option String
  | .action text => some text
  | .schema text => some text
  | .setting _ _ => none

namespace Progress

/-- The action and the path that have been read, and the one that waits. -/
def texts (p : Progress) : List String :=
  p.action.toList ++ (p.schema.toList ++ (p.pending.bind Pending.text?).toList)

variable {p after : Progress} {text : String}

/-! ## Steps -/

theorem bind_eq_ok {α β ε : Type} {first : Except ε α} {next : α → Except ε β} {value : β}
    (h : first >>= next = .ok value) : ∃ middle, first = .ok middle ∧ next middle = .ok value := by
  cases first with
  | error fault => cases h
  | ok middle => exact ⟨middle, rfl, h⟩

theorem assign_texts {setting : Setting} (h : p.assign setting text = .ok after) :
    after.texts = p.texts := by
  unfold assign at h
  split at h
  · cases h
  · split at h
    · cases h
    · cases h
      cases setting <;> rfl

/-- To look at what waits only moves it. -/
theorem settle_texts (h : p.settle = .ok after) : after.texts ⊆ p.texts := by
  unfold settle at h
  split at h
  · cases h
    exact fun _ hmem => hmem
  · next text hpending =>
    cases h
    simp [texts, hpending, Pending.text?]
  · next text hpending =>
    split at h
    · cases h
    · cases h
      simp [texts, hpending, Pending.text?]
  · cases h
  · next setting text hpending =>
    rw [assign_texts h]
    simp [texts, hpending, Pending.text?]

theorem takeSetting_texts {setting : Setting} {value : Option String}
    (h : p.takeSetting setting value = .ok after) : after.texts ⊆ p.texts := by
  obtain ⟨settled, hsettle, h⟩ := bind_eq_ok h
  cases value with
  | some text =>
    rw [assign_texts h]
    exact settle_texts hsettle
  | none =>
    -- an option that waits for its number stands in place of what waited before
    cases h
    refine List.Subset.trans ?_ (settle_texts hsettle)
    simp [texts, Pending.text?]

theorem takePrintLayout_texts (h : p.takePrintLayout = .ok after) : after.texts ⊆ p.texts := by
  obtain ⟨settled, hsettle, h⟩ := bind_eq_ok h
  have hkept := settle_texts hsettle
  split at h
  · cases h
  · cases h
    exact hkept

theorem takeVerbose_texts (h : p.takeVerbose = .ok after) : after.texts ⊆ p.texts := by
  obtain ⟨settled, hsettle, h⟩ := bind_eq_ok h
  have hkept := settle_texts hsettle
  split at h
  · cases h
  · cases h
    exact hkept

theorem takeHelp_ne_ok : p.takeHelp ≠ .ok after := by
  intro h
  obtain ⟨settled, -, h⟩ := bind_eq_ok h
  cases h

theorem takeFlag_eq_ok {name : String} {value : Option String} {take : Except Stop Progress}
    (h : takeFlag name value take = .ok after) : take = .ok after := by
  unfold takeFlag at h
  split at h
  · cases h
  · exact h

theorem takeLong_texts {name : String} {value : Option String}
    (h : p.takeLong name value = .ok after) : after.texts ⊆ p.texts := by
  unfold takeLong at h
  split at h
  · exact takeSetting_texts h
  · exact takeSetting_texts h
  · exact takePrintLayout_texts (takeFlag_eq_ok h)
  · exact takeVerbose_texts (takeFlag_eq_ok h)
  · exact absurd (takeFlag_eq_ok h) takeHelp_ne_ok
  · cases h

theorem takeShorts_texts {letters : List Char} (h : p.takeShorts letters = .ok after) :
    after.texts ⊆ p.texts := by
  fun_induction takeShorts p letters with
  | case1 p =>
    cases h
    exact fun _ hmem => hmem
  | case2 p rest ih =>
    obtain ⟨middle, hverbose, h⟩ := bind_eq_ok h
    exact List.Subset.trans (ih _ h) (takeVerbose_texts hverbose)
  | case3 p _ => exact absurd h takeHelp_ne_ok
  | case4 => cases h

theorem takePositional_texts (h : p.takePositional text = .ok after) :
    after.texts ⊆ text :: p.texts := by
  have hwaits : ∀ {settled : Progress}, p.settle = .ok settled →
      settled.action.toList ++ (settled.schema.toList ++ [text]) ⊆ text :: p.texts := by
    intro settled hsettle name hname
    have hkept := settle_texts hsettle
    simp only [List.mem_append, List.mem_singleton] at hname
    rcases hname with haction | hschema | rfl
    · exact List.mem_cons_of_mem _ (hkept (List.mem_append_left _ haction))
    · exact List.mem_cons_of_mem _
        (hkept (List.mem_append_right _ (List.mem_append_left _ hschema)))
    · exact List.mem_cons_self ..
  unfold takePositional at h
  simp only at h
  split at h
  · obtain ⟨settled, hsettle, h⟩ := bind_eq_ok h
    have hmoved := hwaits hsettle
    cases h
    exact hmoved
  · obtain ⟨settled, hsettle, h⟩ := bind_eq_ok h
    have hmoved := hwaits hsettle
    cases h
    exact hmoved
  · cases h

theorem takePlain_texts (h : p.takePlain text = .ok after) : after.texts ⊆ text :: p.texts := by
  unfold takePlain at h
  split at h
  · next setting hpending =>
    cases h
    simp [texts, hpending, Pending.text?]
  · exact takePositional_texts h

/-! ## Runs -/

/-- What a step on the first argument adds is that argument. -/
theorem append_subset_of_step {args known more : List String} (h : more ⊆ text :: known) :
    args ++ more ⊆ text :: args ++ known := by
  refine List.append_subset.mpr ⟨?_, ?_⟩
  · exact List.subset_append_of_subset_left _ (List.subset_cons_self ..)
  · refine List.Subset.trans h (List.cons_subset.mpr ⟨List.mem_cons_self .., ?_⟩)
    exact List.subset_append_right ..

theorem takeRest_texts {args : List String} (h : p.takeRest args = .ok after) :
    after.texts ⊆ args ++ p.texts := by
  induction args generalizing p with
  | nil => exact settle_texts h
  | cons text rest ih =>
    obtain ⟨middle, htake, h⟩ := bind_eq_ok h
    exact List.Subset.trans (ih h) (append_subset_of_step (takePositional_texts htake))

/-- **To read arguments adds arguments only.** -/
theorem takeAll_texts {args : List String} (h : p.takeAll args = .ok after) :
    after.texts ⊆ args ++ p.texts := by
  induction args generalizing p with
  | nil => exact settle_texts h
  | cons text rest ih =>
    -- an option adds no text
    have hoption : ∀ {middle : Progress}, middle.takeAll rest = .ok after →
        middle.texts ⊆ p.texts → after.texts ⊆ text :: rest ++ p.texts :=
      fun hrest hkept =>
        List.Subset.trans (ih hrest)
          (append_subset_of_step (List.subset_cons_of_subset _ hkept))
    unfold takeAll at h
    split at h
    · exact List.Subset.trans (takeRest_texts h)
        (append_subset_of_step (List.subset_cons_self ..))
    · obtain ⟨middle, htake, h⟩ := bind_eq_ok h
      exact hoption h (takeLong_texts htake)
    · obtain ⟨middle, htake, h⟩ := bind_eq_ok h
      exact hoption h (takeShorts_texts htake)
    · obtain ⟨middle, htake, h⟩ := bind_eq_ok h
      exact List.Subset.trans (ih h) (append_subset_of_step (takePlain_texts htake))

end Progress

/-- **The action and the path of a request are arguments.** -/
theorem parse_texts {args : List String} {request : Request} (h : parse args = .ok request) :
    request.action.toList ++ request.schemaPath.toList ⊆ args := by
  rw [parse] at h
  cases hread : Progress.takeAll {} args with
  | error stop =>
    rw [hread] at h
    cases h
  | ok progress =>
    rw [hread] at h
    cases h
    have htexts := Progress.takeAll_texts hread
    have hnone : args ++ ({} : Progress).texts = args := List.append_nil _
    rw [hnone, Progress.texts, List.append_subset, List.append_subset] at htexts
    exact List.append_subset.mpr ⟨htexts.1, htexts.2.1⟩

end ReaderGen.CommandLine
