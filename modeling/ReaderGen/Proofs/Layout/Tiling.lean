import ReaderGen.Proofs.Layout.Exact
import Mathlib

/-!
# ReaderGen.Proofs.Layout.Tiling -- slots neither overlap nor leave gaps

A slot is the run of bytes from its offset on, one slot width long. **The slots of a
class are consecutive, and so are the count and the elements of an array**, which needs
two facts of different origin:

* the stride of an array is the width of a slot, an invariant of every history of
  parameter updates (`Encoding.Reached.slotSized`);
* the offset of accessor `k` is the first offset plus `k` widths, a loop invariant of
  the layout (`Slots.offset_toNat`), as long as the 32 bits of an offset do not wrap.

Both are the same tiling of the numbers by runs of one width (`mem_runs_iff`).
-/

namespace ReaderGen

/-! ## Runs of one width -/

/-- The bytes of a slot. -/
def slotBytes (width offset : ℕ) : Set ℕ := Set.Ico offset (offset + width)

@[simp] theorem mem_slotBytes {width offset byte : ℕ} :
    byte ∈ slotBytes width offset ↔ offset ≤ byte ∧ byte < offset + width := Set.mem_Ico

/-- Two runs of a tiling share no byte. -/
theorem disjoint_runs {width first i j : ℕ} (h : i ≠ j) :
    Disjoint (slotBytes width (first + i * width)) (slotBytes width (first + j * width)) := by
  rw [Set.disjoint_left]
  intro byte hi hj
  rw [mem_slotBytes] at hi hj
  rcases Nat.lt_or_gt_of_ne h with hlt | hlt
  · have hnext : (i + 1) * width ≤ j * width := Nat.mul_le_mul_right width hlt
    rw [Nat.add_mul] at hnext
    omega
  · have hnext : (j + 1) * width ≤ i * width := Nat.mul_le_mul_right width hlt
    rw [Nat.add_mul] at hnext
    omega

/-- The first `count` runs of a tiling cover exactly the bytes up to the next run. -/
theorem mem_runs_iff {width first count byte : ℕ} :
    (∃ k < count, byte ∈ slotBytes width (first + k * width)) ↔
      first ≤ byte ∧ byte < first + count * width := by
  simp only [mem_slotBytes]
  constructor
  · rintro ⟨k, hk, hlo, hhi⟩
    have hnext : (k + 1) * width ≤ count * width := Nat.mul_le_mul_right width hk
    rw [Nat.add_mul] at hnext
    omega
  · rintro ⟨hlo, hhi⟩
    have hwidth : 0 < width := by
      rcases Nat.eq_zero_or_pos width with hzero | hpos
      · rw [hzero, Nat.mul_zero] at hhi
        omega
      · exact hpos
    -- the byte stands in the run whose number is its distance from the first, in widths
    have hk : (byte - first) / width < count := by
      rw [Nat.div_lt_iff_lt_mul hwidth]
      omega
    have hsplit := Nat.div_add_mod' (byte - first) width
    have hrest := Nat.mod_lt (byte - first) hwidth
    refine ⟨(byte - first) / width, hk, ?_, ?_⟩ <;> omega

/-! ## Histories of parameters -/

namespace Encoding

/-- The parameters after an attempt to change the slot width; a refused width leaves them
as they were. -/
def tryRefWidth (encoding : Encoding) (refWidth : UInt32) : Encoding :=
  match encoding.withRefWidth refWidth with
  | .ok changed => changed
  | .error _ => encoding

/-- The parameters that some history of checked constructions leads to. -/
inductive Reached : Encoding → Prop
  | standard : Reached standard
  | ofAlignment {alignment : UInt32} {encoding : Encoding} :
      Encoding.ofAlignment alignment = .ok encoding → Reached encoding
  | tryRefWidth {encoding : Encoding} (refWidth : UInt32) :
      Reached encoding → Reached (encoding.tryRefWidth refWidth)

/-- An element takes one slot, and a slot has one to four bytes. -/
structure SlotSized (encoding : Encoding) : Prop where
  stride_eq : encoding.arrayStride = encoding.refWidth
  pos : 0 < encoding.refWidth.toNat
  le_four : encoding.refWidth.toNat ≤ 4

/-- The width and stride that every construction starts from. -/
theorem slotSized_three (alignment : UInt32) (indexElement : IndexElement) :
    SlotSized ⟨alignment, 3, indexElement, 3⟩ := by
  have hthree : (3 : UInt32).toNat = 3 := rfl
  exact ⟨rfl, by simp only; omega, by simp only; omega⟩

theorem slotSized_of_ofAlignment {alignment : UInt32} {encoding : Encoding}
    (h : ofAlignment alignment = .ok encoding) : encoding.SlotSized := by
  unfold ofAlignment at h
  split at h <;> cases h <;> exact slotSized_three ..

theorem SlotSized.tryRefWidth {encoding : Encoding} (h : encoding.SlotSized)
    (refWidth : UInt32) : (encoding.tryRefWidth refWidth).SlotSized := by
  unfold Encoding.tryRefWidth withRefWidth
  by_cases hrefused : refWidth = 0 ∨ 4 < refWidth
  · rw [if_pos hrefused]
    exact h
  · rw [if_neg hrefused]
    rw [not_or, ← UInt32.toNat_inj, UInt32.lt_iff_toNat_lt] at hrefused
    have hzero : (0 : UInt32).toNat = 0 := rfl
    have hfour : (4 : UInt32).toNat = 4 := rfl
    exact ⟨rfl, by simp only; omega, by simp only; omega⟩

/-- **Stride and width move together, whatever the history.** -/
theorem Reached.slotSized {encoding : Encoding} (h : encoding.Reached) :
    encoding.SlotSized := by
  induction h with
  | standard => exact slotSized_three ..
  | ofAlignment hok => exact slotSized_of_ofAlignment hok
  | tryRefWidth refWidth _ ih => exact ih.tryRefWidth refWidth

end Encoding

/-! ## Slots of a class -/

namespace Layout

variable {schema : Schema} {encoding : Encoding} {offset : UInt32} {fields : List Field}
  {accessors : List Accessor}

theorem Slots.fields_eq (h : Slots schema encoding offset fields accessors) :
    accessors.map Accessor.field = fields.map Field.name := by
  induction h with
  | nil => rfl
  | cons haccessor _ ih => rw [List.map_cons, List.map_cons, haccessor.field_eq, ih]

theorem Slots.length_eq (h : Slots schema encoding offset fields accessors) :
    accessors.length = fields.length := by
  rw [← List.length_map (f := Accessor.field), h.fields_eq, List.length_map]

/-- **Accessor `k` stands `k` widths behind the first offset**, unless offsets wrap. -/
theorem Slots.offset_toNat (h : Slots schema encoding offset fields accessors)
    (hbound : offset.toNat + accessors.length * encoding.refWidth.toNat < 2 ^ 32) {k : ℕ}
    {accessor : Accessor} (hk : accessors[k]? = some accessor) :
    accessor.offset.toNat = offset.toNat + k * encoding.refWidth.toNat := by
  induction h generalizing k with
  | nil => simp at hk
  | @cons offset field fields head accessors haccessor _ ih =>
    cases k with
    | zero =>
      rw [List.getElem?_cons_zero, Option.some.injEq] at hk
      rw [← hk, haccessor.offset_eq]
      omega
    | succ k =>
      rw [List.getElem?_cons_succ] at hk
      rw [List.length_cons, Nat.add_mul] at hbound
      have hnext : (offset + encoding.refWidth).toNat =
          offset.toNat + encoding.refWidth.toNat := by
        rw [UInt32.toNat_add, Nat.mod_eq_of_lt (by omega)]
      rw [ih (by omega) hk, hnext, Nat.add_mul]
      omega

/-- A repeated accessor has the stride of the parameters. -/
theorem Slots.stride_eq (h : Slots schema encoding offset fields accessors)
    {accessor : Accessor} (hmem : accessor ∈ accessors) {stride : UInt32}
    (hrepeated : accessor.cardinality = .repeated stride) : stride = encoding.arrayStride := by
  induction h with
  | nil => cases hmem
  | @cons _ field _ head _ haccessor _ ih =>
    rcases List.mem_cons.mp hmem with rfl | hrest
    · rw [haccessor.cardinality_eq] at hrepeated
      split at hrepeated
      · cases hrepeated
        rfl
      · cases hrepeated
    · exact ih hrest

/-! ## The tilings -/

/-- The slots of a class stand one after the other from `first` on. -/
structure ClassTiles (width first : ℕ) (accessors : List Accessor) : Prop where
  offset_eq : ∀ k accessor, accessors[k]? = some accessor →
    accessor.offset.toNat = first + k * width
  disjoint : accessors.Pairwise fun this that =>
    Disjoint (slotBytes width this.offset.toNat) (slotBytes width that.offset.toNat)
  contiguous : ⋃ accessor ∈ accessors, slotBytes width accessor.offset.toNat =
    Set.Ico first (first + accessors.length * width)

/-- The count of an array stands in front and its elements behind it, one after the other. -/
structure ArrayTiles (width stride : ℕ) : Prop where
  count_disjoint : ∀ i, Disjoint (slotBytes width 0) (slotBytes width ((i + 1) * stride))
  elements_disjoint : ∀ i j, i ≠ j →
    Disjoint (slotBytes width ((i + 1) * stride)) (slotBytes width ((j + 1) * stride))
  contiguous : ∀ count, slotBytes width 0 ∪ ⋃ i < count, slotBytes width ((i + 1) * stride) =
    Set.Ico 0 ((count + 1) * width)

theorem classTiles_of_offsets {width first : ℕ} {accessors : List Accessor}
    (h : ∀ k accessor, accessors[k]? = some accessor →
      accessor.offset.toNat = first + k * width) : ClassTiles width first accessors := by
  refine ⟨h, ?_, ?_⟩
  · rw [List.pairwise_iff_getElem]
    intro i j hi hj hlt
    rw [h i _ (List.getElem?_eq_getElem hi), h j _ (List.getElem?_eq_getElem hj)]
    exact disjoint_runs (Nat.ne_of_lt hlt)
  · ext byte
    rw [Set.mem_Ico, ← mem_runs_iff]
    simp only [Set.mem_iUnion, exists_prop]
    constructor
    · rintro ⟨accessor, hmem, hbyte⟩
      obtain ⟨k, hk, rfl⟩ := List.mem_iff_getElem.mp hmem
      rw [h k _ (List.getElem?_eq_getElem hk)] at hbyte
      exact ⟨k, hk, hbyte⟩
    · rintro ⟨k, hk, hbyte⟩
      rw [← h k _ (List.getElem?_eq_getElem hk)] at hbyte
      exact ⟨accessors[k], List.getElem_mem hk, hbyte⟩

/-- An array tiles when its stride is the width of a slot. -/
theorem arrayTiles_self (width : ℕ) : ArrayTiles width width := by
  have hrun : ∀ k, slotBytes width (k * width) = slotBytes width (0 + k * width) := by
    intro k
    rw [Nat.zero_add]
  have hcount : slotBytes width 0 = slotBytes width (0 + 0 * width) := by
    rw [Nat.zero_mul]
  refine ⟨?_, ?_, ?_⟩
  · intro i
    rw [hcount, hrun]
    exact disjoint_runs (Nat.succ_ne_zero i).symm
  · intro i j hne
    rw [hrun, hrun]
    exact disjoint_runs (fun h => hne (Nat.succ_injective h))
  · intro count
    ext byte
    have hall := @mem_runs_iff width 0 (count + 1) byte
    rw [Nat.zero_add] at hall
    rw [Set.mem_Ico, ← hall, hcount]
    simp only [Set.mem_union, Set.mem_iUnion, exists_prop, hrun]
    constructor
    · rintro (hbyte | ⟨i, hi, hbyte⟩)
      · exact ⟨0, Nat.succ_pos count, hbyte⟩
      · exact ⟨i + 1, Nat.succ_lt_succ hi, hbyte⟩
    · rintro ⟨k, hk, hbyte⟩
      cases k with
      | zero => exact Or.inl hbyte
      | succ i => exact Or.inr ⟨i, Nat.lt_of_succ_lt_succ hk, hbyte⟩

/-- **Slots never overlap.** Whatever the history of the parameters, a class of a layout has
one accessor for each field, in order; the slots stand one after the other, from byte
zero in the class of a product and behind the tag in the class of a constructor; and the
count and the elements of every array stand one after the other as well. -/
theorem slots_tile {schema : Schema} {encoding : Encoding} {layout : Layout}
    (hreached : encoding.Reached) (hbuild : build schema encoding = .ok layout)
    {cls : AccessorClass} (hcls : .accessorClass cls ∈ layout.declarations) :
    encoding.SlotSized ∧
    (∃ definition ∈ schema.types, ∃ fields, definition.HasClass cls.ref fields ∧
      cls.accessors.map Accessor.field = fields.map Field.name ∧
      (1 + fields.length * encoding.refWidth.toNat < 2 ^ 32 →
        ClassTiles encoding.refWidth.toNat cls.ref.firstOffset.toNat cls.accessors ∧
        ∀ sumName constructor, cls.ref = .variant sumName constructor →
          ∀ accessor ∈ cls.accessors,
            0 ∉ slotBytes encoding.refWidth.toNat accessor.offset.toNat)) ∧
    ∀ accessor ∈ cls.accessors, ∀ stride, accessor.cardinality = .repeated stride →
      stride = encoding.refWidth ∧ ArrayTiles encoding.refWidth.toNat stride.toNat := by
  have hsized := hreached.slotSized
  obtain ⟨_, ⟨-, blocks, hblocks, rfl⟩, rfl⟩ := build_eq_ok_iff.mp hbuild
  obtain ⟨block, hmem, hclass⟩ := List.mem_flatten.mp hcls
  obtain ⟨definition, hdefinition, hblock⟩ := exists_left_of_forall₂ hblocks hmem
  obtain ⟨fields, hfields, hslots⟩ := hblock.hasClass_of_mem hclass
  refine ⟨hsized, ⟨definition, hdefinition, fields, hfields, hslots.fields_eq, ?_⟩, ?_⟩
  · intro hbound
    have hfirst : cls.ref.firstOffset.toNat ≤ 1 := by
      cases cls.ref with
      | product _ => exact Nat.zero_le 1
      | variant _ _ => exact Nat.le_refl 1
    have htiles : ClassTiles encoding.refWidth.toNat cls.ref.firstOffset.toNat cls.accessors := by
      apply classTiles_of_offsets
      intro k accessor hk
      refine hslots.offset_toNat ?_ hk
      rw [hslots.length_eq]
      omega
    refine ⟨htiles, ?_⟩
    intro sumName constructor href accessor hmem hzero
    have hbyte : 0 ∈ ⋃ accessor ∈ cls.accessors,
        slotBytes encoding.refWidth.toNat accessor.offset.toNat :=
      Set.mem_biUnion hmem hzero
    rw [htiles.contiguous, Set.mem_Ico, href] at hbyte
    exact Nat.not_succ_le_zero 0 hbyte.1
  · intro accessor hmem stride hrepeated
    have hstride : stride = encoding.refWidth := by
      rw [hslots.stride_eq hmem hrepeated, hsized.stride_eq]
    refine ⟨hstride, ?_⟩
    rw [hstride]
    exact arrayTiles_self _

/-- A sum with a constructor of two slots, the second of which leads to an array. -/
def callSchema : Schema :=
  ⟨"m", [⟨"expr", .sum ⟨[⟨"Nil", []⟩, ⟨"Call", [⟨"func", "id", false, false⟩,
    ⟨"args", "expr", true, false⟩]⟩], []⟩⟩]⟩

/-- The accessors of its class when slots have two bytes. -/
def callAccessors : List Accessor :=
  [⟨"func", 1, .id, .single⟩, ⟨"args", 3, .object "expr" false, .repeated 2⟩]

/-- Its class after one accepted and one refused width. -/
theorem slots_tile_of_variant :
    ((Encoding.standard.tryRefWidth 2).tryRefWidth 9).Reached ∧
    ∃ layout, build callSchema ((Encoding.standard.tryRefWidth 2).tryRefWidth 9) = .ok layout ∧
      .accessorClass ⟨.variant "expr" "Call", callAccessors, []⟩ ∈ layout.declarations ∧
      1 + 2 * 2 < 2 ^ 32 ∧ ClassTiles 2 1 callAccessors ∧ ArrayTiles 2 2 := by
  have hreached : ((Encoding.standard.tryRefWidth 2).tryRefWidth 9).Reached :=
    .tryRefWidth 9 (.tryRefWidth 2 .standard)
  obtain ⟨layout, hbuild, hcls⟩ : ∃ layout,
      build callSchema ((Encoding.standard.tryRefWidth 2).tryRefWidth 9) = .ok layout ∧
        .accessorClass ⟨.variant "expr" "Call", callAccessors, []⟩ ∈ layout.declarations :=
    ⟨_, rfl, List.mem_iff_getElem?.mpr ⟨2, rfl⟩⟩
  obtain ⟨-, ⟨_, -, fields, -, hfields, htiles⟩, harrays⟩ := slots_tile hreached hbuild hcls
  have hcount : fields.length = 2 := by
    rw [← List.length_map (f := Field.name), ← hfields]
    rfl
  refine ⟨hreached, layout, hbuild, hcls, by decide, (htiles ?_).1,
    (harrays ⟨"args", 3, .object "expr" false, .repeated 2⟩ ?_ 2 rfl).2⟩
  · rw [hcount]
    decide
  · exact List.mem_cons_of_mem _ (List.mem_singleton_self _)

end Layout

end ReaderGen
