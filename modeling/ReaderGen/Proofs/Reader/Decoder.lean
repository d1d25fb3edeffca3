import ReaderGen.Reader.Support
import Mathlib.Algebra.BigOperators.Group.Finset.Basic
import Mathlib.Algebra.BigOperators.Intervals

/-!
# ReaderGen.Proofs.Reader.Decoder -- the slot decoder as arithmetic of the generated code

The decoder of a slot is written as text, and the generated code gives that text a meaning. Here
both steps are made explicit. Three classes of expressions give the text its one structure: a sum
binds closer than a shift, and both associate to the left. Numbers are of two types: `int`, in
which a result outside the range is undefined, and an unsigned word of 32 bits, in which
arithmetic is modulo `2 ^ 32`. A byte is promoted to `int`; where the types meet, `int` gives way.
The subscripts are sums of type `int` like any others, of the parameter `n` and a literal.

**For every slot width the decoder reads the bytes of its slot, each once and no others, is
defined whatever they hold, and returns their little-endian number** (`decoder_reads_slot`). A
number of four bytes comes back as the signed number with the same bits, and a shorter one as
itself. This asks that the subscript of the last byte be an `int`. Where it is not, the sum that
computes it has no value, and neither has the decoder (`last_subscript_overflows`).
-/

namespace ReaderGen.Reader

/-! ## The structure of the text -/

mutual

/-- A byte, or an expression in parentheses. -/
inductive PrimaryExpr : String → SlotExpr → Prop
  | firstByte : PrimaryExpr "bytes_[n]" (.byte 0)
  | laterByte (index : Nat) : PrimaryExpr ("bytes_[n+" ++ toString index ++ "]") (.byte index)
  | cast {text : String} {operand : SlotExpr} :
      ShiftExpr text operand →
      PrimaryExpr ("static_cast<uint32_t>(" ++ text ++ ")") (.widen operand)
  | parentheses {text : String} {operand : SlotExpr} :
      ShiftExpr text operand → PrimaryExpr ("(" ++ text ++ ")") operand

/-- A sum of primary expressions, from the left. -/
inductive AdditiveExpr : String → SlotExpr → Prop
  | primary {text : String} {operand : SlotExpr} :
      PrimaryExpr text operand → AdditiveExpr text operand
  | plus {leftText rightText : String} {left right : SlotExpr} :
      AdditiveExpr leftText left → PrimaryExpr rightText right →
      AdditiveExpr (leftText ++ " + " ++ rightText) (.add left right)

/-- Shifts of a sum by literal numbers of bits, from the left. -/
inductive ShiftExpr : String → SlotExpr → Prop
  | additive {text : String} {operand : SlotExpr} :
      AdditiveExpr text operand → ShiftExpr text operand
  | shift {text : String} {operand : SlotExpr} (bits : Nat) :
      ShiftExpr text operand →
      ShiftExpr (text ++ " << " ++ toString bits) (.shiftLeft operand bits)

end

namespace SlotExpr

theorem primary_byte (index : Nat) : PrimaryExpr (byte index).text (byte index) := by
  cases index with
  | zero =>
    rw [text_byte_zero]
    exact PrimaryExpr.firstByte
  | succ index =>
    rw [text_byte_succ]
    exact PrimaryExpr.laterByte (index + 1)

theorem primary_widen {operand : SlotExpr} (h : PrimaryExpr operand.text operand) :
    PrimaryExpr (widen operand).text (widen operand) := by
  rw [text_widen]
  exact PrimaryExpr.cast (ShiftExpr.additive (AdditiveExpr.primary h))

theorem primary_shiftLeft {operand : SlotExpr} (h : PrimaryExpr operand.text operand)
    (bits : Nat) : PrimaryExpr (shiftLeft operand bits).text (shiftLeft operand bits) := by
  have hshift : ShiftExpr (operand.text ++ " << " ++ toString bits) (shiftLeft operand bits) :=
    ShiftExpr.shift bits (ShiftExpr.additive (AdditiveExpr.primary h))
  have hinside : "(" ++ operand.text ++ " << " ++ toString bits ++ ")" =
      "(" ++ (operand.text ++ " << " ++ toString bits) ++ ")" := by
    simp only [String.append_assoc]
  rw [text_shiftLeft, hinside]
  exact PrimaryExpr.parentheses hshift

theorem primary_place (index : Nat) : PrimaryExpr (place index).text (place index) := by
  unfold place
  split
  · exact primary_byte 0
  · split
    · exact primary_shiftLeft (primary_widen (primary_byte 3)) 24
    · exact primary_shiftLeft (primary_byte index) (8 * index)

/-- **The text of a decoder has the structure of the decoder**, for any number of bytes. -/
theorem additive_upTo (last : Nat) : AdditiveExpr (upTo last).text (upTo last) := by
  induction last with
  | zero => exact AdditiveExpr.primary (primary_place 0)
  | succ last ih =>
    show AdditiveExpr (add (upTo last) (place (last + 1))).text _
    rw [text_add]
    exact AdditiveExpr.plus ih (primary_place (last + 1))

end SlotExpr

/-! ## Numbers -/

/-- The range of `int`. -/
def InIntRange (z : Int) : Prop := -2 ^ 31 ≤ z ∧ z < 2 ^ 31

instance : DecidablePred InIntRange := fun z => by unfold InIntRange; infer_instance

/-- A number with its type. -/
inductive Number where
  | int (value : Int)
  | word (value : BitVec 32)
  deriving DecidableEq, Repr

namespace Number

/-- The result of arithmetic on `int`, which is undefined outside the range. -/
def ofInt? (z : Int) : Option Number := if InIntRange z then some (.int z) else none

/-- Conversion to a word, modulo `2 ^ 32`. -/
def toWord : Number → BitVec 32
  | int value => BitVec.ofInt 32 value
  | word value => value

/-- Conversion to `int`, which keeps the bits of a word. -/
def toInt : Number → Int
  | int value => value
  | word value => value.toInt

/-- A sum is of type `int` if both sides are. -/
def add? : Number → Number → Option Number
  | int left, int right => ofInt? (left + right)
  | left, right => some (word (left.toWord + right.toWord))

/-- A shift is of the type of its left side. An `int` must not be negative, and no number is
shifted by its whole width. -/
def shiftLeft? (number : Number) (bits : Nat) : Option Number :=
  match number with
  | int value => if 0 ≤ value ∧ bits < 32 then ofInt? (value * 2 ^ bits) else none
  | word value => if bits < 32 then some (word (value <<< bits)) else none

theorem ofInt?_natCast {k : Nat} (h : k < 2 ^ 31) : ofInt? k = some (.int k) := by
  apply if_pos
  show -2 ^ 31 ≤ (k : Int) ∧ (k : Int) < 2 ^ 31
  omega

/-- A sum of type `int` that stays below the end of the range. -/
theorem add?_natCast {j k : Nat} (h : j + k < 2 ^ 31) :
    (int j).add? (int k) = some (.int (j + k : Nat)) := by
  rw [← ofInt?_natCast h, Int.natCast_add]
  rfl

/-- A shift of type `int` that stays below the end of the range. -/
theorem shiftLeft?_natCast {k bits : Nat} (hbits : bits < 32) (h : k * 2 ^ bits < 2 ^ 31) :
    (int k).shiftLeft? bits = some (.int (k * 2 ^ bits : Nat)) := by
  show (if 0 ≤ (k : Int) ∧ bits < 32 then ofInt? (k * 2 ^ bits) else none) = _
  rw [if_pos ⟨Int.natCast_nonneg k, hbits⟩, ← ofInt?_natCast h, Int.natCast_mul, Int.natCast_pow]
  rfl

end Number

/-- Below the sign bit the number with the same bits is the number itself. -/
theorem toInt_ofNat_of_lt {k : Nat} (h : k < 2 ^ 31) : (BitVec.ofNat 32 k).toInt = k := by
  have hword : (BitVec.ofNat 32 k).toNat = k := by
    rw [BitVec.toNat_ofNat, Nat.mod_eq_of_lt (by omega)]
  rw [BitVec.toInt_eq_toNat_of_lt (by omega), hword]

/-- A byte that is widened first keeps all its bits in the highest place. -/
theorem shiftLeft_byte (byte : UInt8) :
    BitVec.ofInt 32 (byte.toNat : Int) <<< 24 = BitVec.ofNat 32 (byte.toNat * 256 ^ 3) := by
  apply BitVec.eq_of_toNat_eq
  simp [BitVec.toNat_shiftLeft, Nat.shiftLeft_eq]

/-! ## Evaluation -/

namespace SlotExpr

/-- The subscript of a byte. The parameter `n` is of type `int`, and so is the sum of it and a
literal, which is written for every byte but the first. -/
def subscript? (n : Nat) : Nat → Option Number
  | 0 => Number.ofInt? n
  | index + 1 => (Number.ofInt? n).bind fun start => start.add? (.int (index + 1 : Nat))

/-- The number that an expression over the bytes of a slot at `n` has, and the places that are
read for it, in order. It has none where arithmetic on `int` is undefined. -/
def evaluate (bytes : Nat → UInt8) (n : Nat) : SlotExpr → Option (Number × List Nat)
  | byte index => do
    let subscript ← subscript? n index
    let place := subscript.toInt.toNat
    some (.int (bytes place).toNat, [place])
  | widen operand => do
    let (number, reads) ← operand.evaluate bytes n
    some (.word number.toWord, reads)
  | shiftLeft operand bits => do
    let (number, reads) ← operand.evaluate bytes n
    let shifted ← number.shiftLeft? bits
    some (shifted, reads)
  | add left right => do
    let (leftNumber, leftReads) ← left.evaluate bytes n
    let (rightNumber, rightReads) ← right.evaluate bytes n
    let sum ← leftNumber.add? rightNumber
    some (sum, leftReads ++ rightReads)

/-- What a function of type `int` returns for the expression, and the places that it reads. -/
def returned (decoder : SlotExpr) (bytes : Nat → UInt8) (n : Nat) : Option (Int × List Nat) :=
  (decoder.evaluate bytes n).map fun (number, reads) => (number.toInt, reads)

end SlotExpr

/-- The little-endian number of `width` bytes from `n` on. -/
def slotNumber (bytes : Nat → UInt8) (n width : Nat) : Nat :=
  ∑ i ∈ Finset.range width, (bytes (n + i)).toNat * 256 ^ i

section Slots

variable (bytes : Nat → UInt8) (n : Nat)

theorem slotNumber_succ (width : Nat) :
    slotNumber bytes n (width + 1) =
      slotNumber bytes n width + (bytes (n + width)).toNat * 256 ^ width :=
  Finset.sum_range_succ _ _

theorem slotNumber_lt (width : Nat) : slotNumber bytes n width < 256 ^ width := by
  induction width with
  | zero => exact Nat.one_pos
  | succ width ih =>
    have hbyte : (bytes (n + width)).toNat ≤ 255 := by
      have := (bytes (n + width)).toNat_lt
      omega
    have hplace := Nat.mul_le_mul_right (256 ^ width) hbyte
    rw [slotNumber_succ, Nat.pow_succ]
    omega

variable {n}

variable {bytes} in
theorem evaluate_shiftLeft {operand : SlotExpr} {number shifted : Number} {reads : List Nat}
    {bits : Nat} (hoperand : operand.evaluate bytes n = some (number, reads))
    (hshift : number.shiftLeft? bits = some shifted) :
    (SlotExpr.shiftLeft operand bits).evaluate bytes n = some (shifted, reads) := by
  simp only [SlotExpr.evaluate, hoperand, hshift, Option.bind_eq_bind, Option.bind_some]

variable {bytes} in
theorem evaluate_add {left right : SlotExpr} {first second sum : Number}
    {reads more : List Nat} (hleft : left.evaluate bytes n = some (first, reads))
    (hright : right.evaluate bytes n = some (second, more))
    (hsum : first.add? second = some sum) :
    (SlotExpr.add left right).evaluate bytes n = some (sum, reads ++ more) := by
  simp only [SlotExpr.evaluate, hleft, hright, hsum, Option.bind_eq_bind, Option.bind_some]

theorem subscript?_eq_some {index : Nat} (h : n + index < 2 ^ 31) :
    SlotExpr.subscript? n index = some (.int (n + index : Nat)) := by
  have hstart : Number.ofInt? n = some (.int n) := Number.ofInt?_natCast (by omega)
  cases index with
  | zero => exact hstart
  | succ index =>
    rw [SlotExpr.subscript?, hstart, Option.bind_some]
    exact Number.add?_natCast h

/-- **A subscript that is no `int` has no value**, be it the parameter or the sum that leaves the
range. -/
theorem subscript?_eq_none {index : Nat} (h : 2 ^ 31 ≤ n + index) :
    SlotExpr.subscript? n index = none := by
  have hout : ∀ k : Nat, 2 ^ 31 ≤ k → Number.ofInt? k = none := by
    intro k hk
    apply if_neg
    rintro ⟨-, hlt⟩
    omega
  cases index with
  | zero => exact hout n h
  | succ index =>
    rcases Nat.lt_or_ge n (2 ^ 31) with hn | hn
    · rw [SlotExpr.subscript?, Number.ofInt?_natCast hn, Option.bind_some, Number.add?,
        ← Int.natCast_add]
      exact hout (n + (index + 1)) h
    · rw [SlotExpr.subscript?, hout n hn, Option.bind_none]

theorem evaluate_byte {index : Nat} (h : n + index < 2 ^ 31) :
    (SlotExpr.byte index).evaluate bytes n =
      some (.int (bytes (n + index)).toNat, [n + index]) := by
  rw [SlotExpr.evaluate, subscript?_eq_some h]
  rfl

/-- A byte below the fourth is shifted as an `int`. -/
theorem evaluate_place {index : Nat} (h : index ≤ 2) (hn : n + index < 2 ^ 31) :
    (SlotExpr.place index).evaluate bytes n =
      some (.int ((bytes (n + index)).toNat * 256 ^ index : Nat), [n + index]) := by
  have hbyte := (bytes (n + index)).toNat_lt
  obtain rfl | hzero := Nat.eq_zero_or_pos index
  · rw [Nat.pow_zero, Nat.mul_one]
    exact evaluate_byte bytes hn
  · have hplace : SlotExpr.place index = .shiftLeft (.byte index) (8 * index) := by
      rw [SlotExpr.place, if_neg (by omega), if_neg (by omega)]
    have hpow : 256 ^ index = 2 ^ (8 * index) := by rw [Nat.pow_mul]
    have hbound : (bytes (n + index)).toNat * 2 ^ (8 * index) < 2 ^ 31 := by
      have hwidth : 2 ^ (8 * index) ≤ 2 ^ 16 := Nat.pow_le_pow_right (by decide) (by omega)
      have hshifted := Nat.mul_le_mul_left (bytes (n + index)).toNat hwidth
      omega
    rw [hplace, hpow]
    exact evaluate_shiftLeft (evaluate_byte bytes hn)
      (Number.shiftLeft?_natCast (by omega) hbound)

/-- The fourth byte is shifted as a word. -/
theorem evaluate_place_three (hn : n + 3 < 2 ^ 31) :
    (SlotExpr.place 3).evaluate bytes n =
      some (.word (BitVec.ofNat 32 ((bytes (n + 3)).toNat * 256 ^ 3)), [n + 3]) := by
  have hword : (SlotExpr.widen (.byte 3)).evaluate bytes n =
      some (.word (BitVec.ofInt 32 ((bytes (n + 3)).toNat : Int)), [n + 3]) := by
    rw [SlotExpr.evaluate, evaluate_byte bytes hn]
    rfl
  rw [← shiftLeft_byte]
  exact evaluate_shiftLeft hword rfl

/-- **The first three bytes add up as an `int`.** -/
theorem evaluate_upTo {last : Nat} (h : last ≤ 2) (hn : n + last < 2 ^ 31) :
    (SlotExpr.upTo last).evaluate bytes n =
      some (.int (slotNumber bytes n (last + 1) : Nat), List.range' n (last + 1)) := by
  induction last with
  | zero =>
    show (SlotExpr.place 0).evaluate bytes n = _
    rw [evaluate_place bytes h hn, slotNumber_succ]
    simp [slotNumber]
  | succ last ih =>
    have hbound : slotNumber bytes n (last + 1 + 1) < 2 ^ 31 := by
      have hlt := slotNumber_lt bytes n (last + 1 + 1)
      have hpow : 256 ^ (last + 1 + 1) ≤ 256 ^ 3 := Nat.pow_le_pow_right (by decide) (by omega)
      omega
    rw [slotNumber_succ] at hbound
    rw [slotNumber_succ, List.range'_1_concat]
    exact evaluate_add (ih (by omega) (by omega)) (evaluate_place bytes h hn)
      (Number.add?_natCast hbound)

/-- **With the fourth byte the sum is a word.** -/
theorem evaluate_upTo_three (hn : n + 3 < 2 ^ 31) :
    (SlotExpr.upTo 3).evaluate bytes n =
      some (.word (BitVec.ofNat 32 (slotNumber bytes n 4)), List.range' n 4) := by
  have hsum : (Number.int (slotNumber bytes n 3 : Nat)).add?
        (.word (BitVec.ofNat 32 ((bytes (n + 3)).toNat * 256 ^ 3))) =
      some (.word (BitVec.ofNat 32 (slotNumber bytes n 4))) := by
    rw [slotNumber_succ bytes n 3, BitVec.ofNat_add, ← BitVec.ofInt_natCast 32 (slotNumber ..)]
    rfl
  rw [List.range'_1_concat]
  exact evaluate_add (evaluate_upTo bytes (Nat.le_refl 2) (Nat.lt_of_succ_lt hn))
    (evaluate_place_three bytes hn) hsum

/-- A decoder of at most four bytes returns the signed number with the bits of its slot. -/
theorem returned_upTo {last : Nat} (h : last ≤ 3) (hn : n + last < 2 ^ 31) :
    (SlotExpr.upTo last).returned bytes n =
      some ((BitVec.ofNat 32 (slotNumber bytes n (last + 1))).toInt,
        List.range' n (last + 1)) := by
  obtain hint | rfl := Nat.le_succ_iff.mp h
  · have hbound : slotNumber bytes n (last + 1) < 2 ^ 31 := by
      have hlt := slotNumber_lt bytes n (last + 1)
      have hpow : 256 ^ (last + 1) ≤ 256 ^ 3 := Nat.pow_le_pow_right (by decide) (by omega)
      omega
    rw [SlotExpr.returned, evaluate_upTo bytes hint hn, toInt_ofNat_of_lt hbound]
    rfl
  · rw [SlotExpr.returned, evaluate_upTo_three bytes hn]
    rfl

/-- The byte at a place is read for whatever the place has become. -/
theorem evaluate_place_eq_none {index : Nat} (hn : 2 ^ 31 ≤ n + index) :
    (SlotExpr.place index).evaluate bytes n = none := by
  have hbyte : (SlotExpr.byte index).evaluate bytes n = none := by
    rw [SlotExpr.evaluate, subscript?_eq_none hn]
    rfl
  rw [SlotExpr.place]
  split
  · next hzero =>
    subst hzero
    exact hbyte
  · split
    · next hthree =>
      subst hthree
      simp only [SlotExpr.evaluate] at hbyte ⊢
      simp only [hbyte, Option.bind_eq_bind, Option.bind_none]
    · rw [SlotExpr.evaluate, hbyte]
      rfl

/-- **Where the last subscript is no `int`, the decoder has no value.** -/
theorem returned_upTo_eq_none {last : Nat} (hn : 2 ^ 31 ≤ n + last) :
    (SlotExpr.upTo last).returned bytes n = none := by
  have hlast := evaluate_place_eq_none bytes hn
  have hevaluate : (SlotExpr.upTo last).evaluate bytes n = none := by
    cases last with
    | zero => exact hlast
    | succ last =>
      rw [SlotExpr.upTo, SlotExpr.evaluate, hlast]
      cases (SlotExpr.upTo last).evaluate bytes n <;> rfl
  rw [SlotExpr.returned, hevaluate]
  rfl

/-! ## Stored numbers -/

variable (n)

/-- The bytes with a little-endian number of `width` bytes stored at `n`. -/
def store (width value : Nat) : Nat → UInt8 := fun place =>
  if n ≤ place ∧ place < n + width then UInt8.ofNat (value / 256 ^ (place - n)) else bytes place

theorem slotNumber_store (width value : Nat) :
    slotNumber (store bytes n width value) n width = value % 256 ^ width := by
  have hbyte : ∀ i ∈ Finset.range width,
      (store bytes n width value (n + i)).toNat * 256 ^ i = value / 256 ^ i % 256 * 256 ^ i := by
    intro i hi
    have hplace : n ≤ n + i ∧ n + i < n + width := by
      rw [Finset.mem_range] at hi
      omega
    rw [store, if_pos hplace, Nat.add_sub_cancel_left, UInt8.toNat_ofNat']
  have hdigits : ∀ k, ∑ i ∈ Finset.range k, value / 256 ^ i % 256 * 256 ^ i = value % 256 ^ k := by
    intro k
    induction k with
    | zero => rw [Finset.range_zero, Finset.sum_empty, Nat.pow_zero, Nat.mod_one]
    | succ k ih => rw [Finset.sum_range_succ, ih, Nat.mod_pow_succ, Nat.mul_comm]
  rw [slotNumber, Finset.sum_congr rfl hbyte, hdigits]

end Slots

/-! ## The decoder of a layout -/

/-- The widths that are accepted. -/
theorem width_of_withRefWidth {encoding after : Encoding} {width : UInt32}
    (h : encoding.withRefWidth width = .ok after) :
    1 ≤ width.toNat ∧ width.toNat ≤ 4 ∧ after.refWidth = width := by
  unfold Encoding.withRefWidth at h
  split at h
  · cases h
  · next hrefused =>
    cases h
    rw [not_or, ← UInt32.toNat_inj, UInt32.lt_iff_toNat_lt] at hrefused
    have hzero : (0 : UInt32).toNat = 0 := rfl
    have hfour : (4 : UInt32).toNat = 4 := rfl
    exact ⟨by omega, by omega, rfl⟩

/-- The bodies of the base class start with the one that decodes a slot. -/
theorem exists_epilogue_eq (encoding : Encoding) :
    ∃ rest, epilogue encoding =
      unwrapped ["inline int Obj::Int(int n) const \x7b",
        "  return " ++ decoderText encoding ++ ";", "\x7d"] ++ rest := by
  unfold epilogue unwrapped
  simp only [List.map_cons, String.join_cons, List.map_nil, String.join_nil, String.append_empty,
    String.append_assoc]
  exact ⟨_, rfl⟩

/-- The decoder of a slot is the expression that the bodies of the base class start with. -/
theorem exists_epilogue_eq_upTo {encoding after : Encoding} {width : UInt32}
    (h : encoding.withRefWidth width = .ok after) :
    ∃ last rest, width.toNat = last + 1 ∧ last ≤ 3 ∧
      epilogue after =
        unwrapped ["inline int Obj::Int(int n) const \x7b",
          "  return " ++ (SlotExpr.upTo last).text ++ ";", "\x7d"] ++ rest := by
  obtain ⟨hpos, hfour, hwidth⟩ := width_of_withRefWidth h
  obtain ⟨last, hlast⟩ : ∃ last, width.toNat = last + 1 := ⟨width.toNat - 1, by omega⟩
  have hdecoder : decoderText after = (SlotExpr.upTo last).text := by
    rw [decoderText, hwidth, hlast]
    rfl
  obtain ⟨rest, hepilogue⟩ := exists_epilogue_eq after
  exact ⟨last, rest, hlast, by omega, hdecoder ▸ hepilogue⟩

/-- **The generated decoder is a little-endian read of one slot.** For every slot width that is
accepted, the function that decodes a slot returns one expression, whose text has the structure of
a sum. Where the subscript of the last byte is an `int`, the expression is defined whatever the
bytes are, so no shift and no sum of type `int` leaves its range, those of the subscripts
included; it reads the bytes of the slot, in order and no others; and it returns their
little-endian number as the signed number with the same 32 bits. So a number that fits in a slot
and was stored there comes back with its bits, and as itself if the slot has fewer than four
bytes. Where the subscript of the last byte is no `int`, the expression is undefined. -/
theorem decoder_reads_slot {encoding after : Encoding} {width : UInt32}
    (h : encoding.withRefWidth width = .ok after) :
    ∃ decoder rest,
      epilogue after =
        unwrapped ["inline int Obj::Int(int n) const \x7b", "  return " ++ decoder.text ++ ";",
          "\x7d"] ++ rest ∧
      ShiftExpr decoder.text decoder ∧
      (∀ bytes n, n + width.toNat ≤ 2 ^ 31 → decoder.returned bytes n =
        some ((BitVec.ofNat 32 (∑ i ∈ Finset.range width.toNat,
          (bytes (n + i)).toNat * 256 ^ i)).toInt, List.range' n width.toNat)) ∧
      (∀ bytes n, 2 ^ 31 < n + width.toNat → decoder.returned bytes n = none) ∧
      (∀ bytes n value, n + width.toNat ≤ 2 ^ 31 → value < 2 ^ (8 * width.toNat) →
        decoder.returned (store bytes n width.toNat value) n =
            some ((BitVec.ofNat 32 value).toInt, List.range' n width.toNat) ∧
          (width.toNat < 4 → (BitVec.ofNat 32 value).toInt = value)) := by
  obtain ⟨last, rest, hlast, hthree, hepilogue⟩ := exists_epilogue_eq_upTo h
  have hreturned : ∀ bytes n, n + width.toNat ≤ 2 ^ 31 → (SlotExpr.upTo last).returned bytes n =
      some ((BitVec.ofNat 32 (slotNumber bytes n width.toNat)).toInt,
        List.range' n width.toNat) := by
    intro bytes n hn
    rw [hlast] at hn ⊢
    exact returned_upTo bytes hthree (by omega)
  refine ⟨SlotExpr.upTo last, rest, hepilogue,
    ShiftExpr.additive (SlotExpr.additive_upTo last), hreturned, ?_, ?_⟩
  · intro bytes n hn
    exact returned_upTo_eq_none bytes (by omega)
  · intro bytes n value hn hvalue
    have hstored : slotNumber (store bytes n width.toNat value) n width.toNat = value := by
      rw [slotNumber_store, Nat.mod_eq_of_lt]
      rwa [Nat.pow_mul] at hvalue
    refine ⟨by rw [hreturned _ _ hn, hstored], ?_⟩
    intro hsmall
    have hbound : value < 2 ^ 24 :=
      Nat.lt_of_lt_of_le hvalue (Nat.pow_le_pow_right (by decide) (by omega))
    exact toInt_ofNat_of_lt (by omega)

/-- Four bytes whose highest bit is set come back as a negative number. -/
theorem decoder_reads_slot_of_sign_bit :
    Encoding.standard.withRefWidth 4 = .ok ⟨4, 4, .u32, 4⟩ ∧ 4294967294 < 2 ^ (8 * 4) ∧
      5 + 4 ≤ 2 ^ 31 ∧ ∃ decoder rest,
        epilogue ⟨4, 4, .u32, 4⟩ =
          unwrapped ["inline int Obj::Int(int n) const \x7b", "  return " ++ decoder.text ++ ";",
            "\x7d"] ++ rest ∧
        ShiftExpr decoder.text decoder ∧
        decoder.returned (store (fun _ => 7) 5 4 4294967294) 5 = some (-2, [5, 6, 7, 8]) ∧
        decoder.returned (fun _ => 7) 2147483645 = none := by
  have hwidth : Encoding.standard.withRefWidth 4 = .ok ⟨4, 4, .u32, 4⟩ := rfl
  have hvalue : 4294967294 < 2 ^ (8 * 4) := by decide
  have hplace : 5 + 4 ≤ 2 ^ 31 := by decide
  obtain ⟨decoder, rest, hepilogue, htext, -, hundefined, hstored⟩ := decoder_reads_slot hwidth
  exact ⟨hwidth, hvalue, hplace, decoder, rest, hepilogue, htext,
    (hstored _ 5 4294967294 hplace hvalue).1, hundefined _ _ (by decide)⟩

/-- **At the last `int`, the subscript of a second byte leaves the range.** The sum that the text
writes for it has no value there, whatever the bytes are, so not every index can be decoded. -/
theorem last_subscript_overflows :
    Encoding.standard.withRefWidth 2 = .ok ⟨4, 2, .u32, 2⟩ ∧ InIntRange 2147483647 ∧
      ∃ decoder rest,
        epilogue ⟨4, 2, .u32, 2⟩ =
          unwrapped ["inline int Obj::Int(int n) const \x7b", "  return " ++ decoder.text ++ ";",
            "\x7d"] ++ rest ∧
        decoder = .add (.byte 0) (.shiftLeft (.byte 1) 8) ∧
        ShiftExpr decoder.text decoder ∧
        (Number.int 2147483647).add? (.int 1) = none ∧
        ∀ bytes, decoder.returned bytes 2147483647 = none := by
  have hwidth : Encoding.standard.withRefWidth 2 = .ok ⟨4, 2, .u32, 2⟩ := rfl
  obtain ⟨last, rest, hlast, -, hepilogue⟩ := exists_epilogue_eq_upTo hwidth
  obtain rfl : last = 1 := (Nat.succ.inj hlast).symm
  exact ⟨hwidth, by decide, SlotExpr.upTo 1, rest, hepilogue, rfl,
    ShiftExpr.additive (SlotExpr.additive_upTo 1), by decide,
    fun bytes => returned_upTo_eq_none bytes (by decide)⟩

end ReaderGen.Reader
