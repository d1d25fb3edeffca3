import Mathlib.Data.List.TakeWhile
import Mathlib.Tactic.Set
import Mathlib.Tactic.SplitIfs
import ReaderGen.Json.Pretty

/-!
# ReaderGen.Proofs.Json.Text -- documents read back from their text

A reader of JSON text, and the proof that it inverts `pretty`. Blanks may stand between any
two parts of a document. The reader is exact about strings, except that it knows no
surrogate pairs, and lax about numbers, except that it knows no exponents: `pretty` writes
neither.

A number ends where the text goes on with something else, so it is read back only in front
of a text that does not continue it (`Ends`); every other document is read back in front of
any text.
-/

namespace ReaderGen.Json

/-! ## Blanks, strings and numbers -/

/-- What may stand between two parts of a document. -/
def isBlank (c : Char) : Bool :=
  [' ', '\n', '\t', '\r'].contains c

/-- The text behind the blanks at its head. -/
def skipBlank (text : List Char) : List Char :=
  text.dropWhile isBlank

/-- The value of a hexadecimal digit. -/
def hexValue? (c : Char) : Option Nat :=
  (List.range 16).find? fun n => Nat.digitChar n = c.toLower

/-- The character with a code of four hexadecimal digits. -/
def unicode? (a b c d : Char) : Option Char := do
  let code := 4096 * (← hexValue? a) + 256 * (← hexValue? b) + 16 * (← hexValue? c) +
    (← hexValue? d)
  if code.isValidChar then some (Char.ofNat code) else none

/-- The character that stands for itself or by its short name behind a backslash. -/
def unescape? (c : Char) : Option Char :=
  [('"', '"'), ('\\', '\\'), ('/', '/'), ('b', '\x08'), ('t', '\t'), ('n', '\n'),
    ('f', '\x0c'), ('r', '\r')].lookup c

/-- The rest of a string and the text behind it. -/
def stringFrom : List Char → Option (List Char × List Char)
  | [] => none
  | '\\' :: 'u' :: a :: b :: c :: d :: rest => do
    let unescaped ← unicode? a b c d
    (stringFrom rest).map (Prod.map (List.cons unescaped) id)
  | '\\' :: c :: rest => do
    let unescaped ← unescape? c
    (stringFrom rest).map (Prod.map (List.cons unescaped) id)
  | c :: rest =>
    if c = '"' then some ([], rest)
    else if c.toNat < 0x20 then none
    else (stringFrom rest).map (Prod.map (List.cons c) id)

/-- The number with these digits, and with so many of them behind a point if there is one. -/
def numberOf (sign : Int) (digits : List Char) : Option Nat → Json
  | none => .int (sign * Nat.ofDigitChars 10 digits 0)
  | some places => .decimal (sign * Nat.ofDigitChars 10 digits 0) places

/-- A number without its sign, and the text behind it. -/
def magnitudeFrom (sign : Int) (text : List Char) : Option (Json × List Char) :=
  let whole := text.takeWhile Char.isDigit
  if whole = [] then none
  else
    match text.dropWhile Char.isDigit with
    | '.' :: rest =>
      let fraction := rest.takeWhile Char.isDigit
      some (numberOf sign (whole ++ fraction) (some fraction.length), rest.dropWhile Char.isDigit)
    | rest => some (numberOf sign whole none, rest)

/-- A number, and the text behind it. -/
def numberFrom : List Char → Option (Json × List Char)
  | '-' :: text => magnitudeFrom (-1) text
  | text => magnitudeFrom 1 text

/-- A word that is a document, and the text behind it. -/
def wordFrom : List Char → Option (Json × List Char)
  | 'n' :: 'u' :: 'l' :: 'l' :: rest => some (.null, rest)
  | 't' :: 'r' :: 'u' :: 'e' :: rest => some (.bool true, rest)
  | 'f' :: 'a' :: 'l' :: 's' :: 'e' :: rest => some (.bool false, rest)
  | _ => none

/-! ## Documents -/

mutual

/-- A document, and the text behind it. Every call in it starts further behind in the text,
so the length of the text is fuel enough. -/
def valueFrom : Nat → List Char → Option (Json × List Char)
  | 0, _ => none
  | fuel + 1, text =>
    match skipBlank text with
    | [] => none
    | c :: rest =>
      if c = '"' then (stringFrom rest).map (Prod.map (.str ∘ String.ofList) id)
      else if c = '[' then
        match skipBlank rest with
        | ']' :: rest => some (.arr [], rest)
        | _ => (itemsFrom fuel rest).map (Prod.map .arr id)
      else if c = '\x7b' then
        match skipBlank rest with
        | '\x7d' :: rest => some (.obj [], rest)
        | _ => (membersFrom fuel rest).map (Prod.map .obj id)
      else if c = '-' ∨ c.isDigit then numberFrom (c :: rest)
      else wordFrom (c :: rest)

/-- The items of a list up to its end, and the text behind it. -/
def itemsFrom : Nat → List Char → Option (List Json × List Char)
  | 0, _ => none
  | fuel + 1, text => do
    let (item, rest) ← valueFrom fuel text
    match skipBlank rest with
    | ',' :: rest => (itemsFrom fuel rest).map (Prod.map (List.cons item) id)
    | ']' :: rest => some ([item], rest)
    | _ => none

/-- The members of an object up to its end, and the text behind it. -/
def membersFrom : Nat → List Char → Option (List (String × Json) × List Char)
  | 0, _ => none
  | fuel + 1, text =>
    match skipBlank text with
    | '"' :: rest => do
      let (key, rest) ← stringFrom rest
      match skipBlank rest with
      | ':' :: rest => do
        let (value, rest) ← valueFrom fuel rest
        match skipBlank rest with
        | ',' :: rest =>
          (membersFrom fuel rest).map (Prod.map (List.cons (String.ofList key, value)) id)
        | '\x7d' :: rest => some ([(String.ofList key, value)], rest)
        | _ => none
      | _ => none
    | _ => none

end

/-- The document that a text holds. -/
def read? (text : String) : Option Json :=
  match valueFrom (text.length + 1) text.toList with
  | some (json, rest) => if skipBlank rest = [] then some json else none
  | none => none

/-! ## Strings -/

theorem hexDigits_of_lt : ∀ n < 16, Text.hexDigits n = [Nat.digitChar n] := by decide

theorem hexDigits_of_le : ∀ n < 16, Text.hexDigits (16 + n) = ['1', Nat.digitChar n] := by decide

theorem unicode?_of_lt :
    ∀ n < 16, unicode? '0' '0' '0' (Nat.digitChar n) = some (Char.ofNat n) := by
  decide

theorem unicode?_of_le :
    ∀ n < 16, unicode? '0' '0' '1' (Nat.digitChar n) = some (Char.ofNat (16 + n)) := by
  decide

theorem stringFrom_short {name c : Char} (h : unescape? name = some c) (rest : List Char) :
    stringFrom ('\\' :: name :: rest) = (stringFrom rest).map (Prod.map (List.cons c) id) := by
  have hname : name ≠ 'u' := by
    rintro rfl
    exact absurd (h.symm.trans (show unescape? 'u' = none by decide)) nofun
  simp [stringFrom, hname, h]

theorem stringFrom_unicode {a b d e c : Char} (h : unicode? a b d e = some c)
    (rest : List Char) :
    stringFrom ('\\' :: 'u' :: a :: b :: d :: e :: rest) =
      (stringFrom rest).map (Prod.map (List.cons c) id) := by
  simp [stringFrom, h]

/-- One written character of a string is read back. -/
theorem stringFrom_escapeChar (c : Char) (rest : List Char) :
    stringFrom (escapeChar c ++ rest) = (stringFrom rest).map (Prod.map (List.cons c) id) := by
  unfold escapeChar
  split_ifs with hquote hbackslash hb ht hn hf hr hlow hcontrol
  · exact stringFrom_short (by rw [hquote]; rfl) rest
  · exact stringFrom_short (by rw [hbackslash]; rfl) rest
  · exact stringFrom_short (by rw [hb]; rfl) rest
  · exact stringFrom_short (by rw [ht]; rfl) rest
  · exact stringFrom_short (by rw [hn]; rfl) rest
  · exact stringFrom_short (by rw [hf]; rfl) rest
  · exact stringFrom_short (by rw [hr]; rfl) rest
  · rw [hexDigits_of_lt _ hlow]
    exact stringFrom_unicode (by rw [unicode?_of_lt _ hlow, Char.ofNat_toNat]) rest
  · obtain ⟨n, hn⟩ : ∃ n, c.toNat = 16 + n := ⟨c.toNat - 16, by omega⟩
    have hlt : n < 16 := by omega
    rw [hn, hexDigits_of_le n hlt]
    exact stringFrom_unicode (by rw [unicode?_of_le n hlt, ← hn, Char.ofNat_toNat]) rest
  · simp [stringFrom, hquote, hbackslash, hcontrol]

theorem stringFrom_flatMap (text rest : List Char) :
    stringFrom (text.flatMap escapeChar ++ '"' :: rest) = some (text, rest) := by
  induction text with
  | nil => simp [stringFrom]
  | cons c text ih => simp [stringFrom_escapeChar, ih]

theorem toList_quoted (text : String) :
    (quoted text).toList = '"' :: (text.toList.flatMap escapeChar ++ ['"']) := by
  simp [quoted]

/-! ## Numbers -/

/-- The text does not continue a number. -/
def Ends (text : List Char) : Prop := ∀ c ∈ text.head?, c.isDigit = false ∧ c ≠ '.'

theorem takeWhile_of_ends {text : List Char} (h : Ends text) :
    text.takeWhile Char.isDigit = [] := by
  cases text with
  | nil => rfl
  | cons c rest => simp [(h c rfl).1]

theorem dropWhile_of_ends {text : List Char} (h : Ends text) :
    text.dropWhile Char.isDigit = text := by
  cases text with
  | nil => rfl
  | cons c rest => simp [(h c rfl).1]

section Magnitude

variable {sign : Int} {whole fraction rest : List Char}

theorem magnitudeFrom_whole (hne : whole ≠ []) (hwhole : ∀ c ∈ whole, c.isDigit = true)
    (hends : Ends rest) :
    magnitudeFrom sign (whole ++ rest) = some (numberOf sign whole none, rest) := by
  have hpoint : ∀ behind, rest ≠ '.' :: behind := by
    rintro behind rfl
    exact (hends '.' rfl).2 rfl
  simp [magnitudeFrom, List.takeWhile_append_of_pos hwhole, List.dropWhile_append_of_pos hwhole,
    takeWhile_of_ends hends, dropWhile_of_ends hends, hne]

theorem magnitudeFrom_fraction (hne : whole ≠ []) (hwhole : ∀ c ∈ whole, c.isDigit = true)
    (hfraction : ∀ c ∈ fraction, c.isDigit = true) (hends : Ends rest) :
    magnitudeFrom sign (whole ++ '.' :: (fraction ++ rest)) =
      some (numberOf sign (whole ++ fraction) (some fraction.length), rest) := by
  simp [magnitudeFrom, List.takeWhile_append_of_pos hwhole, List.dropWhile_append_of_pos hwhole,
    List.takeWhile_append_of_pos hfraction, List.dropWhile_append_of_pos hfraction,
    takeWhile_of_ends hends, dropWhile_of_ends hends, hne]

end Magnitude

theorem isDigit_of_mem_toDigits {n : Nat} : ∀ c ∈ Nat.toDigits 10 n, c.isDigit = true :=
  fun _ => Nat.isDigit_of_mem_toDigits (by decide) (by decide)

/-- The sign in front of a number. -/
def signText (value : Int) : List Char := if value < 0 then ['-'] else []

/-- What the digits of a number are multiplied by. -/
def signOf (value : Int) : Int := if value < 0 then -1 else 1

theorem signOf_mul_natAbs (value : Int) : signOf value * value.natAbs = value := by
  unfold signOf
  split_ifs <;> omega

theorem numberFrom_signed (value : Int) {whole : List Char} (hne : whole ≠ [])
    (hwhole : ∀ c ∈ whole, c.isDigit = true) (rest : List Char) :
    numberFrom (signText value ++ (whole ++ rest)) =
      magnitudeFrom (signOf value) (whole ++ rest) := by
  unfold signText signOf
  split_ifs
  · rfl
  · obtain ⟨c, whole, rfl⟩ := List.exists_cons_of_ne_nil hne
    have hsign : c ≠ '-' := by
      rintro rfl
      exact absurd (hwhole '-' List.mem_cons_self) (by decide)
    simp [numberFrom, hsign]

theorem toList_toString (value : Int) :
    (toString value).toList = signText value ++ Nat.toDigits 10 value.natAbs := by
  cases value with
  | ofNat n => simp [signText, Int.toString_eq_repr, Int.repr, Nat.repr_eq_ofList_toDigits]
  | negSucc n =>
    simp [signText, Int.toString_eq_repr, Int.repr, Nat.repr_eq_ofList_toDigits,
      Int.negSucc_lt_zero]

theorem numberFrom_int (value : Int) {rest : List Char} (hends : Ends rest) :
    numberFrom ((toString value).toList ++ rest) = some (.int value, rest) := by
  rw [toList_toString, List.append_assoc,
    numberFrom_signed value Nat.toDigits_ne_nil isDigit_of_mem_toDigits,
    magnitudeFrom_whole Nat.toDigits_ne_nil isDigit_of_mem_toDigits hends, numberOf,
    Nat.ofDigitChars_toDigits (by decide) (by decide), signOf_mul_natAbs]

section Decimal

variable (mantissa : Int) (places : Nat)

/-- The digits of a number with at least one of them before the point. -/
def paddedDigits : List Char :=
  let digits := Nat.toDigits 10 mantissa.natAbs
  List.replicate (places + 1 - digits.length) '0' ++ digits

theorem lt_length_paddedDigits : places < (paddedDigits mantissa places).length := by
  simp only [paddedDigits, List.length_append, List.length_replicate]
  omega

theorem isDigit_of_mem_paddedDigits :
    ∀ c ∈ paddedDigits mantissa places, c.isDigit = true := by
  intro c hc
  rcases List.mem_append.mp hc with hzero | hdigit
  · rw [List.eq_of_mem_replicate hzero]
    rfl
  · exact isDigit_of_mem_toDigits c hdigit

theorem ofDigitChars_paddedDigits :
    Nat.ofDigitChars 10 (paddedDigits mantissa places) 0 = mantissa.natAbs := by
  simp [paddedDigits, Nat.ofDigitChars_append, Nat.ofDigitChars_toDigits]

theorem numberFrom_decimal {rest : List Char} (hends : Ends rest) :
    numberFrom ((decimalText mantissa places).toList ++ rest) =
      some (.decimal mantissa places, rest) := by
  set padded := paddedDigits mantissa places with hpadded
  set whole := padded.take (padded.length - places) with hwhole
  set fraction := padded.drop (padded.length - places) with hfraction
  have hlength : places < padded.length := lt_length_paddedDigits mantissa places
  have hdigits := isDigit_of_mem_paddedDigits mantissa places
  have htext : (decimalText mantissa places).toList =
      signText mantissa ++ (whole ++ '.' :: fraction) := by
    simp [decimalText, signText, hwhole, hfraction, hpadded, paddedDigits]
    split_ifs <;> rfl
  have hne : whole ≠ [] := by
    apply List.ne_nil_of_length_pos
    simp only [hwhole, List.length_take]
    omega
  have hplaces : fraction.length = places := by
    simp only [hfraction, List.length_drop]
    omega
  have hwholeDigits : ∀ c ∈ whole, c.isDigit = true :=
    fun c hc => hdigits c (List.mem_of_mem_take hc)
  have hfractionDigits : ∀ c ∈ fraction, c.isDigit = true :=
    fun c hc => hdigits c (List.mem_of_mem_drop hc)
  have hvalue : Nat.ofDigitChars 10 (whole ++ fraction) 0 = mantissa.natAbs := by
    rw [List.take_append_drop]
    exact ofDigitChars_paddedDigits mantissa places
  rw [htext, List.append_assoc, List.append_assoc, List.cons_append,
    numberFrom_signed mantissa hne hwholeDigits,
    magnitudeFrom_fraction hne hwholeDigits hfractionDigits hends, numberOf, hvalue,
    signOf_mul_natAbs, hplaces]

end Decimal

/-! ## Parts of a document -/

section Parts

variable {fuel : Nat} {text rest behind : List Char}

theorem skipBlank_cons {c : Char} (h : isBlank c = false) : skipBlank (c :: rest) = c :: rest := by
  simp [skipBlank, h]

theorem skipBlank_freshLine (level : Nat) :
    skipBlank ((freshLine level).toList ++ text) = skipBlank text := by
  have hblank : ∀ c ∈ (freshLine level).toList, isBlank c = true := by
    simp +contextual [freshLine, isBlank]
  exact List.dropWhile_append_of_pos hblank

theorem valueFrom_of_skipBlank (h : skipBlank text = skipBlank rest) :
    valueFrom fuel text = valueFrom fuel rest := by
  cases fuel with
  | zero => rfl
  | succ fuel => simp only [valueFrom, h]

/-- A number starts with its sign or with a digit. -/
theorem starts_of_number {c : Char} {result : Json × List Char}
    (h : numberFrom (c :: rest) = some result) : c = '-' ∨ c.isDigit = true := by
  by_cases hsign : c = '-'
  · exact .inl hsign
  · by_cases hdigit : c.isDigit = true
    · exact .inr hdigit
    · simp [numberFrom, magnitudeFrom, hsign, hdigit] at h

theorem valueFrom_of_number {result : Json × List Char} (h : numberFrom text = some result) :
    valueFrom (fuel + 1) text = some result := by
  cases text with
  | nil => simp [numberFrom, magnitudeFrom] at h
  | cons c rest =>
    have hc := starts_of_number h
    have hother : ∀ d : Char, ¬(d = '-' ∨ d.isDigit = true) → c ≠ d := by
      rintro d hd rfl
      exact hd hc
    have hblank : isBlank c = false := by
      simp [isBlank, hother ' ' (by decide), hother '\n' (by decide), hother '\t' (by decide),
        hother '\r' (by decide)]
    simp [valueFrom, skipBlank_cons hblank, hother '"' (by decide), hother '[' (by decide),
      hother '\x7b' (by decide), hc, h]

theorem valueFrom_quoted (value : String) :
    valueFrom (fuel + 1) ((quoted value).toList ++ rest) = some (.str value, rest) := by
  simp [valueFrom, toList_quoted, skipBlank_cons, isBlank, stringFrom_flatMap]

/-- No item starts with the end of the list. -/
theorem itemsFrom_of_closed (h : skipBlank text = ']' :: rest) : itemsFrom fuel text = none := by
  rcases fuel with - | - | fuel
  · rfl
  · rfl
  · simp [itemsFrom, valueFrom, h, wordFrom]

theorem valueFrom_arr {items : List Json} (h : itemsFrom fuel text = some (items, rest)) :
    valueFrom (fuel + 1) ('[' :: text) = some (.arr items, rest) := by
  -- The list is not empty, so its end does not follow at once.
  have hopen : ∀ behind, skipBlank text ≠ ']' :: behind := by
    intro behind hclosed
    simp [itemsFrom_of_closed hclosed] at h
  simp [valueFrom, skipBlank_cons, isBlank, h]

theorem membersFrom_of_closed (h : skipBlank text = '\x7d' :: rest) :
    membersFrom fuel text = none := by
  cases fuel with
  | zero => rfl
  | succ fuel => simp [membersFrom, h]

theorem valueFrom_obj {members : List (String × Json)}
    (h : membersFrom fuel text = some (members, rest)) :
    valueFrom (fuel + 1) ('\x7b' :: text) = some (.obj members, rest) := by
  have hopen : ∀ behind, skipBlank text ≠ '\x7d' :: behind := by
    intro behind hclosed
    simp [membersFrom_of_closed hclosed] at h
  simp [valueFrom, skipBlank_cons, isBlank, h]

theorem itemsFrom_last {item : Json} (h : valueFrom fuel text = some (item, behind))
    (hclosed : skipBlank behind = ']' :: rest) (level : Nat) :
    itemsFrom (fuel + 1) ((freshLine level).toList ++ text) = some ([item], rest) := by
  rw [← valueFrom_of_skipBlank (skipBlank_freshLine level)] at h
  simp [itemsFrom, h, hclosed]

theorem itemsFrom_more {item : Json} {items : List Json}
    (h : valueFrom fuel text = some (item, ',' :: behind))
    (hmore : itemsFrom fuel behind = some (items, rest)) (level : Nat) :
    itemsFrom (fuel + 1) ((freshLine level).toList ++ text) = some (item :: items, rest) := by
  rw [← valueFrom_of_skipBlank (skipBlank_freshLine level)] at h
  simp [itemsFrom, h, skipBlank_cons, isBlank, hmore]

theorem membersFrom_last {value : Json} (h : valueFrom fuel text = some (value, behind))
    (hclosed : skipBlank behind = '\x7d' :: rest) (key : String) (level : Nat) :
    membersFrom (fuel + 1)
        ((freshLine level).toList ++ ((quoted key).toList ++ ':' :: ' ' :: text)) =
      some ([(key, value)], rest) := by
  have hblank : skipBlank (' ' :: text) = skipBlank text := rfl
  rw [← valueFrom_of_skipBlank hblank] at h
  simp [membersFrom, skipBlank_freshLine, toList_quoted, skipBlank_cons, isBlank,
    stringFrom_flatMap, h, hclosed]

theorem membersFrom_more {value : Json} {members : List (String × Json)}
    (h : valueFrom fuel text = some (value, ',' :: behind))
    (hmore : membersFrom fuel behind = some (members, rest)) (key : String) (level : Nat) :
    membersFrom (fuel + 1)
        ((freshLine level).toList ++ ((quoted key).toList ++ ':' :: ' ' :: text)) =
      some ((key, value) :: members, rest) := by
  have hblank : skipBlank (' ' :: text) = skipBlank text := rfl
  rw [← valueFrom_of_skipBlank hblank] at h
  simp [membersFrom, skipBlank_freshLine, toList_quoted, skipBlank_cons, isBlank,
    stringFrom_flatMap, h, hmore]

end Parts

/-! ## Whole documents -/

theorem ends_comma (rest : List Char) : Ends (',' :: rest) := by
  simp [Ends]

theorem length_freshLine (level : Nat) : (freshLine level).toList.length = 2 * level + 1 := by
  simp [freshLine]

theorem ends_freshLine (level : Nat) (rest : List Char) :
    Ends ((freshLine level).toList ++ rest) := by
  simp [Ends, freshLine]

section Printed

variable (level : Nat) (item next value : Json) (items : List Json) (key : String)
  (member : String × Json) (members : List (String × Json))

theorem toList_prettyAt_arr :
    ((Json.arr (item :: items)).prettyAt level).toList =
      '[' :: ((prettyItems (level + 1) (item :: items)).toList ++
        ((freshLine level).toList ++ [']'])) := by
  simp [prettyAt]

theorem toList_prettyAt_obj :
    ((Json.obj (member :: members)).prettyAt level).toList =
      '\x7b' :: ((prettyMembers (level + 1) (member :: members)).toList ++
        ((freshLine level).toList ++ ['\x7d'])) := by
  simp [prettyAt]

theorem toList_prettyItems_last :
    (prettyItems level [item]).toList =
      (freshLine level).toList ++ (item.prettyAt level).toList := by
  simp [prettyItems]

theorem toList_prettyItems_more :
    (prettyItems level (item :: next :: items)).toList =
      (freshLine level).toList ++ ((item.prettyAt level).toList ++
        ',' :: (prettyItems level (next :: items)).toList) := by
  simp [prettyItems]

theorem toList_prettyMembers_last :
    (prettyMembers level [(key, value)]).toList =
      (freshLine level).toList ++ ((quoted key).toList ++
        ':' :: ' ' :: (value.prettyAt level).toList) := by
  simp [prettyMembers]

theorem toList_prettyMembers_more :
    (prettyMembers level ((key, value) :: member :: members)).toList =
      (freshLine level).toList ++ ((quoted key).toList ++
        ':' :: ' ' :: ((value.prettyAt level).toList ++
          ',' :: (prettyMembers level (member :: members)).toList)) := by
  simp [prettyMembers]

end Printed

/-- Fuel for every text that is shorter: what `pretty` printed is read back. -/
structure Enough (fuel : Nat) : Prop where
  value : ∀ (json : Json) {level : Nat} {rest : List Char}, Ends rest →
    (json.prettyAt level).toList.length < fuel →
    valueFrom fuel ((json.prettyAt level).toList ++ rest) = some (json, rest)
  items : ∀ (item : Json) (items : List Json) (rest : List Char) (outer : Nat) {level : Nat},
    (prettyItems level (item :: items)).toList.length < fuel →
    itemsFrom fuel ((prettyItems level (item :: items)).toList ++
      ((freshLine outer).toList ++ ']' :: rest)) = some (item :: items, rest)
  members : ∀ (key : String) (value : Json) (members : List (String × Json)) (rest : List Char)
      (outer : Nat) {level : Nat},
    (prettyMembers level ((key, value) :: members)).toList.length < fuel →
    membersFrom fuel ((prettyMembers level ((key, value) :: members)).toList ++
      ((freshLine outer).toList ++ '\x7d' :: rest)) = some ((key, value) :: members, rest)

section Step

variable {fuel : Nat} (h : Enough fuel)
include h

theorem valueFrom_succ (json : Json) {level : Nat} {rest : List Char} (hends : Ends rest)
    (hfuel : (json.prettyAt level).toList.length < fuel + 1) :
    valueFrom (fuel + 1) ((json.prettyAt level).toList ++ rest) = some (json, rest) := by
  match json with
  | .null => simp [prettyAt, valueFrom, skipBlank_cons, isBlank, wordFrom]
  | .bool value => cases value <;> simp [prettyAt, valueFrom, skipBlank_cons, isBlank, wordFrom]
  | .int value =>
    rw [prettyAt]
    exact valueFrom_of_number (numberFrom_int value hends)
  | .decimal mantissa places =>
    rw [prettyAt]
    exact valueFrom_of_number (numberFrom_decimal mantissa places hends)
  | .str value =>
    rw [prettyAt]
    exact valueFrom_quoted value
  | .arr [] => simp [prettyAt, valueFrom, skipBlank_cons, isBlank]
  | .arr (item :: items) =>
    rw [toList_prettyAt_arr] at hfuel ⊢
    simp only [List.length_cons, List.length_append] at hfuel
    simp only [List.cons_append, List.append_assoc, List.nil_append]
    exact valueFrom_arr (h.items item items rest level (by omega))
  | .obj [] => simp [prettyAt, valueFrom, skipBlank_cons, isBlank]
  | .obj ((key, value) :: members) =>
    rw [toList_prettyAt_obj] at hfuel ⊢
    simp only [List.length_cons, List.length_append] at hfuel
    simp only [List.cons_append, List.append_assoc, List.nil_append]
    exact valueFrom_obj (h.members key value members rest level (by omega))

theorem itemsFrom_succ (item : Json) (items : List Json) (rest : List Char) (outer : Nat)
    {level : Nat} (hfuel : (prettyItems level (item :: items)).toList.length < fuel + 1) :
    itemsFrom (fuel + 1) ((prettyItems level (item :: items)).toList ++
      ((freshLine outer).toList ++ ']' :: rest)) = some (item :: items, rest) := by
  cases items with
  | nil =>
    rw [toList_prettyItems_last] at hfuel ⊢
    simp only [List.length_append, length_freshLine] at hfuel
    simp only [List.append_assoc]
    exact itemsFrom_last (h.value item (ends_freshLine outer _) (by omega))
      (skipBlank_freshLine outer) level
  | cons next items =>
    rw [toList_prettyItems_more] at hfuel ⊢
    simp only [List.length_append, length_freshLine, List.length_cons] at hfuel
    simp only [List.append_assoc, List.cons_append]
    exact itemsFrom_more (h.value item (ends_comma _) (by omega))
      (h.items next items rest outer (by omega)) level

theorem membersFrom_succ (key : String) (value : Json) (members : List (String × Json))
    (rest : List Char) (outer : Nat) {level : Nat}
    (hfuel : (prettyMembers level ((key, value) :: members)).toList.length < fuel + 1) :
    membersFrom (fuel + 1) ((prettyMembers level ((key, value) :: members)).toList ++
      ((freshLine outer).toList ++ '\x7d' :: rest)) = some ((key, value) :: members, rest) := by
  cases members with
  | nil =>
    rw [toList_prettyMembers_last] at hfuel ⊢
    simp only [List.length_append, length_freshLine, List.length_cons] at hfuel
    simp only [List.append_assoc, List.cons_append]
    exact membersFrom_last (h.value value (ends_freshLine outer _) (by omega))
      (skipBlank_freshLine outer) key level
  | cons member members =>
    obtain ⟨next, document⟩ := member
    rw [toList_prettyMembers_more] at hfuel ⊢
    simp only [List.length_append, length_freshLine, List.length_cons] at hfuel
    simp only [List.append_assoc, List.cons_append]
    exact membersFrom_more (h.value value (ends_comma _) (by omega))
      (h.members next document members rest outer (by omega)) key level

end Step

/-- Every call passes on one less, and at least one character stands in front of every part. -/
theorem enough (fuel : Nat) : Enough fuel := by
  induction fuel with
  | zero => constructor <;> intros <;> contradiction
  | succ fuel ih => exact ⟨valueFrom_succ ih, itemsFrom_succ ih, membersFrom_succ ih⟩

/-- No blank continues a number. -/
theorem ends_of_blank {text : List Char} (h : ∀ c ∈ text, isBlank c = true) : Ends text := by
  intro c hc
  have hblank := h c (List.mem_of_mem_head? hc)
  simp only [isBlank, List.contains_cons, List.contains_nil, Bool.or_false, Bool.or_eq_true,
    beq_iff_eq] at hblank
  rcases hblank with rfl | rfl | rfl | rfl <;> decide

/-- The reader inverts the printer; blanks may follow. -/
theorem read?_pretty (json : Json) {behind : String}
    (hbehind : ∀ c ∈ behind.toList, isBlank c = true) :
    read? (json.pretty ++ behind) = some json := by
  have hblank : skipBlank behind.toList = [] := List.dropWhile_eq_nil_iff.mpr hbehind
  have hlength : (json.prettyAt 0).toList.length < (json.pretty ++ behind).length + 1 := by
    rw [pretty, String.length_append, String.length_toList]
    omega
  have hvalue := (enough _).value json (ends_of_blank hbehind) hlength
  rw [← pretty] at hvalue
  rw [read?, String.toList_append, hvalue]
  simp [hblank]

end ReaderGen.Json
