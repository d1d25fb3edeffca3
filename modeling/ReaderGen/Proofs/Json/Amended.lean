import Mathlib.Data.List.Forall2
import Mathlib.Data.List.Nodup
import ReaderGen.Proofs.Json.Rearranged

/-!
# ReaderGen.Proofs.Json.Amended -- records read without their defaults and with unknown keys

A record may be written by hand, or by a program that knows more keys. `Amended` relates it to
the record that this library writes: **a key with its default value may be left out, a key that
the record does not know may be put in, and the order is free.** Which keys a record knows, and
which of them have a default, is said by a list of `Key`s; what may stand in place of a value is
part of its key, so the relation of a record is made from the relations of its parts.

`Restores` says that a reader finds a value in everything that may stand for what was written.
-/

namespace ReaderGen

/-! ## Records -/

/-- A key that a record knows: the document that a missing value stands for, if it may be
missing, and what may stand in place of a value. -/
structure Key where
  name : String
  default? : Option Json := none
  amends : Json → Json → Prop := Eq

/-- `members` are the members that were `written`, with some of the defaults left out, unknown
keys put in at any place, and the other values amended. -/
inductive Members.Amend (keys : List Key) : Members → Members → Prop
  | nil : Amend keys [] []
  | keep {key : Key} {json value : Json} {members written : Members} : key ∈ keys →
      key.amends json value → Amend keys members written →
      Amend keys ((key.name, json) :: members) ((key.name, value) :: written)
  | drop {key : Key} {value : Json} {members written : Members} : key ∈ keys →
      key.default? = some value → Amend keys members written →
      Amend keys members ((key.name, value) :: written)
  | add {name : String} {json : Json} {members written : Members} :
      name ∉ keys.map Key.name → Amend keys members written →
      Amend keys ((name, json) :: members) written

/-- A record with these keys, amended, in any order. -/
inductive Json.RecordAmended (keys : List Key) : Json → Json → Prop
  | intro {members ordered written : Members} : members.Perm ordered →
      ordered.Amend keys written → RecordAmended keys (.obj members) (.obj written)

/-- A list with amended items. -/
inductive Json.ListAmended (amends : Json → Json → Prop) : Json → Json → Prop
  | intro {items written : List Json} : List.Forall₂ amends items written →
      ListAmended amends (.arr items) (.arr written)

/-- Nothing has to be amended. -/
theorem Members.Amend.self {keys known : List Key} {written : Members}
    (h : List.Forall₂ (fun key member => key.name = member.1 ∧ key.amends member.2 member.2) known
      written) (hknown : known ⊆ keys) : written.Amend keys written := by
  induction h with
  | nil => exact .nil
  | @cons key member known written hmember _ ih =>
    obtain ⟨hkey, hrest⟩ := List.cons_subset.mp hknown
    obtain ⟨name, value⟩ := member
    obtain ⟨rfl, hself⟩ := hmember
    exact .keep hkey hself (ih hrest)

theorem Json.RecordAmended.self {keys : List Key} {written : Members}
    (h : List.Forall₂ (fun key member => key.name = member.1 ∧ key.amends member.2 member.2) keys
      written) : RecordAmended keys (.obj written) (.obj written) :=
  .intro (.refl _) (.self h (List.Subset.refl keys))

theorem Json.ListAmended.self {α : Type} {amends : Json → Json → Prop} {write : α → Json}
    (h : ∀ value, amends (write value) (write value)) (values : List α) :
    ListAmended amends (.arr (values.map write)) (.arr (values.map write)) := by
  refine .intro ?_
  rw [List.forall₂_map_left_iff, List.forall₂_map_right_iff, List.forall₂_same]
  exact fun value _ => h value

/-! ## Members by key -/

namespace Members

/-- What is left of a known key with that value: the value amended, once, or nothing where the
value was the default. -/
def Retain (members : Members) (key : Key) (value : Json) : Prop :=
  (∃ json, key.amends json value ∧ (key.name, json) ∈ members ∧
    ∀ other, (key.name, other) ∈ members → other = json) ∨
  (key.default? = some value ∧ ∀ other, (key.name, other) ∉ members)

theorem Retain.cons {members : Members} {key : Key} {value : Json} (h : members.Retain key value)
    {name : String} (hname : name ≠ key.name) (json : Json) :
    Members.Retain ((name, json) :: members) key value := by
  have htail : ∀ other, (key.name, other) ∈ (name, json) :: members →
      (key.name, other) ∈ members := by
    intro other hmem
    rcases List.mem_cons.mp hmem with hhead | hlater
    · exact absurd (Prod.mk.inj hhead).1.symm hname
    · exact hlater
  rcases h with ⟨found, hamends, hmem, hunique⟩ | ⟨hdefault, habsent⟩
  · exact Or.inl ⟨found, hamends, List.mem_cons_of_mem _ hmem,
      fun other hother => hunique other (htail other hother)⟩
  · exact Or.inr ⟨hdefault, fun other hother => habsent other (htail other hother)⟩

theorem Retain.perm {members ordered : Members} {key : Key} {value : Json}
    (h : ordered.Retain key value) (horder : members.Perm ordered) :
    members.Retain key value := by
  simpa only [Retain, horder.mem_iff] using h

theorem lookup_of_unique {members : Members} {name : String} {json : Json}
    (hmem : (name, json) ∈ members)
    (hunique : ∀ other, (name, other) ∈ members → other = json) :
    members.lookup name = some json := by
  cases hfound : members.lookup name with
  | none => simpa using List.lookup_eq_none_iff.mp hfound _ hmem
  | some other => rw [hunique other (mem_of_lookup hfound)]

theorem lookup_of_absent {members : Members} {name : String}
    (habsent : ∀ other, (name, other) ∉ members) : members.lookup name = none := by
  cases hfound : members.lookup name with
  | none => rfl
  | some other => exact absurd (mem_of_lookup hfound) (habsent other)

variable {keys : List Key} {members written : Members}

/-- A known key that was not written is not put in. -/
theorem Amend.not_mem (h : members.Amend keys written) {key : Key} (hkey : key ∈ keys)
    (hwritten : key.name ∉ written.map Prod.fst) (json : Json) : (key.name, json) ∉ members := by
  induction h with
  | nil => exact List.not_mem_nil
  | keep _ _ _ ih =>
    rw [List.map_cons, List.mem_cons, not_or] at hwritten
    rw [List.mem_cons, Prod.mk.injEq]
    rintro (⟨hname, -⟩ | hlater)
    · exact hwritten.1 hname
    · exact ih hwritten.2 hlater
  | drop _ _ _ ih =>
    rw [List.map_cons, List.mem_cons, not_or] at hwritten
    exact ih hwritten.2
  | add hunknown _ ih =>
    rw [List.mem_cons, Prod.mk.injEq]
    rintro (⟨rfl, -⟩ | hlater)
    · exact hunknown (List.mem_map_of_mem hkey)
    · exact ih hwritten hlater

/-- Each key that was written is retained, where keys are known and written once. -/
theorem Amend.retain (h : members.Amend keys written) (hkeys : (keys.map Key.name).Nodup)
    (hwritten : (written.map Prod.fst).Nodup) {key : Key} (hkey : key ∈ keys) {value : Json}
    (hvalue : (key.name, value) ∈ written) : members.Retain key value := by
  have hsame : ∀ other ∈ keys, other.name = key.name → other = key := fun other hother hname =>
    List.inj_on_of_nodup_map hkeys hother hkey hname
  induction h with
  | nil => cases hvalue
  | @keep other json written members rest hother hamends hrest ih =>
    rw [List.map_cons, List.nodup_cons] at hwritten
    by_cases hname : other.name = key.name
    · obtain rfl := hsame other hother hname
      rcases List.mem_cons.mp hvalue with hhead | hlater
      · obtain rfl := (Prod.mk.inj hhead).2
        refine Or.inl ⟨json, hamends, List.mem_cons_self .., ?_⟩
        intro found hfound
        rcases List.mem_cons.mp hfound with hhead | hlater
        · exact (Prod.mk.inj hhead).2
        · exact absurd hlater (hrest.not_mem hkey hwritten.1 found)
      · exact absurd (List.mem_map_of_mem hlater) hwritten.1
    · rcases List.mem_cons.mp hvalue with hhead | hlater
      · exact absurd (Prod.mk.inj hhead).1.symm hname
      · exact (ih hwritten.2 hlater).cons hname json
  | @drop other written members rest hother hdefault hrest ih =>
    rw [List.map_cons, List.nodup_cons] at hwritten
    rcases List.mem_cons.mp hvalue with hhead | hlater
    · obtain ⟨hname, rfl⟩ := Prod.mk.inj hhead
      obtain rfl := hsame other hother hname.symm
      exact Or.inr ⟨hdefault, hrest.not_mem hkey hwritten.1⟩
    · exact ih hwritten.2 hlater
  | add hunknown _ ih =>
    refine (ih hwritten hvalue).cons ?_ _
    rintro rfl
    exact hunknown (List.mem_map_of_mem hkey)

end Members

/-- The members of an amended record retain what was written, key by key. -/
theorem Json.RecordAmended.members {keys : List Key} {json : Json} {written : Members}
    (h : json.RecordAmended keys (.obj written))
    (hnames : keys.map Key.name = written.map Prod.fst) (hdistinct : (keys.map Key.name).Nodup) :
    ∃ members : Members, json = .obj members ∧
      List.Forall₂ (fun key member => members.Retain key member.2) keys written := by
  cases h with
  | @intro members ordered _ horder hamend =>
    have hwritten : (written.map Prod.fst).Nodup := hnames ▸ hdistinct
    have hpairs : List.Forall₂ (fun key member => key.name = member.1) keys written := by
      rw [← List.forall₂_eq_eq_eq, List.forall₂_map_left_iff, List.forall₂_map_right_iff] at hnames
      exact hnames
    refine ⟨members, rfl, List.forall₂_iff_zip.mpr ⟨hpairs.length_eq, ?_⟩⟩
    intro key member hpair
    have hname : key.name = member.1 := (List.forall₂_iff_zip.mp hpairs).2 hpair
    have hmember : (key.name, member.2) ∈ written := by
      rw [hname]
      exact (List.of_mem_zip hpair).2
    exact (hamend.retain hdistinct hwritten (List.of_mem_zip hpair).1 hmember).perm horder

/-! ## Reading -/

variable {α : Type}

/-- The reader finds the value in everything that may stand for what was written. -/
def Json.Restores (amends : Json → Json → Prop) (read : Json → Option α) (written : Json)
    (value : α) : Prop :=
  ∀ json, amends json written → read json = some value

namespace Json

theorem restores_str (value : String) : Restores Eq str? (.str value) value := by
  rintro json rfl
  rfl

theorem restores_bool (value : Bool) : Restores Eq bool? (.bool value) value := by
  rintro json rfl
  rfl

/-- A list of written values is read item by item. -/
theorem restores_list {amends : Json → Json → Prop} {read : Json → Option α} {write : α → Json}
    (h : ∀ value, Restores amends read (write value) value) (values : List α) :
    Restores (ListAmended amends) (list? read) (.arr (values.map write)) values := by
  rintro json ⟨hitems⟩
  rw [List.forall₂_map_right_iff] at hitems
  induction hitems with
  | nil => rfl
  | cons hitem _ ih =>
    rw [list?] at ih ⊢
    simp [h _ _ hitem, ih]

end Json

variable {members : Members} {key : Key} {document : Json} {read : Json → Option α} {value : α}

/-- A key without a default is there. -/
theorem Members.Retain.required (h : members.Retain key document) (hkey : key.default? = none)
    (hread : Json.Restores key.amends read document value) :
    members.required key.name read = some value := by
  rcases h with ⟨json, hamends, hmem, hunique⟩ | ⟨hdefault, -⟩
  · rw [Members.required, lookup_of_unique hmem hunique, Option.bind_some, hread json hamends]
  · rw [hkey] at hdefault
    cases hdefault

/-- A key that is missing has its default, provided that the default of the document is that of
the reader. -/
theorem Members.Retain.orElse (h : members.Retain key document) {default : α}
    (hkey : key.default? = some document → value = default)
    (hread : Json.Restores key.amends read document value) :
    members.orElse key.name default read = some value := by
  rcases h with ⟨json, hamends, hmem, hunique⟩ | ⟨hdefault, habsent⟩
  · rw [Members.orElse, lookup_of_unique hmem hunique]
    exact hread json hamends
  · rw [Members.orElse, lookup_of_absent habsent, hkey hdefault]

end ReaderGen
