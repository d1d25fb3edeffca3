import Mathlib.Data.List.Forall2
import Mathlib.Data.List.Nodup
import ReaderGen.Json

/-!
# ReaderGen.Proofs.Json.Rearranged -- records read whatever the order of their keys

A JSON library need not keep the members of an object in the order they were written in.
`Rearranged` relates a document to what such a library may hold instead, at every depth, and
`Reads` says that a reader finds a value in a document **and in all its rearrangements**.

A record is read by its keys, so it is enough that no two of its members share one: then
every key holds what was written under it (`Rearranged.members`). The tag of a choice is a
member like the others, so it must differ from every key of the alternative it names.
-/

namespace ReaderGen

/-! ## The members of an object in another order -/

/-- The same document, up to the order of the members of its objects. -/
inductive Json.Rearranged : Json → Json → Prop
  | refl (json : Json) : Rearranged json json
  | arr {items written : List Json} (hitems : List.Forall₂ Rearranged items written) :
    Rearranged (.arr items) (.arr written)
  | obj {members ordered written : Members} (horder : members.Perm ordered)
    (hkeys : ordered.map Prod.fst = written.map Prod.fst)
    (hvalues : List.Forall₂ Rearranged (ordered.map Prod.snd) (written.map Prod.snd)) :
    Rearranged (.obj members) (.obj written)

namespace Members

/-- Under every key of `written` there is a rearrangement of what was written there. -/
def Hold (members written : Members) : Prop :=
  ∀ key value, written.lookup key = some value →
    ∃ json, members.lookup key = some json ∧ json.Rearranged value

theorem mem_of_lookup {members : Members} {key : String} {value : Json}
    (h : members.lookup key = some value) : (key, value) ∈ members := by
  obtain ⟨before, behind, rfl, -⟩ := List.lookup_eq_some_iff.mp h
  exact List.mem_append_right before List.mem_cons_self

theorem lookup_of_mem {members : Members} (hkeys : (members.map Prod.fst).Nodup)
    {key : String} {value : Json} (h : (key, value) ∈ members) :
    members.lookup key = some value := by
  obtain ⟨before, behind, rfl⟩ := List.append_of_mem h
  refine List.lookup_eq_some_iff.mpr ⟨before, behind, rfl, fun member hmember => ?_⟩
  simp only [List.map_append, List.map_cons] at hkeys
  have hother : member.1 ≠ key :=
    (List.nodup_append.mp hkeys).2.2 _ (List.mem_map_of_mem hmember) _ List.mem_cons_self
  simpa using hother.symm

end Members

/-- A rearranged object with distinct keys holds what was written under each of them. -/
theorem Json.Rearranged.members {json : Json} {written : Members}
    (h : json.Rearranged (.obj written)) (hkeys : (written.map Prod.fst).Nodup) :
    ∃ members : Members, json = .obj members ∧ members.Hold written := by
  cases h with
  | refl => exact ⟨written, rfl, fun key value hvalue => ⟨value, hvalue, .refl value⟩⟩
  | @obj members ordered _ horder hsame hvalues =>
    refine ⟨members, rfl, fun key value hvalue => ?_⟩
    -- The member that was written stands at some place, and its partner at the same one.
    obtain ⟨i, hi, hmember⟩ := List.mem_iff_getElem.mp (Members.mem_of_lookup hvalue)
    have hlength : ordered.length = written.length := by simpa using hvalues.length_eq
    have hplace : i < ordered.length := hlength ▸ hi
    have hkey : ordered[i].1 = key := by
      have hthere := congrArg (·[i]?) hsame
      simpa [hplace, hi, hmember] using hthere
    have hrelated : ordered[i].2.Rearranged value := by
      simpa [hmember] using
        (List.forall₂_iff_get.mp hvalues).2 i (by simpa using hplace) (by simpa using hi)
    have hfound : (key, ordered[i].2) ∈ members :=
      horder.mem_iff.mpr (by rw [← hkey]; exact List.getElem_mem hplace)
    have hdistinct : (members.map Prod.fst).Nodup := by
      rw [(horder.map Prod.fst).nodup_iff, hsame]
      exact hkeys
    exact ⟨ordered[i].2, Members.lookup_of_mem hdistinct hfound, hrelated⟩

theorem Json.Rearranged.items {json : Json} {written : List Json}
    (h : json.Rearranged (.arr written)) :
    ∃ items, json = .arr items ∧ List.Forall₂ Json.Rearranged items written := by
  cases h with
  | refl => exact ⟨written, rfl, List.forall₂_same.mpr fun item _ => .refl item⟩
  | arr hitems => exact ⟨_, rfl, hitems⟩

/-! ## Reading -/

variable {α : Type}

namespace Json

/-- The reader finds the value in the document and in all its rearrangements. -/
def Reads (read : Json → Option α) (written : Json) (value : α) : Prop :=
  ∀ json : Json, json.Rearranged written → read json = some value

theorem reads_str (value : String) : Reads str? (.str value) value := by
  rintro json ⟨⟩
  rfl

theorem reads_bool (value : Bool) : Reads bool? (.bool value) value := by
  rintro json ⟨⟩
  rfl

theorem natBelow?_of_lt {n bound : Nat} (h : n < bound) :
    natBelow? bound (.int n) = some n := by
  simp [natBelow?, h]

theorem reads_uint32 (value : UInt32) : Reads uint32? (.int value.toNat) value := by
  rintro json ⟨⟩
  rw [uint32?, natBelow?_of_lt value.toNat_lt]
  simp

theorem reads_uint8 (value : UInt8) : Reads uint8? (.int value.toNat) value := by
  rintro json ⟨⟩
  rw [uint8?, natBelow?_of_lt value.toNat_lt]
  simp

theorem reads_plainChoice (rigour : Rigour) (name : String) :
    Reads (plainChoice? rigour) (.str name) name := by
  rintro json ⟨⟩
  rfl

/-- A list of written values is read item by item. -/
theorem reads_list {read : Json → Option α} {write : α → Json}
    (h : ∀ value, Reads read (write value) value) (values : List α) :
    Reads (list? read) (.arr (values.map write)) values := by
  intro json hjson
  obtain ⟨items, rfl, hitems⟩ := hjson.items
  rw [List.forall₂_map_right_iff] at hitems
  clear hjson
  induction hitems with
  | nil => rfl
  | cons hitem _ ih =>
    rw [list?] at ih ⊢
    simp [h _ _ hitem, ih]

/-! ## Keys and tags -/

end Json

variable {members written : Members}

theorem Members.Hold.required (hold : members.Hold written) (key : String) {document : Json}
    {read : Json → Option α} {value : α} (hkey : written.lookup key = some document)
    (hread : Json.Reads read document value) : members.required key read = some value := by
  obtain ⟨json, hjson, hrelated⟩ := hold key document hkey
  simp [Members.required, hjson, hread json hrelated]

theorem Members.Hold.orElse (hold : members.Hold written) (key : String) (default : α)
    {document : Json} {read : Json → Option α} {value : α}
    (hkey : written.lookup key = some document) (hread : Json.Reads read document value) :
    members.orElse key default read = some value := by
  obtain ⟨json, hjson, hrelated⟩ := hold key document hkey
  simp [Members.orElse, hjson, hread json hrelated]

/-- The tag names the alternative, and the record is read on with its tag. -/
theorem Members.Hold.tagged (hold : members.Hold written) {rigour : Json.Rigour}
    (tag : String) {name : String} {names : List String}
    (hkey : written.lookup tag = some (.str name)) (hname : name ∈ names) :
    (Json.obj members).tagged? rigour tag names = some (name, .obj members) := by
  obtain ⟨json, hjson, hrelated⟩ := hold tag (.str name) hkey
  cases hrelated
  simp [Json.tagged?, hjson, Json.choice?, hname]

end ReaderGen
