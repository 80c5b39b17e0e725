import EvmTrace.Decode.Shape
import EvmTrace.Proofs.Decode.Values
import Mathlib.Data.List.Forall2

set_option autoImplicit false

namespace EvmTrace.Shape

open Decode (Reads)
open Json (ReorderedItems ReorderedMembers)

/-- The members, in the order of the fields, that the fields of a record are read from. -/
inductive Writes : {β : Type} → Shape β → List (String × Json) → β → Prop
  | make {β : Type} (value : β) : Writes (.make value) [] value
  | field {α β : Type} {before : Shape (α → β)} {next : Field α} {members : List (String × Json)}
      {record : α → β} {written : Json} {value : α} (front : Writes before members record)
      (read : Reads next.decode written value) :
      Writes (.field before next) (members ++ [(next.name, written)]) (record value)

def names {β : Type} (shape : Shape β) : List String :=
  shape.declared.map (·.name)

/-- The value of a member passes the check of the field whose name it has. -/
def Passes (known : Declared) (member : String × Json) : Prop :=
  known.name = member.1 ∧ ∀ json, member.2.Reordered json → known.check json = .ok ()

theorem checkMembers_eq_ok {fields : List Declared} {members : List (String × Json)}
    (good : ∀ member ∈ members, ∀ known ∈ fields, known.name = member.1 →
      known.check member.2 = .ok ()) : checkMembers fields members = .ok () := by
  induction members with
  | nil => rfl
  | cons member rest ih =>
      have later := ih fun other inside => good other (List.mem_cons_of_mem member inside)
      rw [checkMembers]
      cases found : fields.find? fun known => known.name = member.1 with
      | none => exact later
      | some known =>
          have named : known.name = member.1 := by simpa using List.find?_some found
          have passed := good member List.mem_cons_self known (List.mem_of_find?_eq_some found) named
          simp only [passed]
          exact later

theorem exists_member_of_declared {fields : List Declared} {members : List (String × Json)}
    (passes : List.Forall₂ Passes fields members) {known : Declared} (declared : known ∈ fields) :
    ∃ member ∈ members, Passes known member := by
  induction passes with
  | nil => cases declared
  | cons pass later ih =>
      rcases List.mem_cons.mp declared with rfl | deeper
      · exact ⟨_, List.mem_cons_self, pass⟩
      · obtain ⟨member, inside, passed⟩ := ih deeper
        exact ⟨member, List.mem_cons_of_mem _ inside, passed⟩

theorem checkItems_eq_ok {fields : List Declared} {members : List (String × Json)}
    (passes : List.Forall₂ Passes fields members) {items : List Json}
    (same : ReorderedItems (members.map Prod.snd) items) : checkItems fields items = .ok () := by
  induction passes generalizing items with
  | nil =>
      cases same
      rfl
  | cons pass later ih =>
      cases same with
      | cons first rest =>
          rw [checkItems, pass.2 _ first]
          exact ih rest

namespace Writes

variable {β : Type} {shape : Shape β} {members : List (String × Json)} {record : β}

theorem of_eq {others : List (String × Json)} {other : β} (writes : shape.Writes members record)
    (sameMembers : members = others) (same : record = other) : shape.Writes others other := by
  rw [← sameMembers, ← same]
  exact writes

theorem passes (writes : shape.Writes members record) :
    List.Forall₂ Passes shape.declared members := by
  induction writes with
  | make value => exact .nil
  | @field α β before next members record written value front read ih =>
      apply List.rel_append ih
      refine .cons ⟨rfl, ?_⟩ .nil
      intro json same
      have checked : (declare next).check json = (next.decode json).map fun _ => () := rfl
      rw [checked, read json same]
      rfl

theorem names_eq (writes : shape.Writes members record) :
    shape.names = members.map Prod.fst := by
  have same : ∀ {fields : List Declared} {members : List (String × Json)},
      List.Forall₂ Passes fields members → fields.map (·.name) = members.map Prod.fst := by
    intro fields members passes
    induction passes with
    | nil => rfl
    | cons pass later ih => rw [List.map_cons, List.map_cons, pass.1, ih]
  exact same writes.passes

/-- The record is built wherever the values of its fields are found. -/
theorem build (writes : shape.Writes members record) {values : String → Option Json}
    (found : ∀ member ∈ members, ∃ json, values member.1 = some json ∧ member.2.Reordered json) :
    shape.build values = .ok record := by
  induction writes with
  | make value => rfl
  | @field α β before next members record written value front read ih =>
      have built := ih fun member inside => found member (List.mem_append_left _ inside)
      obtain ⟨json, present, same⟩ :=
        found (next.name, written) (List.mem_append_right _ List.mem_cons_self)
      rw [Shape.build, built]
      simp only [present, Field.fetch, read json same]

/-- The members of the fields may stand in any order and among others. -/
theorem ofMembers (writes : shape.Writes members record) {others all : List (String × Json)}
    (same : ReorderedMembers members others) (within : ∀ member ∈ others, member ∈ all)
    (distinct : (all.map Prod.fst).Nodup) : shape.ofMembers all = .ok record := by
  have found : ∀ member ∈ members,
      ∃ json, Json.lookup member.1 all = some json ∧ member.2.Reordered json := by
    intro member inside
    obtain ⟨json, present, reordered⟩ := same.exists_of_mem inside
    exact ⟨json, Json.lookup_of_mem distinct (within _ present), reordered⟩
  have checked : checkMembers shape.declared all = .ok () := by
    apply checkMembers_eq_ok
    intro member inside known declared named
    obtain ⟨written, inWritten, pass⟩ := exists_member_of_declared writes.passes declared
    obtain ⟨json, present, reordered⟩ := found written inWritten
    have here := Json.lookup_of_mem distinct inside
    rw [← named, pass.1, present] at here
    cases here
    exact pass.2 _ reordered
  rw [Shape.ofMembers, checked]
  exact writes.build found

/-- The fields may stand in an array in the order of their declaration. -/
theorem ofItems (writes : shape.Writes members record) (distinct : shape.names.Nodup)
    {items : List Json} (same : ReorderedItems (members.map Prod.snd) items) :
    shape.ofItems items = .ok record := by
  have zipped : ReorderedMembers members (shape.names.zip items) := by
    rw [writes.names_eq]
    exact .zip same
  have single : ((shape.names.zip items).map Prod.fst).Nodup := by
    rw [zipped.names, ← writes.names_eq]
    exact distinct
  rw [Shape.ofItems, checkItems_eq_ok writes.passes same]
  apply writes.build
  intro member inside
  obtain ⟨json, present, reordered⟩ := zipped.exists_of_mem inside
  exact ⟨json, Json.lookup_of_mem single present, reordered⟩

theorem reads_object (writes : shape.Writes members record) (distinct : shape.names.Nodup) :
    Reads shape.decode (.object members) record := by
  intro json same
  cases same with
  | @object _ others shuffled each order =>
      have single : (shuffled.map Prod.fst).Nodup := by
        rw [← (order.map Prod.fst).nodup_iff, each.names, ← writes.names_eq]
        exact distinct
      exact writes.ofMembers each (fun member inside => order.mem_iff.mp inside) single

theorem reads_array (writes : shape.Writes members record) (distinct : shape.names.Nodup) :
    Reads shape.decode (.array (members.map Prod.snd)) record := by
  intro json same
  cases same with
  | array each => exact writes.ofItems distinct each

end Writes

end EvmTrace.Shape
