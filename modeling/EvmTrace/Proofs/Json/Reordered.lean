import EvmTrace.Json
import Mathlib.Data.List.Nodup

/-!
JSON values that differ in nothing but the order of the members of their objects. A record is written
with its members in the order of its fields, while a value that was read has them in the order of
their names; a reading must not tell the two apart.
-/

set_option autoImplicit false

namespace EvmTrace.Json

mutual

/-- The same value, with the members of its objects in any order. -/
inductive Reordered : Json → Json → Prop
  | null : Reordered .null .null
  | bool (value : Bool) : Reordered (.bool value) (.bool value)
  | int (value : Int) : Reordered (.int value) (.int value)
  | real (negative : Bool) (significand : Nat) (exponent : Int) :
      Reordered (.real negative significand exponent) (.real negative significand exponent)
  | string (value : String) : Reordered (.string value) (.string value)
  | array {items others : List Json} (each : ReorderedItems items others) :
      Reordered (.array items) (.array others)
  | object {members others shuffled : List (String × Json)}
      (each : ReorderedMembers members others) (order : others.Perm shuffled) :
      Reordered (.object members) (.object shuffled)

/-- Items with the members inside them in any order. -/
inductive ReorderedItems : List Json → List Json → Prop
  | nil : ReorderedItems [] []
  | cons {item other : Json} {rest others : List Json} (first : Reordered item other)
      (later : ReorderedItems rest others) : ReorderedItems (item :: rest) (other :: others)

/-- Members in their own order, with the members inside them in any order. -/
inductive ReorderedMembers : List (String × Json) → List (String × Json) → Prop
  | nil : ReorderedMembers [] []
  | cons {name : String} {value other : Json} {rest others : List (String × Json)}
      (first : Reordered value other) (later : ReorderedMembers rest others) :
      ReorderedMembers ((name, value) :: rest) ((name, other) :: others)

end

mutual

theorem Reordered.refl : ∀ json : Json, json.Reordered json
  | .null => .null
  | .bool value => .bool value
  | .int value => .int value
  | .real negative significand exponent => .real negative significand exponent
  | .string value => .string value
  | .array items => .array (ReorderedItems.refl items)
  | .object members => .object (ReorderedMembers.refl members) (.refl members)

theorem ReorderedItems.refl : ∀ items : List Json, ReorderedItems items items
  | [] => .nil
  | item :: rest => .cons (Reordered.refl item) (ReorderedItems.refl rest)

theorem ReorderedMembers.refl :
    ∀ members : List (String × Json), ReorderedMembers members members
  | [] => .nil
  | (_, value) :: rest => .cons (Reordered.refl value) (ReorderedMembers.refl rest)

end

namespace ReorderedMembers

variable {members others : List (String × Json)}

theorem names (same : ReorderedMembers members others) :
    others.map Prod.fst = members.map Prod.fst := by
  induction members generalizing others with
  | nil =>
      cases same
      rfl
  | cons member rest ih =>
      cases same with
      | cons first later => rw [List.map_cons, List.map_cons, ih later]

theorem exists_of_mem (same : ReorderedMembers members others) {name : String} {value : Json}
    (inside : (name, value) ∈ members) :
    ∃ other, (name, other) ∈ others ∧ value.Reordered other := by
  induction members generalizing others with
  | nil => cases inside
  | cons member rest ih =>
      cases same with
      | cons first later =>
          rcases List.mem_cons.mp inside with here | deeper
          · cases here
            exact ⟨_, List.mem_cons_self, first⟩
          · obtain ⟨other, found, reordered⟩ := ih later deeper
            exact ⟨other, List.mem_cons_of_mem _ found, reordered⟩

/-- The values of members with the names that they had. -/
theorem zip {items : List Json} (same : ReorderedItems (members.map Prod.snd) items) :
    ReorderedMembers members ((members.map Prod.fst).zip items) := by
  induction members generalizing items with
  | nil =>
      cases same
      exact .nil
  | cons member rest ih =>
      cases same with
      | cons first later => exact .cons first (ih later)

end ReorderedMembers

/-- A member is found by its name if no other has that name. -/
theorem lookup_of_mem {members : List (String × Json)}
    (distinct : (members.map Prod.fst).Nodup) {name : String} {value : Json}
    (inside : (name, value) ∈ members) : lookup name members = some value := by
  induction members with
  | nil => cases inside
  | cons member rest ih =>
      rw [List.map_cons, List.nodup_cons] at distinct
      rcases List.mem_cons.mp inside with here | deeper
      · cases here
        rw [lookup, if_pos rfl]
      · have apart : member.1 ≠ name := by
          intro same
          apply distinct.1
          rw [same]
          exact List.mem_map_of_mem deeper
        rw [lookup, if_neg apart]
        exact ih distinct.2 deeper

end EvmTrace.Json
