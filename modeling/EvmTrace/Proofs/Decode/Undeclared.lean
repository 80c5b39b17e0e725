import EvmTrace.Proofs.Decode.Records

set_option autoImplicit false

namespace EvmTrace

/--
Members with more of them put anywhere among them, none under one of the given names; those that were
there may have altered values.
-/
inductive Json.Widened (names : List String) (Alters : String → Json → Json → Prop) :
    List (String × Json) → List (String × Json) → Prop
  | nil : Widened names Alters [] []
  | keep {name : String} {value other : Json} {members others : List (String × Json)}
      (alters : Alters name value other) (later : Widened names Alters members others) :
      Widened names Alters ((name, value) :: members) ((name, other) :: others)
  | add {name : String} (value : Json) {members others : List (String × Json)}
      (free : name ∉ names) (later : Widened names Alters members others) :
      Widened names Alters members ((name, value) :: others)

/-- The value of a member stays the same. -/
def Json.Same (_ : String) (value other : Json) : Prop :=
  other = value

namespace Json.Widened

variable {names : List String} {Alters : String → Json → Json → Prop}
  {members others : List (String × Json)}

theorem lookup (wide : Widened names Alters members others) {name : String}
    (inside : name ∈ names) :
    Option.Rel (Alters name) (Json.lookup name members) (Json.lookup name others) := by
  induction wide with
  | nil => exact .none
  | @keep key value other members others alters later ih =>
      rw [Json.lookup, Json.lookup]
      by_cases here : key = name
      · rw [if_pos here, if_pos here, ← here]
        exact .some alters
      · rw [if_neg here, if_neg here]
        exact ih
  | @add key value members others free later ih =>
      have elsewhere : key ≠ name := by
        rintro rfl
        exact free inside
      rw [Json.lookup, if_neg elsewhere]
      exact ih

theorem lookup_eq (wide : Widened names Alters members others) {name : String}
    (inside : name ∈ names)
    (unaltered : ∀ value other, Alters name value other → other = value) :
    Json.lookup name others = Json.lookup name members := by
  have related := wide.lookup inside
  generalize Json.lookup name members = before, Json.lookup name others = after at related ⊢
  cases related with
  | none => rfl
  | some alters => rw [unaltered _ _ alters]

theorem filter (members : List (String × Json)) {name : String} (free : name ∉ names) :
    Widened names Same (members.filter fun member => member.1 ≠ name) members := by
  induction members with
  | nil => exact .nil
  | cons member rest ih =>
      by_cases here : member.1 = name
      · rw [List.filter_cons_of_neg (by simp [here])]
        exact .add member.2 (here ▸ free) ih
      · rw [List.filter_cons_of_pos (by simp [here])]
        exact .keep rfl ih

end Json.Widened

namespace Shape

/-- The values of a record's fields are all that it is built of. -/
theorem build_congr {β : Type} {shape : Shape β} {values others : String → Option Json}
    (same : ∀ name ∈ shape.names, others name = values name) :
    shape.build others = shape.build values := by
  induction shape with
  | make value => rfl
  | field before next ih =>
      have names : (Shape.field before next).names = before.names ++ [next.name] := by
        rw [Shape.names, declared, List.map_append]
        rfl
      rw [names] at same
      rw [build, build, ih fun name inside => same name (List.mem_append_left _ inside),
        same next.name (List.mem_append_right _ List.mem_cons_self)]

variable {names : List String} {Alters : String → Json → Json → Prop}
  {members others : List (String × Json)}

theorem checkMembers_of_widened (wide : Json.Widened names Alters members others)
    {fields : List Declared} (within : ∀ known ∈ fields, known.name ∈ names)
    (unaltered : ∀ known ∈ fields, ∀ value other, Alters known.name value other → other = value) :
    checkMembers fields others = checkMembers fields members := by
  induction wide with
  | nil => rfl
  | @keep name value other members others alters later ih =>
      rw [checkMembers, checkMembers]
      cases found : fields.find? fun known => known.name = name with
      | none => exact ih
      | some known =>
          have named : known.name = name := by simpa using List.find?_some found
          have same : other = value :=
            unaltered known (List.mem_of_find?_eq_some found) value other (named ▸ alters)
          simp only [same, ih]
  | @add name value members others free later ih =>
      have unknown : (fields.find? fun known => known.name = name) = none := by
        rw [List.find?_eq_none]
        intro known inside
        have apart : known.name ≠ name := by
          rintro rfl
          exact free (within known inside)
        simpa using apart
      rw [checkMembers, unknown]
      exact ih

/-- A record is read alike from members among which others have been put. -/
theorem ofMembers_of_widened {β : Type} (shape : Shape β)
    (wide : Json.Widened names Alters members others) (within : ∀ name ∈ shape.names, name ∈ names)
    (unaltered : ∀ name ∈ shape.names, ∀ value other, Alters name value other → other = value) :
    shape.ofMembers others = shape.ofMembers members := by
  have built : (shape.build fun name => Json.lookup name others) =
      shape.build fun name => Json.lookup name members := by
    apply build_congr
    intro name inside
    exact wide.lookup_eq (within name inside) (unaltered name inside)
  have named : ∀ known ∈ shape.declared, known.name ∈ shape.names :=
    fun known inside => List.mem_map_of_mem inside
  rw [ofMembers, ofMembers, built,
    checkMembers_of_widened wide (fun known inside => within _ (named known inside))
      fun known inside => unaltered _ (named known inside)]

end Shape

end EvmTrace
