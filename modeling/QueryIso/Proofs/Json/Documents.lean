import Mathlib.Tactic.Common
import QueryIso.Json.Document

/-!
# Documents

An integer is written without a point and an exponent, so that it is told from a floating point
value. `Json.Document.induction` reduces a property of all documents to the scalar ones, arrays of
documents that have it and objects whose values have it. The levels of an array or an object are
those of what it holds and one more.
-/

namespace QueryIso

namespace Json

namespace Numeral

theorem isMarked_ofInt (value : Int) : (ofInt value).isMarked = false :=
  rfl

theorem integer?_ofInt (value : Int) : (ofInt value).integer? = some value := by
  have notMinusZero : ¬ ((ofInt value).negative ∧ (ofInt value).whole = 0) := by
    simp only [ofInt, decide_eq_true_eq]
    omega
  rw [integer?, isMarked_ofInt, if_neg (by simpa using notMinusZero)]
  simp only [ofInt, decide_eq_true_eq]
  split <;> simp only [Option.some.injEq] <;> omega

theorem integer?_of_isMarked {numeral : Numeral} (marked : numeral.isMarked) :
    numeral.integer? = none := by
  rw [integer?, if_pos (.inl marked)]

end Numeral

namespace Document

section
set_option linter.unusedSectionVars false
variable {motive : Document → Prop} (null : motive .null) (bool : ∀ value, motive (.bool value))
  (number : ∀ numeral, motive (.number numeral)) (string : ∀ text, motive (.string text))
  (array : ∀ items, (∀ item ∈ items, motive item) → motive (.array items))
  (object : ∀ members, (∀ member ∈ members, motive member.2) → motive (.object members))
include null bool number string array object

mutual

@[elab_as_elim, induction_eliminator]
theorem induction : ∀ document : Document, motive document
  | .null => null
  | .bool value => bool value
  | .number numeral => number numeral
  | .string text => string text
  | .array items => array items (induction_items items)
  | .object members => object members (induction_members members)

theorem induction_items : ∀ items : List Document, ∀ item ∈ items, motive item
  | [], _, mem => by cases mem
  | first :: rest, item, mem => by
    rcases List.mem_cons.1 mem with same | later
    · exact same ▸ induction first
    · exact induction_items rest item later

theorem induction_members :
    ∀ members : List (String × Document), ∀ member ∈ members, motive member.2
  | [], _, mem => by cases mem
  | (name, value) :: rest, member, mem => by
    rcases List.mem_cons.1 mem with same | later
    · exact same ▸ induction value
    · exact induction_members rest member later

end

end

theorem levelsOfMembers_eq (members : List (String × Document)) :
    levelsOfMembers members = levelsOfItems (members.map (·.2)) := by
  induction members with
  | nil => rfl
  | cons member members ih => rw [levelsOfMembers, ih, List.map_cons, levelsOfItems]

theorem levelsOfItems_le_iff {items : List Document} {depth : Nat} :
    levelsOfItems items ≤ depth ↔ ∀ item ∈ items, item.levels ≤ depth := by
  induction items with
  | nil => simp [levelsOfItems]
  | cons item items ih => simp only [levelsOfItems, Nat.max_le, ih, List.forall_mem_cons]

theorem levels_array_le_iff {items : List Document} {depth : Nat} :
    (array items).levels ≤ depth + 1 ↔ ∀ item ∈ items, item.levels ≤ depth := by
  rw [levels, Nat.add_le_add_iff_right, levelsOfItems_le_iff]

theorem levels_object_le_iff {members : List (String × Document)} {depth : Nat} :
    (object members).levels ≤ depth + 1 ↔ ∀ member ∈ members, member.2.levels ≤ depth := by
  rw [levels, Nat.add_le_add_iff_right, levelsOfMembers_eq, levelsOfItems_le_iff,
    List.forall_mem_map]

end Document

end Json

end QueryIso
