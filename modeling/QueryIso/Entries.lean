/-!
# Entries in name order

A finite map from names to values, as a list whose type keeps it strictly increasing by name.
Two maps with the same names and values are therefore the same term, and every walk over a map
meets the names in code point order:

* `Entries.sorted_toList`: the names of a map strictly increase;
* `Entries.toList_inj`: a map is determined by its list of entries;
* `Entries.get?_eq_some_iff`: looking up a name finds the entry in that list;
* `Entries.get?_insert_self`, `Entries.get?_insert_of_ne`: after an insertion, its name has its
  value and every other name has what it had.
-/

namespace QueryIso

universe u

/-- A name comes after an optional lower bound; no bound admits every name. -/
def Above : Option String → String → Prop
  | none, _ => True
  | some bound, name => bound < name

instance : ∀ bound name, Decidable (Above bound name)
  | none, _ => isTrue trivial
  | some bound, name => inferInstanceAs (Decidable (bound < name))

/-- Named values whose names strictly increase and all come after `bound`. -/
inductive Entries (α : Type u) : Option String → Type u
  | nil {bound : Option String} : Entries α bound
  | cons {bound : Option String} (name : String) (above : Above bound name) (value : α)
      (rest : Entries α (some name)) : Entries α bound

/-- A finite map from names to values. -/
abbrev Dict (α : Type u) : Type u := Entries α none

namespace Entries

variable {α β : Type u} {bound : Option String}

/-- The entries in name order. -/
def toList {bound : Option String} : Entries α bound → List (String × α)
  | .nil => []
  | .cons name _ value rest => (name, value) :: rest.toList

/-- The names in order. -/
def names (entries : Entries α bound) : List String :=
  entries.toList.map (·.1)

/-- The number of entries. -/
def length (entries : Entries α bound) : Nat :=
  entries.toList.length

/-- The value of a name. -/
def get? {bound : Option String} : Entries α bound → String → Option α
  | .nil, _ => none
  | .cons name _ value rest, wanted => if wanted = name then some value else rest.get? wanted

/-- Gives a name a value, in place of the one it had. -/
def insert {bound : Option String} (name : String) (above : Above bound name) (value : α) :
    Entries α bound → Entries α bound
  | .nil => .cons name above value .nil
  | .cons first firstAbove firstValue rest =>
    if before : name < first then .cons name above value (.cons first before firstValue rest)
    else if after : first < name then
      .cons first firstAbove firstValue (insert name after value rest)
    else .cons first firstAbove value rest

/-- Applies a function to every value. -/
def map {bound : Option String} (f : α → β) : Entries α bound → Entries β bound
  | .nil => .nil
  | .cons name above value rest => .cons name above (f value) (rest.map f)

theorem toList_inj {a b : Entries α bound} : a.toList = b.toList ↔ a = b := by
  refine ⟨fun same => ?_, fun same => same ▸ rfl⟩
  induction a with
  | nil =>
    cases b with
    | nil => rfl
    | cons => simp [toList] at same
  | cons name _ value rest ih =>
    cases b with
    | nil => simp [toList] at same
    | cons name' _ value' rest' =>
      simp only [toList, List.cons.injEq, Prod.mk.injEq] at same
      obtain ⟨⟨rfl, rfl⟩, same⟩ := same
      rw [ih same]

instance [DecidableEq α] : DecidableEq (Entries α bound) :=
  fun _ _ => decidable_of_iff _ toList_inj

theorem above_of_mem {bound : Option String} {entries : Entries α bound} {entry : String × α}
    (mem : entry ∈ entries.toList) : Above bound entry.1 := by
  induction entries with
  | nil => simp [toList] at mem
  | @cons bound name above value rest ih =>
    simp only [toList, List.mem_cons] at mem
    rcases mem with rfl | mem
    · exact above
    · cases bound with
      | none => trivial
      | some _ => exact String.lt_trans above (ih mem)

theorem sorted_toList {bound : Option String} (entries : Entries α bound) :
    entries.toList.Pairwise fun a b => a.1 < b.1 := by
  induction entries with
  | nil => exact .nil
  | cons name above value rest ih => exact .cons (fun _ mem => above_of_mem mem) ih

theorem get?_eq_some_iff {bound : Option String} {entries : Entries α bound} {name : String}
    {value : α} : entries.get? name = some value ↔ (name, value) ∈ entries.toList := by
  induction entries with
  | nil => simp [get?, toList]
  | cons first _ firstValue rest ih =>
    by_cases same : name = first
    · subst same
      have later : (name, value) ∉ rest.toList := fun mem =>
        String.lt_irrefl name (above_of_mem mem)
      simp [get?, toList, later, eq_comm]
    · simp [get?, toList, same, ih]

theorem get?_insert_self {bound : Option String} (name : String) (above : Above bound name)
    (value : α) (entries : Entries α bound) :
    (entries.insert name above value).get? name = some value := by
  induction entries with
  | nil => simp [insert, get?]
  | cons first firstAbove firstValue rest ih =>
    by_cases before : name < first
    · simp [insert, before, get?]
    · by_cases after : first < name
      · have other : name ≠ first := fun same => String.lt_irrefl first (same ▸ after)
        simpa [insert, before, after, get?, other] using ih after
      · have same : name = first :=
          String.le_antisymm (String.not_lt.1 after) (String.not_lt.1 before)
        simp [insert, get?, same]

theorem get?_insert_of_ne {bound : Option String} {name wanted : String} (other : wanted ≠ name)
    (above : Above bound name) (value : α) (entries : Entries α bound) :
    (entries.insert name above value).get? wanted = entries.get? wanted := by
  induction entries with
  | nil => simp [insert, get?, other]
  | cons first firstAbove firstValue rest ih =>
    by_cases before : name < first
    · simp [insert, before, get?, other]
    · by_cases after : first < name
      · have := ih after
        simp [insert, before, after, get?, this]
      · have same : name = first :=
          String.le_antisymm (String.not_lt.1 after) (String.not_lt.1 before)
        simp [insert, before, after, get?, same ▸ other]

theorem toList_map {bound : Option String} (f : α → β) (entries : Entries α bound) :
    (entries.map f).toList = entries.toList.map fun entry => (entry.1, f entry.2) := by
  induction entries with
  | nil => rfl
  | cons name above value rest ih => simp [map, toList, ih]

end Entries

namespace Dict

variable {α : Type u}

/-- Gives a name a value, in place of the one it had. -/
def insert (dict : Dict α) (name : String) (value : α) : Dict α :=
  Entries.insert name trivial value dict

/-- Inserts pairs one after the other: the last value given to a name stays. -/
def ofList (pairs : List (String × α)) : Dict α :=
  pairs.foldl (fun dict pair => insert dict pair.1 pair.2) .nil

end Dict

end QueryIso
