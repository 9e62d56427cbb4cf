import Mathlib.Data.List.Perm.Basic
import Mathlib.Data.List.Sort
import QueryIso.Entries

/-!
# The names and values of a table

The order of its names makes a table a canonical object:

* `names_eq_iff`: tables with the same set of names list them in the same way;
* `Dict.ext_get?`: a table is what its look-ups answer;
* `Dict.get?_ofList_iff_last`: of the values given to a name, the last one stays;
* `Dict.toList_ofList`: the table of pairs with different names lists them in name order.
-/

namespace QueryIso

universe u

namespace Entries

variable {α β : Type u} {bound other : Option String}

/-- The values in name order. -/
def values (entries : Entries α bound) : List α :=
  entries.toList.map (·.2)

@[simp] theorem names_nil : (nil : Entries α bound).names = [] :=
  rfl

@[simp] theorem names_cons (name : String) (above : Above bound name) (value : α)
    (rest : Entries α (some name)) : (cons name above value rest).names = name :: rest.names :=
  rfl

@[simp] theorem values_nil : (nil : Entries α bound).values = [] :=
  rfl

@[simp] theorem values_cons (name : String) (above : Above bound name) (value : α)
    (rest : Entries α (some name)) : (cons name above value rest).values = value :: rest.values :=
  rfl

theorem length_names (entries : Entries α bound) : entries.names.length = entries.length :=
  List.length_map _

theorem mem_names_iff {entries : Entries α bound} {name : String} :
    name ∈ entries.names ↔ ∃ value, entries.get? name = some value := by
  simp only [names, List.mem_map, get?_eq_some_iff]
  constructor
  · rintro ⟨⟨_, value⟩, mem, rfl⟩
    exact ⟨value, mem⟩
  · rintro ⟨value, mem⟩
    exact ⟨(name, value), mem, rfl⟩

theorem mem_values_iff {entries : Entries α bound} {value : α} :
    value ∈ entries.values ↔ ∃ name, entries.get? name = some value := by
  simp only [values, List.mem_map, get?_eq_some_iff]
  constructor
  · rintro ⟨⟨name, _⟩, mem, rfl⟩
    exact ⟨name, mem⟩
  · rintro ⟨name, mem⟩
    exact ⟨(name, value), mem, rfl⟩

theorem sorted_names (entries : Entries α bound) : entries.names.Pairwise (· < ·) :=
  List.pairwise_map.2 entries.sorted_toList

theorem nodup_of_sorted {names : List String} (sorted : names.Pairwise (· < ·)) :
    names.Nodup := by
  apply sorted.imp
  rintro name _ before rfl
  exact String.lt_irrefl name before

theorem nodup_names (entries : Entries α bound) : entries.names.Nodup :=
  nodup_of_sorted entries.sorted_names

theorem nodup_toList (entries : Entries α bound) : entries.toList.Nodup :=
  .of_map _ entries.nodup_names

/-- Strictly increasing lists of names with the same members are the same. -/
theorem eq_of_sorted {as bs : List String} (sortedA : as.Pairwise (· < ·))
    (sortedB : bs.Pairwise (· < ·)) (same : ∀ name, name ∈ as ↔ name ∈ bs) : as = bs := by
  have perm : as.Perm bs :=
    (List.perm_ext_iff_of_nodup (nodup_of_sorted sortedA) (nodup_of_sorted sortedB)).2 same
  exact perm.eq_of_pairwise (fun _ _ _ _ ab ba => (String.lt_asymm ab ba).elim) sortedA sortedB

theorem names_eq_iff {a : Entries α bound} {b : Entries β other} :
    a.names = b.names ↔ ∀ name, name ∈ a.names ↔ name ∈ b.names :=
  ⟨fun same _ => same ▸ Iff.rfl, eq_of_sorted a.sorted_names b.sorted_names⟩

/-- A table is determined by its names and its values. -/
theorem eq_of_names_values {a b : Entries α bound} (names : a.names = b.names)
    (values : a.values = b.values) : a = b :=
  toList_inj.1 ((List.zip_of_prod names values).trans (List.zip_of_prod rfl rfl).symm)

theorem toList_eq_map {entries : Entries α bound} {f : String → α}
    (agrees : ∀ name value, entries.get? name = some value → value = f name) :
    entries.toList = entries.names.map fun name => (name, f name) := by
  have pair (entry : String × α) (mem : entry ∈ entries.toList) :
      entry = (entry.1, f entry.1) := by
    rw [← agrees _ _ (get?_eq_some_iff.2 mem)]
  rw [names, List.map_map]
  exact (List.map_id _).symm.trans (List.map_congr_left pair)

@[simp] theorem names_map (f : α → β) (entries : Entries α bound) :
    (entries.map f).names = entries.names := by
  simp [names, toList_map, List.map_map, Function.comp_def]

@[simp] theorem values_map (f : α → β) (entries : Entries α bound) :
    (entries.map f).values = entries.values.map f := by
  simp [values, toList_map, List.map_map, Function.comp_def]

@[simp] theorem length_map (f : α → β) (entries : Entries α bound) :
    (entries.map f).length = entries.length := by
  rw [← length_names, names_map, length_names]

theorem get?_map {bound : Option String} (f : α → β) (entries : Entries α bound) (name : String) :
    (entries.map f).get? name = (entries.get? name).map f := by
  induction entries with
  | nil => rfl
  | cons first above value rest ih =>
    rw [map, get?, get?]
    split
    · rfl
    · exact ih

/-- Tables with the same names and related values answer every look-up alike. -/
theorem exists_get?_of_forall₂ {bound : Option String} {R : α → β → Prop} {a : Entries α bound}
    {b : Entries β bound} (names : a.names = b.names) (related : List.Forall₂ R a.values b.values)
    {name : String} {value : α} (get : a.get? name = some value) :
    ∃ other, b.get? name = some other ∧ R value other := by
  induction a with
  | nil => cases get
  | cons first _ firstValue rest ih =>
    cases b with
    | nil => cases names
    | cons first' _ firstValue' rest' =>
      obtain ⟨rfl, names'⟩ := List.cons.inj names
      obtain ⟨here, later⟩ := List.forall₂_cons.1 related
      rw [Entries.get?] at get ⊢
      split at get
      · next same =>
        cases get
        exact ⟨firstValue', if_pos same, here⟩
      · next other =>
        rw [if_neg other]
        exact ih names' later get

theorem map_congr {bound : Option String} {f g : α → β} {entries : Entries α bound}
    (agree : ∀ value ∈ entries.values, f value = g value) : entries.map f = entries.map g := by
  apply toList_inj.1
  rw [toList_map, toList_map]
  apply List.map_congr_left
  intro entry mem
  rw [agree entry.2 (List.mem_map.2 ⟨entry, mem, rfl⟩)]

theorem map_map {γ : Type u} (f : α → β) (g : β → γ) (entries : Entries α bound) :
    (entries.map f).map g = entries.map (g ∘ f) := by
  apply toList_inj.1
  simp [toList_map]

theorem map_eq_self {f : α → α} {entries : Entries α bound}
    (fixed : ∀ value ∈ entries.values, f value = value) : entries.map f = entries := by
  rw [map_congr fixed]
  apply toList_inj.1
  rw [toList_map]
  exact List.map_id _

end Entries

namespace Dict

variable {α : Type u}

theorem get?_insert (dict : Dict α) (name wanted : String) (value : α) :
    (dict.insert name value).get? wanted =
      if wanted = name then some value else dict.get? wanted := by
  by_cases same : wanted = name
  · rw [if_pos same, same]
    exact Entries.get?_insert_self name _ value dict
  · rw [if_neg same]
    exact Entries.get?_insert_of_ne same _ value dict

/-- A table is what its look-ups answer. -/
theorem ext_get? {a b : Dict α} (same : ∀ name, a.get? name = b.get? name) : a = b := by
  apply Entries.toList_inj.1
  have perm : a.toList.Perm b.toList := by
    rw [List.perm_ext_iff_of_nodup a.nodup_toList b.nodup_toList]
    rintro ⟨name, value⟩
    rw [← Entries.get?_eq_some_iff, ← Entries.get?_eq_some_iff, same]
  exact perm.eq_of_pairwise (fun _ _ _ _ ab ba => (String.lt_asymm ab ba).elim)
    a.sorted_toList b.sorted_toList

theorem get?_foldl_insert (pairs : List (String × α)) (dict : Dict α) (name : String) :
    (pairs.foldl (fun dict pair => dict.insert pair.1 pair.2) dict).get? name =
      (pairs.reverse.lookup name).or (dict.get? name) := by
  induction pairs generalizing dict with
  | nil => rfl
  | cons pair rest ih =>
    obtain ⟨first, value⟩ := pair
    rw [List.foldl_cons, ih, List.reverse_cons, List.lookup_append, get?_insert, Option.or_assoc]
    by_cases same : name = first
    · simp [same]
    · have other : (name == first) = false := beq_eq_false_iff_ne.2 same
      simp [List.lookup_cons, same, other]

/-- The last value given to a name stays. -/
theorem get?_ofList (pairs : List (String × α)) (name : String) :
    (ofList pairs).get? name = pairs.reverse.lookup name := by
  rw [ofList, get?_foldl_insert]
  exact Option.or_none

/-- A name has the value that it was given last. -/
theorem get?_ofList_iff_last {pairs : List (String × α)} {name : String} {value : α} :
    (ofList pairs).get? name = some value ↔ ∃ before after,
      pairs = before ++ (name, value) :: after ∧ ∀ other, (name, other) ∉ after := by
  rw [get?_ofList, List.lookup_eq_some_iff]
  constructor
  · rintro ⟨after, before, split, absent⟩
    refine ⟨before.reverse, after.reverse, ?_, ?_⟩
    · rw [List.reverse_eq_append_iff] at split
      simpa using split
    · intro other mem
      have differ := absent _ (List.mem_reverse.1 mem)
      simp at differ
  · rintro ⟨before, after, rfl, absent⟩
    refine ⟨after.reverse, before.reverse, by simp, ?_⟩
    rintro ⟨first, other⟩ mem
    rw [bne_iff_ne]
    rintro rfl
    exact absent other (List.mem_reverse.1 mem)

theorem mem_names_ofList {pairs : List (String × α)} {name : String} :
    name ∈ (ofList pairs).names ↔ ∃ value, (name, value) ∈ pairs := by
  rw [Entries.mem_names_iff, get?_ofList, ← Option.isSome_iff_exists, List.lookup_isSome_iff]
  simp

theorem mem_of_get?_ofList {pairs : List (String × α)} {name : String} {value : α}
    (get : (ofList pairs).get? name = some value) : (name, value) ∈ pairs := by
  rw [get?_ofList, List.lookup_eq_some_iff] at get
  obtain ⟨before, after, split, _⟩ := get
  have mem : (name, value) ∈ pairs.reverse := by simp [split]
  exact List.mem_reverse.1 mem

/-- Where every name is given one value, the table holds the pairs. -/
theorem get?_ofList_eq_some_iff {pairs : List (String × α)}
    (functional : ∀ name a b, (name, a) ∈ pairs → (name, b) ∈ pairs → a = b) {name : String}
    {value : α} : (ofList pairs).get? name = some value ↔ (name, value) ∈ pairs := by
  refine ⟨mem_of_get?_ofList, fun mem => ?_⟩
  obtain ⟨found, get⟩ := Entries.mem_names_iff.1 (mem_names_ofList.2 ⟨value, mem⟩)
  rw [get, functional name found value (mem_of_get?_ofList get) mem]

/-- Where no name is repeated, every pair is found. -/
theorem get?_ofList_of_mem {pairs : List (String × α)} (distinct : (pairs.map (·.1)).Nodup)
    {name : String} {value : α} (mem : (name, value) ∈ pairs) :
    (ofList pairs).get? name = some value := by
  refine (get?_ofList_eq_some_iff fun name a b memA memB => ?_).2 mem
  exact congrArg (·.2) (List.inj_on_of_nodup_map distinct memA memB rfl)

theorem exists_of_mem_values {pairs : List (String × α)} {value : α}
    (mem : value ∈ (ofList pairs).values) : ∃ name, (name, value) ∈ pairs := by
  obtain ⟨name, get⟩ := Entries.mem_values_iff.1 mem
  exact ⟨name, mem_of_get?_ofList get⟩

theorem map_insert {β : Type u} (f : α → β) (dict : Dict α) (name : String) (value : α) :
    Entries.map f (dict.insert name value) = (Dict.insert (dict.map f) name (f value)) := by
  apply ext_get?
  intro wanted
  rw [Entries.get?_map, get?_insert, get?_insert, Entries.get?_map]
  split <;> rfl

/-- A function of the values can be applied to the pairs. -/
theorem map_ofList {β : Type u} (f : α → β) (pairs : List (String × α)) :
    Entries.map f (ofList pairs) = ofList (pairs.map fun pair => (pair.1, f pair.2)) := by
  rw [ofList, ofList, List.foldl_map]
  exact (List.foldl_hom (Entries.map f) fun dict pair => (map_insert f dict _ _).symm).symm

/-- The table of pairs with different names lists them in name order. -/
theorem toList_ofList {pairs ordered : List (String × α)} (perm : ordered.Perm pairs)
    (sorted : ordered.Pairwise fun a b => a.1 < b.1) : (ofList pairs).toList = ordered := by
  have distinct : (ordered.map (·.1)).Nodup := Entries.nodup_of_sorted (List.pairwise_map.2 sorted)
  have functional (name : String) (a b : α) (memA : (name, a) ∈ pairs) (memB : (name, b) ∈ pairs) :
      a = b :=
    congrArg (·.2)
      (List.inj_on_of_nodup_map distinct (perm.mem_iff.2 memA) (perm.mem_iff.2 memB) rfl)
  have same : (ofList pairs).toList.Perm ordered := by
    rw [List.perm_ext_iff_of_nodup (Entries.nodup_toList _) (.of_map _ distinct)]
    rintro ⟨name, value⟩
    rw [← Entries.get?_eq_some_iff, get?_ofList_eq_some_iff functional, perm.mem_iff]
  exact same.eq_of_pairwise (fun _ _ _ _ ab ba => (String.lt_asymm ab ba).elim)
    (Entries.sorted_toList _) sorted

theorem ofList_toList (dict : Dict α) : ofList dict.toList = dict :=
  Entries.toList_inj.1 (toList_ofList (.refl _) dict.sorted_toList)

end Dict

end QueryIso
