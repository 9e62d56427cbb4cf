import QueryIso.Proofs.Limits
import QueryIso.Proofs.Soundness

/-!
# Renamed copies

A tree and a copy of it whose identifiers are renamed one to one are matched without abandoning any
candidate: as long as the table follows the renaming, the first candidate of every element is its
own copy, and matching it leaves a table that follows the renaming.

* `Matching.find?_eq_along`: a search whose first candidates all fit is a pass along the pairs;
* `Tree.matchFreely_copy`: the pass over a copy makes one comparison for each node;
* `Tree.copies_recognized`: so a comparison with a copy finds the renaming.
-/

namespace QueryIso

theorem Counted.bind_eq {α β : Type} {x : Counted α} {a : α} (value : x.value = a)
    (f : α → Counted β) : x >>= f = ⟨(f a).value, x.steps + (f a).steps⟩ := by
  rw [← value]
  rfl

namespace Matching

variable {E A S : Type} {compatible : E → A → S → Counted (Option S)}
  {abandon : Nat → Nat → Counted Unit}

theorem extend_eq_along {expected : List E} {free : List (A × Nat)} {state final : S}
    (accepted : (along compatible expected (free.map (·.1)) state).value = some final) :
    extend compatible abandon expected free state =
      along compatible expected (free.map (·.1)) state := by
  induction expected generalizing free state with
  | nil =>
    cases free with
    | nil => rfl
    | cons candidate others => cases accepted
  | cons element rest ih =>
    cases free with
    | nil => cases accepted
    | cons candidate others =>
      rw [List.map_cons, along, Counted.value_bind] at accepted
      rw [List.map_cons, along, extend, tryEach]
      cases tested : (compatible element candidate.1 state).value with
      | none =>
        rw [tested] at accepted
        cases accepted
      | some reached =>
        rw [tested] at accepted
        have later : extend compatible abandon rest others reached = _ := ih accepted
        rw [Counted.bind_eq tested, Counted.bind_eq tested]
        dsimp only [List.reverseAux]
        rw [later, Counted.bind_eq accepted]
        exact congrArg₂ Counted.mk accepted.symm rfl

/-- When the candidates fit in the order in which they come, the search tries no others. -/
theorem find?_eq_along {expected : List E} {actual : List A} {state final : S}
    (accepted : (along compatible expected actual state).value = some final) :
    find? compatible abandon expected actual state = along compatible expected actual state := by
  have sizes : expected.length = actual.length := by
    let test : E → A → S → Id (Option S) :=
      fun element candidate state => (compatible element candidate state).value
    have values :
        (along compatible expected actual state).value = along test expected actual state :=
      along_related Counted.values (fun _ _ _ _ => rfl) actual state
    exact length_of_along (values.symm.trans accepted)
  rw [find?, if_pos sizes]
  rw [← List.zipIdx_map_fst 0 actual] at accepted
  rw [extend_eq_along accepted, List.zipIdx_map_fst]

end Matching

namespace Tree

mutual

/-- The number of nodes. -/
def size : Tree → Nat
  | .scalar _ => 1
  | .sequence items => 1 + sizeOfItems items
  | .record fields => 1 + sizeOfFields fields

/-- The number of nodes of elements. -/
def sizeOfItems : List Tree → Nat
  | [] => 0
  | item :: rest => item.size + sizeOfItems rest

/-- The number of nodes of fields. -/
def sizeOfFields {bound : Option String} : Entries Tree bound → Nat
  | .nil => 0
  | .cons _ _ value rest => value.size + sizeOfFields rest

end

theorem sizeOfFields_eq {bound : Option String} (fields : Entries Tree bound) :
    sizeOfFields fields = sizeOfItems fields.values := by
  induction fields with
  | nil => rfl
  | cons name above value rest ih => rw [sizeOfFields, ih, Entries.values_cons, sizeOfItems]

theorem depthOfItems_map {f : Tree → Tree} {items : List Tree}
    (same : ∀ item ∈ items, (f item).depth = item.depth) :
    depthOfItems (items.map f) = depthOfItems items := by
  induction items with
  | nil => rfl
  | cons item rest ih =>
    rw [List.map_cons, depthOfItems, depthOfItems, same item List.mem_cons_self,
      ih fun other mem => same other (List.mem_cons_of_mem _ mem)]

theorem depth_rename (image : String → String) (tree : Tree) :
    (tree.rename image).depth = tree.depth := by
  induction tree with
  | identifier text kind known =>
    rw [rename_str known]
    rfl
  | plain value plain => rw [rename_plain plain]
  | sequence items ih =>
    rw [rename_sequence, depth, depth]
    exact depthOfItems_map ih
  | record fields ih =>
    rw [rename_record, depth, depth, depthOfFields_eq, depthOfFields_eq, Entries.values_map]
    exact depthOfItems_map ih

section
variable {image : String → String} {among : String → Prop}

/-- Matching the tree with its copy takes one comparison for each node. -/
def Straight (image : String → String) (among : String → Prop) (tree : Tree) : Prop :=
  ∀ start : Bindings, start.Follows image among → ∃ reached,
    tree.matchFreely (tree.rename image) start = ⟨some reached, tree.size⟩ ∧
      reached.Follows image among

theorem along_straight {items : List Tree} {start : Bindings}
    (each : ∀ item ∈ items, Straight image among item) (follows : start.Follows image among) :
    ∃ reached, Matching.along matchFreely items (items.map (rename image)) start =
        ⟨some reached, sizeOfItems items⟩ ∧ reached.Follows image among := by
  induction items generalizing start with
  | nil => exact ⟨start, rfl, follows⟩
  | cons item rest ih =>
    obtain ⟨next, here, follows'⟩ := each item List.mem_cons_self start follows
    obtain ⟨reached, later, follows''⟩ :=
      ih (fun other mem => each other (List.mem_cons_of_mem _ mem)) follows'
    refine ⟨reached, ?_, follows''⟩
    rw [List.map_cons, Matching.along, here]
    change Counted.mk (Matching.along matchFreely rest (rest.map (rename image)) next).value
      (item.size + (Matching.along matchFreely rest (rest.map (rename image)) next).steps) = _
    rw [later, sizeOfItems]

theorem matchFreely_copy (kinds : ∀ text, among text → IdKind.of? (image text) = IdKind.of? text)
    (injective : ∀ a, among a → ∀ b, among b → image a = image b → a = b) {tree : Tree}
    (inside : ∀ text, tree.Mentions text → among text) : Straight image among tree := by
  induction tree with
  | identifier text kind known =>
    intro start follows
    have mem := inside text ((mentions_str known).2 rfl)
    obtain ⟨reached, bound, follows'⟩ := follows.bind injective mem
    refine ⟨reached, ?_, follows'⟩
    have success : (str text).match? (str (image text)) start = some reached := by
      rw [match?_identifier known, if_pos ((kinds text mem).trans known), bound]
      rfl
    rw [rename_str known]
    exact congrArg (Counted.mk · 1) success
  | plain value plain =>
    intro start follows
    have success : (scalar value).match? (scalar value) start = some start := by
      rw [match?_plain plain, if_pos rfl]
    rw [rename_plain plain]
    exact ⟨start, congrArg (Counted.mk · 1) success, follows⟩
  | sequence items ih =>
    intro start follows
    have straight (item : Tree) (mem : item ∈ items) : Straight image among item :=
      ih item mem fun text mentioned => inside text (mentions_sequence.2 ⟨item, mem, mentioned⟩)
    obtain ⟨reached, pass, follows'⟩ := along_straight straight follows
    refine ⟨reached, ?_, follows'⟩
    rw [rename_sequence, matchFreely_sequence, Matching.find?_eq_along (congrArg (·.value) pass),
      pass]
    rfl
  | record fields ih =>
    intro start follows
    have straight (value : Tree) (mem : value ∈ fields.values) : Straight image among value :=
      ih value mem fun text mentioned => inside text (mentions_record.2 ⟨value, mem, mentioned⟩)
    obtain ⟨reached, pass, follows'⟩ := along_straight straight follows
    refine ⟨reached, ?_, follows'⟩
    have names : (fields.map (rename image)).names = fields.names := Entries.names_map _ _
    have sizes : fields.length = (fields.map (rename image)).length := by
      rw [← Entries.length_names, ← names, Entries.length_names]
    rw [rename_record, matchFreely, if_pos sizes,
      matchFieldsFreely_eq_along (names ▸ Entries.get?_values (fields.map (rename image))),
      Entries.values_map, pass, size, sizeOfFields_eq]
    rfl

end

/-- Comparisons with the other tree take one step for each node, and find the table of the
renaming. -/
def Recognizes (tree : Tree) (image : String → String) (other : Tree) : Prop :=
  ∃ bindings : Bindings, bindings.OneToOne ∧
    bindings.toList = tree.identifiers.names.map (fun text => (text, image text)) ∧
    tree.bindings? other = some bindings ∧
    ∀ depthLimit stepLimit, tree.depth ≤ depthLimit →
      tree.bindingsWithin ⟨some depthLimit, some stepLimit⟩ other =
        if stepLimit < tree.size then .error (.tooComplex stepLimit) else .ok (some bindings)

theorem recognizes_copy {tree : Tree} {image : String → String}
    (iso : Isomorphism image tree (tree.rename image)) :
    tree.Recognizes image (tree.rename image) := by
  obtain ⟨bindings, pass, follows⟩ := matchFreely_copy iso.keeps iso.separates
    (fun _ mentioned => mentioned) .empty (Bindings.follows_empty image _)
  have counts : tree.counts = (tree.rename image).counts := iso.census_eq
  have effort : tree.effort (tree.rename image) = tree.size := by
    rw [effort, if_pos counts, pass]
  have verdict : tree.verdict? (tree.rename image) = some bindings := by
    rw [verdict?, if_pos counts, pass]
  have success : tree.match? (tree.rename image) .empty = some bindings := congrArg (·.value) pass
  refine ⟨bindings, follows.oneToOne, toList_of_follows success follows,
    by rw [bindings?_eq, verdict], ?_⟩
  intro depthLimit stepLimit shallow
  rw [bindingsWithin_some, depth_rename, Nat.max_self, if_neg (Nat.not_lt.2 shallow), effort,
    verdict]

/-- **Renamed copies are recognized without backtracking.** A tree is compared with a copy whose
identifiers are renamed one to one, each to one of its kind, in exactly as many steps as it has
nodes, and the bindings found are the renaming. In particular every tree is isomorphic to itself, by
the identity. -/
theorem copies_recognized (tree : Tree) :
    (∀ image : String → String,
      (∀ text ∈ tree.identifiers.names, IdKind.of? (image text) = IdKind.of? text) →
      (∀ a ∈ tree.identifiers.names, ∀ b ∈ tree.identifiers.names, image a = image b → a = b) →
      tree.Recognizes image (tree.rename image)) ∧
    tree.Recognizes id tree ∧ tree.isomorphic tree = true := by
  have unchanged : tree.rename id = tree := rename_eq_self fun _ _ => rfl
  have itself : tree.Recognizes id tree := by
    have copy := recognizes_copy (unchanged.symm ▸ Isomorphism.refl tree : Isomorphism id tree _)
    rwa [unchanged] at copy
  refine ⟨fun image kinds injective => recognizes_copy ⟨kinds, injective, .refl _⟩, itself, ?_⟩
  obtain ⟨bindings, _, _, found, _⟩ := itself
  rw [isomorphic, found, Option.isSome_some]

/-- The variables `?x` and `?y` for each other. -/
def swap (text : String) : String :=
  if text = "?x" then "?y" else if text = "?y" then "?x" else text

/-- Elements that repeat, one of them a sequence. -/
def nested : Tree :=
  .sequence [.str "?x", .str "?x", .sequence [.str "?y", .scalar .null, .str "?x"]]

theorem copies_recognized_swap :
    (∀ text ∈ nested.identifiers.names, IdKind.of? (swap text) = IdKind.of? text) ∧
      (∀ a ∈ nested.identifiers.names, ∀ b ∈ nested.identifiers.names, swap a = swap b → a = b) ∧
      nested.Recognizes swap (nested.rename swap) := by
  have kinds : ∀ text ∈ nested.identifiers.names, IdKind.of? (swap text) = IdKind.of? text := by
    decide
  have injective : ∀ a ∈ nested.identifiers.names, ∀ b ∈ nested.identifiers.names,
      swap a = swap b → a = b := by
    decide
  exact ⟨kinds, injective, (copies_recognized nested).1 swap kinds injective⟩

end Tree

end QueryIso
