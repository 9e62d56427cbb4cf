import Mathlib.Data.List.Nodup

/-!
# The walk of a search

A branch lists the positions of the candidates that the first elements are paired with. The walk of
a search holds the branches that it visits if nothing stops it: the empty branch first, and after
every accepted one those that go on from it.

* `Matching.sorted_walk`: the walk goes through its branches in lexicographic order, each once;
* `Matching.mem_walk_iff`: it visits a branch exactly if that uses free positions, none of them
  twice, and is accepted up to its last one;
* `Matching.upTo`: what is visited if the walk ends at the first branch that stops it.
-/

namespace QueryIso

namespace Matching

/-- The state that a verdict leaves, if it is positive. -/
def answer {S : Type} (verdict : Bool × S) : Option S :=
  if verdict.1 then some verdict.2 else none

section
variable {E A S : Type} (accept : E → A → S → Option S) (actual : List A)

/-- The state after pairing an element with the candidate at a position, if that is accepted. -/
def step? (element : E) (state : S) (position : Nat) : Option S :=
  actual[position]?.bind fun candidate => accept element candidate state

/-- The state along a branch, which pairs the first elements with the candidates at its positions,
if all these pairs are accepted. -/
def reached? : List E → S → List Nat → Option S
  | _, state, [] => some state
  | element :: rest, state, position :: branch =>
    (step? accept actual element state position).bind fun reached => reached? rest reached branch
  | [], _, _ :: _ => none

/-- The branches that a search visits if nothing stops it, in order. -/
def walk : List E → List Nat → S → List (List Nat)
  | [], _, _ => [[]]
  | element :: rest, free, state =>
    [] :: free.flatMap fun position =>
      (match step? accept actual element state position with
        | some reached => walk rest (free.erase position) reached
        | none => [[]]).map (position :: ·)

/-- The branch uses free positions, none of them twice, for some of the elements, and is accepted up
to its last position. -/
structure Tried (expected : List E) (free : List Nat) (state : S) (branch : List Nat) : Prop where
  distinct : branch.Nodup
  inside : ∀ position ∈ branch, position ∈ free
  fits : branch.length ≤ expected.length
  opened : ∃ reached, reached? accept actual expected state branch.dropLast = some reached

end

section
variable {E A S : Type} {accept : E → A → S → Option S} {actual : List A} {element : E}
  {rest expected : List E} {free branch : List Nat} {state final : S} {position : Nat}

theorem reached?_nil : reached? accept actual expected state [] = some state := by
  cases expected <;> rfl

theorem reached?_cons : reached? accept actual (element :: rest) state (position :: branch) =
    (step? accept actual element state position).bind fun reached =>
      reached? accept actual rest reached branch :=
  rfl

theorem length_le_of_reached? (accepted : reached? accept actual expected state branch = some final) :
    branch.length ≤ expected.length := by
  induction branch generalizing expected state with
  | nil => exact Nat.zero_le _
  | cons position branch ih =>
    cases expected with
    | nil => cases accepted
    | cons element rest =>
      rw [reached?_cons, Option.bind_eq_some_iff] at accepted
      obtain ⟨_, _, later⟩ := accepted
      exact Nat.succ_le_succ (ih later)

/-- What is accepted is accepted up to its last position. -/
theorem exists_reached?_dropLast
    (accepted : reached? accept actual expected state branch = some final) :
    ∃ reached, reached? accept actual expected state branch.dropLast = some reached := by
  induction branch generalizing expected state with
  | nil => exact ⟨final, accepted⟩
  | cons position branch ih =>
    cases expected with
    | nil => cases accepted
    | cons element rest =>
      rcases eq_or_ne branch [] with rfl | nonempty
      · exact ⟨state, reached?_nil⟩
      · rw [reached?_cons, Option.bind_eq_some_iff] at accepted
        obtain ⟨next, stepped, later⟩ := accepted
        obtain ⟨reached, earlier⟩ := ih later
        refine ⟨reached, ?_⟩
        rw [List.dropLast_cons_of_ne_nil nonempty, reached?_cons, stepped, Option.bind_some, earlier]

/-- The walk starts with the empty branch and never comes back to it. -/
theorem exists_walk_eq (accept : E → A → S → Option S) (actual : List A) (expected : List E)
    (free : List Nat) (state : S) :
    ∃ later, walk accept actual expected free state = [] :: later ∧ [] ∉ later := by
  cases expected with
  | nil => exact ⟨[], rfl, List.not_mem_nil⟩
  | cons element rest =>
    refine ⟨_, rfl, fun again => ?_⟩
    obtain ⟨_, _, again⟩ := List.mem_flatMap.1 again
    obtain ⟨_, _, impossible⟩ := List.mem_map.1 again
    cases impossible

theorem mem_walk_cons : branch ∈ walk accept actual (element :: rest) free state ↔
    branch = [] ∨ ∃ position ∈ free, ∃ later, branch = position :: later ∧
      (later = [] ∨ ∃ reached, step? accept actual element state position = some reached ∧
        later ∈ walk accept actual rest (free.erase position) reached) := by
  rw [walk, List.mem_cons, List.mem_flatMap]
  refine or_congr_right (exists_congr fun position => and_congr_right fun _ => ?_)
  rw [List.mem_map]
  refine exists_congr fun later => ?_
  rw [and_comm, eq_comm]
  refine and_congr_right fun _ => ?_
  cases step? accept actual element state position with
  | none => simp
  | some reached =>
    obtain ⟨others, same, _⟩ := exists_walk_eq accept actual rest (free.erase position) reached
    simp only [Option.some.injEq, exists_eq_left', same, List.mem_cons]
    constructor
    · exact .inr
    · rintro (rfl | mem)
      · exact .inl rfl
      · exact mem

/-- The walk visits its branches in lexicographic order, each once. -/
theorem sorted_walk (sorted : free.Pairwise (· < ·)) :
    (walk accept actual expected free state).Pairwise (· < ·) := by
  induction expected generalizing free state with
  | nil => exact List.pairwise_singleton _ _
  | cons element rest ih =>
    rw [walk, List.pairwise_cons, List.pairwise_flatMap]
    refine ⟨?_, ?_, ?_⟩
    · intro branch mem
      obtain ⟨position, _, mem⟩ := List.mem_flatMap.1 mem
      obtain ⟨later, _, rfl⟩ := List.mem_map.1 mem
      exact List.nil_lt_cons _ _
    · intro position _
      have extended : ∀ later other : List Nat,
          later < other → position :: later < position :: other :=
        fun _ _ less => List.cons_lt_cons_iff.2 (.inr ⟨rfl, less⟩)
      rw [List.pairwise_map]
      refine List.Pairwise.imp (extended _ _) ?_
      split
      · exact ih (sorted.sublist List.erase_sublist)
      · exact List.pairwise_singleton _ _
    · apply sorted.imp
      intro first second less branch mem branch' mem'
      obtain ⟨later, _, rfl⟩ := List.mem_map.1 mem
      obtain ⟨later', _, rfl⟩ := List.mem_map.1 mem'
      exact List.cons_lt_cons_iff.2 (.inl less)

theorem tried_nil : Tried accept actual expected free state [] :=
  ⟨List.nodup_nil, nofun, Nat.zero_le _, state, reached?_nil⟩

/-- A longer branch is tried if its first pair is accepted and the rest of it is tried without that
position. -/
theorem tried_cons (distinct : free.Nodup) :
    Tried accept actual (element :: rest) free state (position :: branch) ↔
      position ∈ free ∧ (branch = [] ∨
        ∃ reached, step? accept actual element state position = some reached ∧
          Tried accept actual rest (free.erase position) reached branch) := by
  constructor
  · rintro ⟨nodup, inside, fits, last, opened⟩
    rw [List.nodup_cons] at nodup
    refine ⟨inside position List.mem_cons_self, ?_⟩
    rcases eq_or_ne branch [] with rfl | nonempty
    · exact .inl rfl
    · rw [List.dropLast_cons_of_ne_nil nonempty, reached?_cons, Option.bind_eq_some_iff] at opened
      obtain ⟨reached, stepped, opened⟩ := opened
      refine .inr ⟨reached, stepped, nodup.2, ?_, Nat.le_of_succ_le_succ fits, last, opened⟩
      intro other mem
      rw [distinct.mem_erase_iff]
      exact ⟨fun same => nodup.1 (same ▸ mem), inside other (List.mem_cons_of_mem _ mem)⟩
  · rintro ⟨mem, rfl | ⟨reached, stepped, nodup, inside, fits, last, opened⟩⟩
    · refine ⟨List.nodup_singleton _, ?_, Nat.succ_le_succ (Nat.zero_le _), state, reached?_nil⟩
      simpa using mem
    · refine ⟨?_, ?_, Nat.succ_le_succ fits, ?_⟩
      · rw [List.nodup_cons]
        exact ⟨fun again => (distinct.mem_erase_iff.1 (inside position again)).1 rfl, nodup⟩
      · intro other again
        rcases List.mem_cons.1 again with rfl | later
        · exact mem
        · exact List.mem_of_mem_erase (inside other later)
      · rcases eq_or_ne branch [] with rfl | nonempty
        · exact ⟨state, reached?_nil⟩
        · refine ⟨last, ?_⟩
          rw [List.dropLast_cons_of_ne_nil nonempty, reached?_cons, stepped, Option.bind_some,
            opened]

/-- The walk visits the branches that are tried, and no others. -/
theorem mem_walk_iff (distinct : free.Nodup) :
    branch ∈ walk accept actual expected free state ↔
      Tried accept actual expected free state branch := by
  induction expected generalizing free state branch with
  | nil =>
    rw [walk, List.mem_singleton]
    constructor
    · rintro rfl
      exact tried_nil
    · intro tried
      exact List.length_eq_zero_iff.1 (Nat.le_zero.1 tried.fits)
  | cons element rest ih =>
    rw [mem_walk_cons]
    cases branch with
    | nil => exact iff_of_true (.inl rfl) tried_nil
    | cons position later =>
      rw [tried_cons distinct]
      simp only [ih (distinct.erase _), List.cons.injEq, reduceCtorEq, false_or]
      constructor
      · rintro ⟨_, mem, _, ⟨rfl, rfl⟩, tried⟩
        exact ⟨mem, tried⟩
      · rintro ⟨mem, tried⟩
        exact ⟨position, mem, later, ⟨rfl, rfl⟩, tried⟩

end

/-! ## Up to a stop -/

section
variable {α β γ : Type}

/-- A list up to the first element that has an answer, that one included. -/
def upTo (stop? : α → Option β) : List α → List α
  | [] => []
  | first :: rest => if (stop? first).isSome then [first] else first :: upTo stop? rest

variable {stop? : α → Option β} {first : List α}

theorem sublist_upTo (stop? : α → Option β) (list : List α) : (upTo stop? list).Sublist list := by
  induction list with
  | nil => exact .slnil
  | cons first rest ih =>
    rw [upTo]
    split
    · exact (List.nil_sublist rest).cons_cons first
    · exact ih.cons_cons first

theorem upTo_map (f : γ → α) (list : List γ) :
    upTo stop? (list.map f) = (upTo (stop? ∘ f) list).map f := by
  induction list with
  | nil => rfl
  | cons first rest ih =>
    simp only [List.map_cons, upTo, Function.comp_apply]
    split
    · rfl
    · rw [List.map_cons, ih]

theorem upTo_append_of_none (quiet : first.findSome? stop? = none) (second : List α) :
    upTo stop? (first ++ second) = first ++ upTo stop? second := by
  induction first with
  | nil => rfl
  | cons here rest ih =>
    rw [List.findSome?_cons] at quiet
    cases stops : stop? here with
    | some found =>
      rw [stops] at quiet
      cases quiet
    | none =>
      rw [stops] at quiet
      rw [List.cons_append, upTo, stops, ih quiet]
      rfl

theorem upTo_of_none (quiet : first.findSome? stop? = none) : upTo stop? first = first := by
  have whole := upTo_append_of_none quiet []
  rwa [List.append_nil, upTo, List.append_nil] at whole

theorem upTo_append_of_some {found : β} (stopped : first.findSome? stop? = some found)
    (second : List α) : upTo stop? (first ++ second) = upTo stop? first := by
  induction first with
  | nil => cases stopped
  | cons here rest ih =>
    rw [List.findSome?_cons] at stopped
    rw [List.cons_append, upTo, upTo]
    cases stops : stop? here with
    | some _ => rfl
    | none =>
      rw [stops] at stopped
      rw [ih stopped]

end

end Matching

end QueryIso
