/-!
# Perfect matchings

`Matching.find?` pairs the elements of two lists one to one so that every pair is compatible. What a
pair requires is kept in a state, which every branch of the search has for itself. Expected elements
are paired in order, each with the first free candidate that leads to a matching, so the matching
found is the first one in lexicographic order of the candidates' positions.

The test of a pair may have effects, and so may abandoning a candidate; the effects of abandoned
branches remain. A test that fails in the monad ends the search.
-/

namespace QueryIso

namespace Matching

variable {m : Type → Type} [Monad m] {E A S : Type}

/-- Tries candidates in order until an attempt finds something. An attempt sees its candidate, those
before it, the last one first, and those after it. -/
@[specialize]
def tryEach (attempt : A × Nat → List (A × Nat) → List (A × Nat) → m (Option S)) :
    List (A × Nat) → List (A × Nat) → m (Option S)
  | _, [] => pure none
  | before, candidate :: after => do
    match ← attempt candidate before after with
    | some found => pure (some found)
    | none => tryEach attempt (candidate :: before) after

/-- Pairs the expected elements with free candidates, which come with their positions. `abandon`
hears the position of an accepted candidate that led to no matching, and the number of elements
after its own. -/
@[specialize]
def extend (compatible : E → A → S → m (Option S)) (abandon : Nat → Nat → m Unit) :
    List E → List (A × Nat) → S → m (Option S)
  | [], _, state => pure (some state)
  | element :: rest, free, state =>
    tryEach (fun candidate before after => do
      match ← compatible element candidate.1 state with
      | none => pure none
      | some reached =>
        match ← extend compatible abandon rest (before.reverseAux after) reached with
        | some found => pure (some found)
        | none => do
          abandon candidate.2 rest.length
          pure none) [] free

/-- The state along the first perfect matching, if there is one. -/
@[specialize]
def find? (compatible : E → A → S → m (Option S)) (abandon : Nat → Nat → m Unit)
    (expected : List E) (actual : List A) (state : S) : m (Option S) :=
  if expected.length = actual.length then extend compatible abandon expected actual.zipIdx state
  else pure none

end Matching

end QueryIso
