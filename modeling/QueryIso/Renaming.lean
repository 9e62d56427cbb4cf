import QueryIso.Tree

/-!
# Renaming identifiers

`Tree.mapIdentifiersM` replaces every occurrence of an identifier by what a function answers for its
kind and text. The function is asked once per occurrence, in document order: elements in order,
fields in name order. It may have effects; `Tree.mapIdentifiers` is the case without.

`Tree.identifiers` holds the distinct identifiers of a tree, each with its kind.
-/

namespace QueryIso

namespace Tree

mutual

/-- Replaces every occurrence of an identifier, in document order. -/
def mapIdentifiersM {m : Type → Type} [Monad m] (f : IdKind → String → m String) : Tree → m Tree
  | .scalar (.str text) =>
    match IdKind.of? text with
    | some kind => return .scalar (.str (← f kind text))
    | none => return .scalar (.str text)
  | .scalar value => return .scalar value
  | .sequence items => return .sequence (← mapItemsM f items)
  | .record fields => return .record (← mapFieldsM f fields)

/-- Replaces the identifiers of elements. -/
def mapItemsM {m : Type → Type} [Monad m] (f : IdKind → String → m String) :
    List Tree → m (List Tree)
  | [] => return []
  | item :: rest => return (← item.mapIdentifiersM f) :: (← mapItemsM f rest)

/-- Replaces the identifiers of fields. -/
def mapFieldsM {m : Type → Type} [Monad m] (f : IdKind → String → m String)
    {bound : Option String} : Entries Tree bound → m (Entries Tree bound)
  | .nil => return .nil
  | .cons name above value rest =>
    return .cons name above (← value.mapIdentifiersM f) (← mapFieldsM f rest)

end

/-- Replaces every identifier by its image. -/
def mapIdentifiers (f : IdKind → String → String) (tree : Tree) : Tree :=
  (tree.mapIdentifiersM fun kind text => pure (f kind text) : Id Tree).run

mutual

/-- The occurrences of identifiers in document order, each with its kind. -/
def occurrences : Tree → List (String × IdKind)
  | .scalar (.str text) =>
    match IdKind.of? text with
    | some kind => [(text, kind)]
    | none => []
  | .scalar _ => []
  | .sequence items => occurrencesInItems items
  | .record fields => occurrencesInFields fields

/-- The occurrences of identifiers in elements. -/
def occurrencesInItems : List Tree → List (String × IdKind)
  | [] => []
  | item :: rest => item.occurrences ++ occurrencesInItems rest

/-- The occurrences of identifiers in fields. -/
def occurrencesInFields {bound : Option String} : Entries Tree bound → List (String × IdKind)
  | .nil => []
  | .cons _ _ value rest => value.occurrences ++ occurrencesInFields rest

end

/-- The distinct identifiers in order, each with its kind. -/
def identifiers (tree : Tree) : Dict IdKind :=
  Dict.ofList tree.occurrences

end Tree

end QueryIso
