/-!
# Identifiers

Strings that only name something within a tree, and may therefore be renamed: blank nodes, written
`_:label`, and variables, written `?name`. What follows the marker may be empty.
-/

namespace QueryIso

/-- The kinds of identifiers. One of a kind can only be renamed into one of the same kind. -/
inductive IdKind
  | blankNode
  | var
  deriving DecidableEq

namespace IdKind

/-- How an identifier of this kind starts. -/
def marker : IdKind → String
  | blankNode => "_:"
  | var => "?"

/-- The kind of a string, if it is an identifier. -/
def of? (text : String) : Option IdKind :=
  match text.toList with
  | '_' :: ':' :: _ => some blankNode
  | '?' :: _ => some var
  | _ => none

/-- The name of the kind. -/
def text : IdKind → String
  | blankNode => "blank node"
  | var => "variable"

theorem of?_marker (kind : IdKind) : of? kind.marker = some kind := by
  cases kind <;> decide

end IdKind

end QueryIso
