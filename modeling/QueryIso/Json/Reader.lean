import QueryIso.Json.Document
import QueryIso.Text.Integer

/-!
# Documents of JSON texts

Each reader takes the characters from its value on and returns the value with what follows it, or
nothing if the text is not JSON. Blanks are the space, the tab, the line feed and the carriage
return. At most 127 arrays and objects may be open at once.
-/

namespace QueryIso

namespace Json

/-- Whether a character may stand between the parts of a text. -/
def isBlank (c : Char) : Bool :=
  c = ' ' ∨ c = '\t' ∨ c = '\n' ∨ c = '\r'

/-- The text from its first part on. -/
def skipBlanks (cs : List Char) : List Char :=
  cs.dropWhile isBlank

open Text (hexDigit?)

/-! ## Strings -/

/-- The code unit of four hexadecimal digits. -/
def codeUnit? (a b c d : Char) : Option Nat := do
  return (((← hexDigit? a) * 16 + (← hexDigit? b)) * 16 + (← hexDigit? c)) * 16 + (← hexDigit? d)

/-- Whether a code unit is the first of a pair. -/
def isLeading (unit : Nat) : Bool :=
  0xD800 ≤ unit ∧ unit < 0xDC00

/-- Whether a code unit is the second of a pair. -/
def isTrailing (unit : Nat) : Bool :=
  0xDC00 ≤ unit ∧ unit < 0xE000

/-- The character of a pair of code units. -/
def ofPair (leading trailing : Nat) : Char :=
  Char.ofNat (0x10000 + (leading - 0xD800) * 0x400 + (trailing - 0xDC00))

/-- The character that a letter after a backslash stands for. -/
def unescape? : Char → Option Char
  | '"' => some '"'
  | '\\' => some '\\'
  | '/' => some '/'
  | 'b' => some '\x08'
  | 'f' => some '\x0c'
  | 'n' => some '\n'
  | 'r' => some '\r'
  | 't' => some '\t'
  | _ => none

/-- Reads the rest of a string up to its closing quote. Controls have to be escaped, and code units
of a pair have to stand in pairs. -/
def stringChars : List Char → Option (List Char × List Char)
  | '"' :: rest => some ([], rest)
  | '\\' :: 'u' :: a :: b :: c :: d :: rest => do
    let unit ← codeUnit? a b c d
    if isLeading unit then
      match rest with
      | '\\' :: 'u' :: e :: f :: g :: h :: rest => do
        let second ← codeUnit? e f g h
        if isTrailing second then
          let (text, rest) ← stringChars rest
          return (ofPair unit second :: text, rest)
        else none
      | _ => none
    else if isTrailing unit then none
    else
      let (text, rest) ← stringChars rest
      return (Char.ofNat unit :: text, rest)
  | '\\' :: letter :: rest => do
    let c ← unescape? letter
    let (text, rest) ← stringChars rest
    return (c :: text, rest)
  | c :: rest =>
    if c.toNat < 0x20 then none
    else do
      let (text, rest) ← stringChars rest
      return (c :: text, rest)
  | [] => none

/-! ## Numbers -/

/-- Reads digits, at least one. -/
def digits (cs : List Char) : Option (Digits × List Char) :=
  if cs.takeWhile Char.isDigit = [] then none
  else some (⟨cs.takeWhile Char.isDigit, List.all_eq_true.1 List.all_takeWhile⟩,
    cs.dropWhile Char.isDigit)

/-- Reads the part of a number before its point: one zero, or digits that start with another. -/
def wholePart (cs : List Char) : Option (Nat × List Char) := do
  let (whole, rest) ← digits cs
  if whole.val.head? = some '0' ∧ whole.val.length ≠ 1 then none
  else return (Nat.ofDigitChars 10 whole.val 0, rest)

/-- Reads the point of a number and the digits after it, if there is a point. -/
def fractionPart : List Char → Option (Digits × List Char)
  | '.' :: cs => digits cs
  | cs => some (.empty, cs)

/-- Reads the exponent of a number, if there is one. -/
def exponentPart : List Char → Option (Option Int × List Char)
  | [] => some (none, [])
  | e :: cs =>
    if e = 'e' ∨ e = 'E' then do
      let (negative, cs) := match cs with
        | '-' :: cs => (true, cs)
        | '+' :: cs => (false, cs)
        | cs => (false, cs)
      let (read, rest) ← digits cs
      let size : Int := Nat.ofDigitChars 10 read.val 0
      return (some (if negative then -size else size), rest)
    else some (none, e :: cs)

/-- Reads a number after its sign. -/
def unsigned (negative : Bool) (cs : List Char) : Option (Numeral × List Char) := do
  let (whole, cs) ← wholePart cs
  let (fraction, cs) ← fractionPart cs
  let (exponent, cs) ← exponentPart cs
  return (⟨negative, whole, fraction, exponent⟩, cs)

/-- Reads a number. -/
def number : List Char → Option (Numeral × List Char)
  | '-' :: cs => unsigned true cs
  | cs => unsigned false cs

/-! ## Values -/

/-- Reads a value that is neither an array nor an object. -/
def scalar : List Char → Option (Document × List Char)
  | 'n' :: 'u' :: 'l' :: 'l' :: rest => some (.null, rest)
  | 't' :: 'r' :: 'u' :: 'e' :: rest => some (.bool true, rest)
  | 'f' :: 'a' :: 'l' :: 's' :: 'e' :: rest => some (.bool false, rest)
  | '"' :: rest => do
    let (text, rest) ← stringChars rest
    return (.string (String.ofList text), rest)
  | cs => do
    let (numeral, rest) ← number cs
    return (.number numeral, rest)

/-- Reads what `item` reads, once or more, with commas between, up to a closing bracket. The fuel
is a bound on the number of items. -/
def itemsUpTo {α : Type} (close : Char) (item : List Char → Option (α × List Char)) :
    Nat → List Char → Option (List α × List Char)
  | 0, _ => none
  | fuel + 1, cs => do
    let (first, rest) ← item cs
    match skipBlanks rest with
    | [] => none
    | c :: rest =>
      if c = close then return ([first], rest)
      else if c = ',' then
        let (others, rest) ← itemsUpTo close item fuel rest
        return (first :: others, rest)
      else none

/-- Reads the rest of an array or object after its opening bracket. No item is shorter than one
character, so the text has no more items than characters. -/
def bracketed {α : Type} (close : Char) (item : List Char → Option (α × List Char))
    (cs : List Char) : Option (List α × List Char) :=
  match skipBlanks cs with
  | [] => none
  | c :: rest => if c = close then some ([], rest) else itemsUpTo close item rest.length (c :: rest)

/-- Reads a name and its value. -/
def member (value : List Char → Option (Document × List Char)) (cs : List Char) :
    Option ((String × Document) × List Char) :=
  match skipBlanks cs with
  | '"' :: rest => do
    let (name, rest) ← stringChars rest
    match skipBlanks rest with
    | ':' :: rest => do
      let (document, rest) ← value rest
      return ((String.ofList name, document), rest)
    | _ => none
  | _ => none

/-- Reads a value in which at most `depth` arrays and objects are open at once. -/
def value : Nat → List Char → Option (Document × List Char)
  | 0, cs => scalar (skipBlanks cs)
  | depth + 1, cs =>
    match skipBlanks cs with
    | '[' :: rest => do
      let (items, rest) ← bracketed ']' (value depth) rest
      return (.array items, rest)
    | '{' :: rest => do
      let (members, rest) ← bracketed '}' (member (value depth)) rest
      return (.object members, rest)
    | cs => scalar cs

/-- How many arrays and objects may be open at once. -/
def maxDepth : Nat :=
  127

/-- The document of a text. Only blanks may follow it. -/
def Document.parse (text : String) : Option Document := do
  let (document, rest) ← value maxDepth text.toList
  if skipBlanks rest = [] then return document else none

end Json

end QueryIso
