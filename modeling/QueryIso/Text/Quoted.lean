import QueryIso.Text.ExtendingMark
import QueryIso.Text.Unprintable

/-!
# Quoted text

A string between double quotes, in which every character can be seen: quotes, backslashes and the
common controls are written with a backslash, and what has no printed form of its own as its code
point in hexadecimal, as in `\u{301}`. Single quotes stay as they are.
-/

namespace QueryIso

namespace Text

/-- Whether a character has a printed form of its own, apart from the one before it. Among the ASCII
characters these are the ones from the space to the tilde; the tables decide on the others. -/
def isShown (c : Char) : Bool :=
  if c.toNat < 0x7F then 0x20 ≤ c.toNat
  else !isUnprintable c.toNat && !isExtendingMark c.toNat

/-- A character as it is written between quotes. -/
def escape (c : Char) : List Char :=
  match c with
  | '"' => ['\\', '"']
  | '\\' => ['\\', '\\']
  | '\n' => ['\\', 'n']
  | '\r' => ['\\', 'r']
  | '\t' => ['\\', 't']
  | '\x00' => ['\\', '0']
  | _ =>
    if isShown c then [c]
    else '\\' :: 'u' :: '\x7b' :: (Nat.toDigits 16 c.toNat ++ ['\x7d'])

/-- A string between quotes. -/
def quoted (text : String) : List Char :=
  '"' :: (text.toList.flatMap escape ++ ['"'])

end Text

end QueryIso
