import QueryIso.Json.Reader
import QueryIso.Json.Writer

/-!
# Strings of JSON texts

A string is read back character by character:

* `stringChars_escape`: a written character is read as itself, whatever follows;
* `stringChars_flatMap`: the reader finds the closing quote of a written string.
-/

namespace QueryIso

namespace Json

/-- A control has an escape of four hexadecimal digits. -/
theorem codeUnit?_control : ∀ n < 0x20,
    codeUnit? '0' '0' (Nat.digitChar (n / 16)) (Nat.digitChar (n % 16)) = some n := by
  decide

theorem stringChars_control {c : Char} (control : c.toNat < 0x20) (rest : List Char) :
    stringChars ('\\' :: 'u' :: '0' :: '0' :: Nat.digitChar (c.toNat / 16) ::
        Nat.digitChar (c.toNat % 16) :: rest) =
      (stringChars rest).map fun read => (c :: read.1, read.2) := by
  have leading : isLeading c.toNat = false := decide_eq_false (by omega)
  have trailing : isTrailing c.toNat = false := decide_eq_false (by omega)
  rw [stringChars, codeUnit?_control _ control]
  simp only [Option.bind_eq_bind, Option.bind_some, leading, trailing, Char.ofNat_toNat]
  cases stringChars rest <;> rfl

theorem stringChars_plain {c : Char} (quote : c ≠ '"') (backslash : c ≠ '\\')
    (plain : ¬ c.toNat < 0x20) (rest : List Char) :
    stringChars (c :: rest) = (stringChars rest).map fun read => (c :: read.1, read.2) := by
  rw [stringChars, if_neg plain]
  · cases stringChars rest <;> rfl
  · exact quote
  · exact fun _ _ _ _ _ same _ => backslash same
  · exact fun _ _ same _ => backslash same

/-- A written character is read as itself. -/
theorem stringChars_escape (c : Char) (rest : List Char) :
    stringChars (escape c ++ rest) =
      (stringChars rest).map fun read => (c :: read.1, read.2) := by
  have letter (letter : Char) (other : letter ≠ 'u') (stands : unescape? letter = some c) :
      stringChars ('\\' :: letter :: rest) =
        (stringChars rest).map fun read => (c :: read.1, read.2) := by
    rw [stringChars, stands]
    · cases stringChars rest <;> rfl
    · exact fun _ _ _ _ _ same _ => other same
  unfold escape
  split
  iterate 7 exact letter _ (by decide) rfl
  · split
    · exact stringChars_control ‹_› rest
    · exact stringChars_plain ‹_› ‹_› ‹_› rest

/-- The reader finds the closing quote of a written string. -/
theorem stringChars_flatMap (text rest : List Char) :
    stringChars (text.flatMap escape ++ '"' :: rest) = some (text, rest) := by
  induction text with
  | nil => rfl
  | cons c text ih => rw [List.flatMap_cons, List.append_assoc, stringChars_escape, ih]; rfl

theorem quoted_append (text : String) (rest : List Char) :
    quoted text ++ rest = '"' :: (text.toList.flatMap escape ++ '"' :: rest) := by
  simp [quoted]

end Json

end QueryIso
