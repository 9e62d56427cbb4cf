import QueryIso.Proofs.Text.Apart
import QueryIso.Text.Integer
import QueryIso.Text.Quoted

/-!
# Quoted texts tell strings apart

Every character between quotes is read back, however it is written, and none is written as a quote
alone, so that the first such quote ends the string.

* `Text.readsBack_escape`: a written character is read as itself, whatever follows;
* `Text.tellsApart_quoted`: quoted texts tell strings apart, whatever follows.
-/

namespace QueryIso

namespace Text

/-! ## Hexadecimal digits -/

theorem hexDigit?_digitChar : ∀ digit < 16, hexDigit? (Nat.digitChar digit) = some digit := by
  decide

/-- The number of hexadecimal digits. -/
def ofHexadecimal (digits : List Char) : Nat :=
  digits.foldl (fun number c => 16 * number + (hexDigit? c).getD 0) 0

theorem ofHexadecimal_toDigits (n : Nat) : ofHexadecimal (Nat.toDigits 16 n) = n := by
  induction n using Nat.strongRecOn with
  | ind n ih =>
    rw [Nat.toDigits_eq_if (by decide)]
    split
    · simp [ofHexadecimal, hexDigit?_digitChar n ‹_›]
    · have higher : ofHexadecimal (Nat.toDigits 16 (n / 16)) = n / 16 := ih _ (by omega)
      have lowest := hexDigit?_digitChar (n % 16) (Nat.mod_lt _ (by decide))
      rw [ofHexadecimal] at higher ⊢
      simp only [List.foldl_append, higher, List.foldl_cons, List.foldl_nil, lowest,
        Option.getD_some]
      exact Nat.div_add_mod n 16

theorem isSome_hexDigit?_of_mem_toDigits {n : Nat} :
    ∀ c ∈ Nat.toDigits 16 n, (hexDigit? c).isSome := by
  induction n using Nat.strongRecOn with
  | ind n ih =>
    rw [Nat.toDigits_eq_if (by decide)]
    split
    · simp [hexDigit?_digitChar n ‹_›]
    · have lowest := hexDigit?_digitChar (n % 16) (Nat.mod_lt _ (by decide))
      exact List.forall_mem_append.2 ⟨ih (n / 16) (by omega), by simp [lowest]⟩

/-! ## Characters -/

/-- The character that a letter after a backslash stands for. -/
def unescape? : Char → Option Char
  | '"' => some '"'
  | '\\' => some '\\'
  | 'n' => some '\n'
  | 'r' => some '\r'
  | 't' => some '\t'
  | '0' => some '\x00'
  | _ => none

/-- Reads a character as it is written between quotes. -/
def character? : List Char → Option (Char × List Char)
  | [] => none
  | '"' :: _ => none
  | '\\' :: 'u' :: '\x7b' :: cs =>
    some (Char.ofNat (ofHexadecimal (cs.takeWhile (· ≠ '\x7d'))), (cs.dropWhile (· ≠ '\x7d')).tail)
  | '\\' :: letter :: cs => (unescape? letter).map fun c => (c, cs)
  | c :: cs => some (c, cs)

theorem character?_codePoint (c : Char) (rest : List Char) :
    character? ('\\' :: 'u' :: '\x7b' :: (Nat.toDigits 16 c.toNat ++ '\x7d' :: rest)) =
      some (c, rest) := by
  have inside : ∀ digit ∈ Nat.toDigits 16 c.toNat, decide (digit ≠ '\x7d') = true := by
    rintro _ mem
    refine decide_eq_true fun brace => ?_
    cases brace ▸ isSome_hexDigit?_of_mem_toDigits _ mem
  have stop : ∀ brace ∈ ('\x7d' :: rest).head?, decide (brace ≠ '\x7d') = false := by
    rintro _ ⟨⟩
    rfl
  obtain ⟨taken, left⟩ := span_append inside stop
  rw [character?, taken, left, ofHexadecimal_toDigits, Char.ofNat_toNat, List.tail_cons]

theorem character?_shown {c : Char} (quote : c ≠ '"') (backslash : c ≠ '\\') (rest : List Char) :
    character? (c :: rest) = some (c, rest) := by
  rw [character?]
  · exact quote
  · exact fun _ same _ => backslash same
  · exact fun _ _ same _ => backslash same

/-- A written character is read as itself. -/
theorem readsBack_escape (c : Char) : ReadsBack (fun _ => True) character? escape c := by
  intro rest _
  unfold escape
  split
  iterate 6 rfl
  · split
    · exact character?_shown ‹_› ‹_› rest
    · simpa using character?_codePoint c rest

/-- Quoted texts tell strings apart, whatever follows. -/
theorem tellsApart_quoted (a b : String) :
    TellsApart (fun _ => True) (fun text rest => quoted text ++ rest) a b := by
  intro rest rest' _ _ same
  have inside :
      a.toList.flatMap escape ++ '"' :: rest = b.toList.flatMap escape ++ '"' :: rest' := by
    simpa [quoted] using same
  have apart : TellsApart (fun rest => True ∧ character? rest = none)
      (fun cs rest => cs.flatMap escape ++ rest) a.toList b.toList :=
    tellsApart_flatMap (fun c _ => readsBack_escape c) (fun c _ => readsBack_escape c)
      fun _ _ _ => trivial
  obtain ⟨text, quotes⟩ := apart _ _ ⟨trivial, rfl⟩ ⟨trivial, rfl⟩ inside
  exact ⟨String.toList_inj.1 text, (List.cons.inj quotes).2⟩

end Text

end QueryIso
