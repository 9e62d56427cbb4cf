import QueryIso.Binary64.Layout
import QueryIso.Json.Reader
import QueryIso.Json.Writer
import QueryIso.Proofs.Binary64.Decimals
import QueryIso.Proofs.Text.Apart

/-!
# Numbers of JSON texts

A written number is read as the same number:

* `number_numeral`: a number that is kept digit by digit is read back digit by digit;
* `number_integer`: an integer is read as that integer;
* `number_chars`: the text of a finite floating point value is read as a number that denotes it,
  because every layout of its digits is read as a decimal number that stands for it.
-/

namespace QueryIso

namespace Json

/-! ## Digits -/

/-- What may follow a value: a blank, a comma or a closing bracket. -/
def Ends (rest : List Char) : Prop :=
  ∀ c ∈ rest.head?, isBlank c ∨ c = ',' ∨ c = ']' ∨ c = '}'

theorem Ends.head {rest : List Char} (ends : Ends rest) :
    ∀ c ∈ rest.head?, c.isDigit = false ∧ c ≠ '.' ∧ c ≠ 'e' ∧ c ≠ 'E' := by
  intro c head
  have := ends c head
  simp only [isBlank, decide_eq_true_eq] at this
  rcases this with (rfl | rfl | rfl | rfl) | rfl | rfl | rfl <;> decide

/-- One digit or more. -/
structure IsNumeral (text : List Char) : Prop where
  nonempty : text ≠ []
  digit : ∀ c ∈ text, c.isDigit

theorem digits_append {text rest : List Char} (numeral : IsNumeral text)
    (stop : ∀ c ∈ rest.head?, c.isDigit = false) :
    digits (text ++ rest) = some (⟨text, numeral.digit⟩, rest) := by
  obtain ⟨taken, left⟩ := Text.span_append numeral.digit stop
  simp only [digits, taken, left, if_neg numeral.nonempty]

theorem wholePart_append {text rest : List Char} (numeral : IsNumeral text)
    (lead : text.head? = some '0' → text.length = 1)
    (stop : ∀ c ∈ rest.head?, c.isDigit = false) :
    wholePart (text ++ rest) = some (Nat.ofDigitChars 10 text 0, rest) := by
  rw [wholePart, digits_append numeral stop]
  simp only [Option.bind_eq_bind, Option.bind_some]
  rw [if_neg fun leading => leading.2 (lead leading.1)]
  rfl

theorem fractionPart_none {rest : List Char} (stop : ∀ c ∈ rest.head?, c ≠ '.') :
    fractionPart rest = some (.empty, rest) := by
  cases rest with
  | nil => rfl
  | cons c rest =>
    rw [fractionPart]
    intro _ same
    exact stop c rfl (List.cons.inj same).1

theorem fractionPart_some {text rest : List Char} (numeral : IsNumeral text)
    (stop : ∀ c ∈ rest.head?, c.isDigit = false) :
    fractionPart ('.' :: (text ++ rest)) = some (⟨text, numeral.digit⟩, rest) := by
  rw [fractionPart, digits_append numeral stop]

theorem exponentPart_none {rest : List Char} (stop : ∀ c ∈ rest.head?, c ≠ 'e' ∧ c ≠ 'E') :
    exponentPart rest = some (none, rest) := by
  cases rest with
  | nil => rfl
  | cons c rest => simp [exponentPart, stop c rfl]

/-! ## The digits of a natural number -/

theorem isNumeral_toDigits (n : Nat) : IsNumeral (Nat.toDigits 10 n) :=
  ⟨Nat.toDigits_ne_nil, fun _ mem => Nat.isDigit_of_mem_toDigits (by decide) (by decide) mem⟩

theorem head?_append_left {cs : List Char} (nonempty : cs ≠ []) (more : List Char) :
    (cs ++ more).head? = cs.head? := by
  rw [List.head?_append, List.head?_eq_some_head nonempty, Option.some_or]

theorem head?_toDigits {n : Nat} (positive : 0 < n) : (Nat.toDigits 10 n).head? ≠ some '0' := by
  induction n using Nat.strongRecOn with
  | ind n ih =>
    rw [Nat.toDigits_eq_if (by decide)]
    split
    · have digit : ∀ digit < 10, 0 < digit → [Nat.digitChar digit].head? ≠ some '0' := by decide
      exact digit n ‹_› positive
    · rw [head?_append_left Nat.toDigits_ne_nil]
      exact ih (n / 10) (by omega) (by omega)

theorem length_toDigits_of_zero {n : Nat} (zero : (Nat.toDigits 10 n).head? = some '0') :
    (Nat.toDigits 10 n).length = 1 := by
  rcases Nat.eq_zero_or_pos n with rfl | positive
  · rfl
  · exact absurd zero (head?_toDigits positive)

/-- The sign of an exponent. -/
def exponentSign (signed : Bool) (exponent : Int) : List Char :=
  if exponent < 0 then ['-'] else if signed then ['+'] else []

/-- Digits without a sign are the digits of a positive exponent. -/
theorem exponentPart_plain {text rest : List Char} (numeral : IsNumeral text)
    (stop : ∀ c ∈ rest.head?, c.isDigit = false) :
    exponentPart ('e' :: (text ++ rest)) =
      some (some (Int.ofNat (Nat.ofDigitChars 10 text 0)), rest) := by
  obtain ⟨c, cs, rfl⟩ := List.exists_cons_of_ne_nil numeral.nonempty
  have digit := numeral.digit c List.mem_cons_self
  have read := digits_append numeral stop
  have unsigned (sign : Char) (other : sign.isDigit = false) (cs' : List Char) :
      c :: cs ++ rest ≠ sign :: cs' := by
    intro same
    rw [(List.cons.inj same).1, other] at digit
    cases digit
  rw [exponentPart, if_pos (.inl rfl)]
  · simp only [read, Option.bind_eq_bind, Option.bind_some, Bool.false_eq_true, if_false]
    rfl
  · exact unsigned '-' rfl
  · exact unsigned '+' rfl

theorem exponentPart_some {rest : List Char} (signed : Bool) (exponent : Int)
    (stop : ∀ c ∈ rest.head?, c.isDigit = false) :
    exponentPart ('e' :: (exponentSign signed exponent ++
      (Nat.toDigits 10 exponent.natAbs ++ rest))) = some (some exponent, rest) := by
  have read := digits_append (isNumeral_toDigits exponent.natAbs) stop
  rcases Int.lt_or_le exponent 0 with below | above
  · have size : -(exponent.natAbs : Int) = exponent := by omega
    simp only [exponentPart, exponentSign, below, if_true, List.cons_append, List.nil_append,
      true_or, read, Option.bind_eq_bind, Option.bind_some, Nat.ofDigitChars_ten_toDigits, size]
    rfl
  · have size : (exponent.natAbs : Int) = exponent := by omega
    cases signed with
    | true =>
      simp only [exponentPart, exponentSign, Int.not_lt.2 above, if_true, if_false,
        List.cons_append, List.nil_append, true_or, read, Option.bind_eq_bind, Option.bind_some,
        Nat.ofDigitChars_ten_toDigits, size]
      rfl
    | false =>
      rw [exponentSign, if_neg (Int.not_lt.2 above), if_neg Bool.false_ne_true, List.nil_append,
        exponentPart_plain (isNumeral_toDigits _) stop, Nat.ofDigitChars_ten_toDigits,
        Int.ofNat_eq_natCast, size]

/-! ## Numbers without their sign -/

/-- A number is read part by part. -/
theorem unsigned_of_parts (negative : Bool) {cs rest₁ rest₂ rest : List Char} {whole : Nat}
    {fraction : Digits} {exponent : Option Int} (first : wholePart cs = some (whole, rest₁))
    (second : fractionPart rest₁ = some (fraction, rest₂))
    (third : exponentPart rest₂ = some (exponent, rest)) :
    unsigned negative cs = some (⟨negative, whole, fraction, exponent⟩, rest) := by
  simp only [unsigned, first, second, third, Option.bind_eq_bind, Option.bind_some,
    Option.pure_def]

/-- The text is read as a number of this size, whatever follows it, and as one that is written with
a point or an exponent. -/
def ReadsAs (text : List Char) (d : Decimal) : Prop :=
  ∀ negative rest, Ends rest → ∃ numeral : Numeral,
    unsigned negative (text ++ rest) = some (numeral, rest) ∧ numeral.isMarked ∧
      numeral.negative = negative ∧ numeral.size = d

theorem readsAs_fraction {whole fraction : List Char} (numeral : IsNumeral whole)
    (lead : whole.head? = some '0' → whole.length = 1) (digits : IsNumeral fraction) :
    ReadsAs (whole ++ '.' :: fraction)
      ⟨Nat.ofDigitChars 10 (whole ++ fraction) 0, -fraction.length⟩ := by
  intro negative rest ends
  have stop := ends.head
  have first : wholePart (whole ++ '.' :: (fraction ++ rest)) = some (_, _) :=
    wholePart_append numeral lead (by simp)
  have second := fractionPart_some digits fun c head => (stop c head).1
  have third := exponentPart_none fun c head => (stop c head).2.2
  refine ⟨⟨negative, Nat.ofDigitChars 10 whole 0, ⟨fraction, digits.digit⟩, none⟩, ?_, ?_, rfl, ?_⟩
  · rw [List.append_assoc]
    exact unsigned_of_parts negative first second third
  · simp [Numeral.isMarked, digits.nonempty]
  · simp [Numeral.size, Nat.ofDigitChars_append]

theorem readsAs_exponent {whole fraction : List Char} (numeral : IsNumeral whole)
    (lead : whole.head? = some '0' → whole.length = 1) (digits : ∀ c ∈ fraction, c.isDigit)
    (signed : Bool) (exponent : Int) :
    ReadsAs (whole ++ (if fraction = [] then [] else '.' :: fraction) ++
        'e' :: (exponentSign signed exponent ++ Nat.toDigits 10 exponent.natAbs))
      ⟨Nat.ofDigitChars 10 (whole ++ fraction) 0, exponent - fraction.length⟩ := by
  intro negative rest ends
  have third := exponentPart_some signed exponent fun c head => (ends.head c head).1
  refine ⟨⟨negative, Nat.ofDigitChars 10 whole 0, ⟨fraction, digits⟩, some exponent⟩, ?_, ?_, rfl,
    ?_⟩
  · rcases eq_or_ne fraction [] with rfl | nonempty
    · have first (tail : List Char) :
          wholePart (whole ++ 'e' :: tail) = some (_, 'e' :: tail) :=
        wholePart_append numeral lead (by simp)
      have second (tail : List Char) :
          fractionPart ('e' :: tail) = some (⟨[], digits⟩, 'e' :: tail) :=
        fractionPart_none (by simp)
      simpa using unsigned_of_parts negative (first _) (second _) third
    · have first (tail : List Char) :
          wholePart (whole ++ '.' :: tail) = some (_, '.' :: tail) :=
        wholePart_append numeral lead (by simp)
      have second (tail : List Char) :
          fractionPart ('.' :: (fraction ++ 'e' :: tail)) = some (_, 'e' :: tail) :=
        fractionPart_some ⟨nonempty, digits⟩ (by simp)
      simpa [nonempty] using unsigned_of_parts negative (first _) (second _) third
  · simp [Numeral.isMarked]
  · simp [Numeral.size, Nat.ofDigitChars_append]

/-! ## Layouts of digits -/

theorem ofDigitChars_zeros (digits : List Char) (k : Nat) :
    Nat.ofDigitChars 10 (digits ++ List.replicate k '0') 0 =
      Nat.ofDigitChars 10 digits 0 * 10 ^ k := by
  rw [Nat.ofDigitChars_append, Nat.ofDigitChars_replicate_zero, Nat.mul_comm]

/-- Digits that do not start with a zero. -/
structure Leading (digits : List Char) : Prop where
  numeral : IsNumeral digits
  head : digits.head? ≠ some '0'

theorem Leading.append {digits more : List Char} (leading : Leading digits)
    (digit : ∀ c ∈ more, c.isDigit) : Leading (digits ++ more) where
  numeral :=
    ⟨List.append_ne_nil_of_left_ne_nil leading.numeral.nonempty _,
      List.forall_mem_append.2 ⟨leading.numeral.digit, digit⟩⟩
  head := by
    rw [head?_append_left leading.numeral.nonempty]
    exact leading.head

theorem Leading.take {digits : List Char} (leading : Leading digits) {k : Nat} (some : 0 < k) :
    Leading (digits.take k) where
  numeral := by
    refine ⟨?_, fun c mem => leading.numeral.digit c (List.mem_of_mem_take mem)⟩
    simp [leading.numeral.nonempty, Nat.ne_of_gt some]
  head := by
    rw [List.head?_take, if_neg (Nat.ne_of_gt some)]
    exact leading.head

theorem Leading.length_of_zero {digits : List Char} (leading : Leading digits)
    (zero : digits.head? = some '0') : digits.length = 1 :=
  absurd zero leading.head

/-- The text is read as a number that stands for the same magnitude. -/
def StandsFor (text : List Char) (d : Decimal) : Prop :=
  ∃ read, ReadsAs text read ∧ read.nearest = d.nearest

theorem isNumeral_zero : IsNumeral ['0'] :=
  ⟨List.cons_ne_nil _ _, List.forall_mem_singleton.2 rfl⟩

theorem isDigit_of_mem_zeros (k : Nat) : ∀ c ∈ List.replicate k '0', c.isDigit := by
  intro c mem
  rw [List.eq_of_mem_replicate mem]
  rfl

theorem standsFor_below {digits : List Char} (leading : Leading digits) {point : Int}
    (below : point ≤ 0) :
    StandsFor ('0' :: '.' :: (List.replicate (-point).toNat '0' ++ digits))
      ⟨Nat.ofDigitChars 10 digits 0, point - digits.length⟩ := by
  have numeral : IsNumeral (List.replicate (-point).toNat '0' ++ digits) :=
    ⟨List.append_ne_nil_of_right_ne_nil _ leading.numeral.nonempty,
      List.forall_mem_append.2 ⟨isDigit_of_mem_zeros _, leading.numeral.digit⟩⟩
  refine ⟨_, readsAs_fraction isNumeral_zero (fun _ => rfl) numeral, congrArg Decimal.nearest ?_⟩
  have size : Nat.ofDigitChars 10 (['0'] ++ (List.replicate (-point).toNat '0' ++ digits)) 0 =
      Nat.ofDigitChars 10 digits 0 := by
    rw [Nat.ofDigitChars_append, Nat.ofDigitChars_append, Nat.ofDigitChars_replicate_zero]
    rfl
  rw [size, List.length_append, List.length_replicate]
  congr 1
  omega

theorem standsFor_within {digits : List Char} (leading : Leading digits) {k : Nat} (some : 0 < k)
    (within : k < digits.length) :
    StandsFor (digits.take k ++ '.' :: digits.drop k)
      ⟨Nat.ofDigitChars 10 digits 0, k - digits.length⟩ := by
  have fraction : IsNumeral (digits.drop k) :=
    ⟨by simpa using within, fun c mem => leading.numeral.digit c (List.mem_of_mem_drop mem)⟩
  have whole := leading.take some
  refine ⟨_, readsAs_fraction whole.numeral whole.length_of_zero fraction,
    congrArg Decimal.nearest ?_⟩
  rw [List.take_append_drop, List.length_drop]
  congr 1
  omega

theorem standsFor_above {digits : List Char} (leading : Leading digits) (k : Nat) :
    StandsFor (digits ++ List.replicate k '0' ++ '.' :: ['0'])
      ⟨Nat.ofDigitChars 10 digits 0, k⟩ := by
  have whole := leading.append (isDigit_of_mem_zeros k)
  refine ⟨_, readsAs_fraction whole.numeral whole.length_of_zero isNumeral_zero, ?_⟩
  rw [List.append_assoc, ← List.replicate_succ', ofDigitChars_zeros, Decimal.nearest_shift]
  congr 2
  rw [List.length_singleton]
  push_cast
  ring

theorem standsFor_plainChars {digits : List Char} (leading : Leading digits) (point : Int) :
    StandsFor (Binary64.plainChars digits point)
      ⟨Nat.ofDigitChars 10 digits 0, point - digits.length⟩ := by
  unfold Binary64.plainChars
  split
  · exact standsFor_below leading ‹_›
  · obtain ⟨k, rfl⟩ : ∃ k : Nat, point = k := ⟨point.toNat, by omega⟩
    rw [Int.toNat_natCast]
    rcases Nat.lt_or_ge k digits.length with within | above
    · have fraction : digits.drop k ≠ [] := by simpa using within
      have taken : k - (digits.take k).length = 0 := by
        rw [List.length_take]
        omega
      simp only [taken, fraction, if_false, List.replicate_zero, List.append_nil]
      exact standsFor_within leading (by omega) within
    · have exponent : (k : Int) - digits.length = (k - digits.length : Nat) := by omega
      simp only [List.take_of_length_le above, List.drop_of_length_le above, if_true, exponent]
      exact standsFor_above leading _

theorem standsFor_scientificChars (layout : Binary64.Layout) {digits : List Char}
    (leading : Leading digits) (point : Int) :
    StandsFor (Binary64.scientificChars layout digits point)
      ⟨Nat.ofDigitChars 10 digits 0, point - digits.length⟩ := by
  have whole := leading.take Nat.one_pos
  have fraction : ∀ c ∈ digits.drop 1, c.isDigit := fun c mem =>
    leading.numeral.digit c (List.mem_of_mem_drop mem)
  have length := List.length_pos_iff.2 leading.numeral.nonempty
  refine ⟨_, readsAs_exponent whole.numeral whole.length_of_zero fraction
    layout.signedExponent (point - 1), congrArg Decimal.nearest ?_⟩
  rw [List.take_append_drop, List.length_drop]
  congr 1
  omega

theorem exists_zeros (digits : List Char) :
    ∃ k, (digits.reverse.dropWhile (· = '0')).reverse ++ List.replicate k '0' = digits := by
  refine ⟨(digits.reverse.takeWhile (· = '0')).length, List.reverse_inj.1 ?_⟩
  have zeros : List.replicate (digits.reverse.takeWhile (· = '0')).length '0' =
      digits.reverse.takeWhile (· = '0') := by
    refine (List.eq_replicate_iff.2 ⟨rfl, fun c mem => ?_⟩).symm
    simpa using List.all_eq_true.1 List.all_takeWhile c mem
  rw [List.reverse_append, List.reverse_reverse, List.reverse_replicate, zeros,
    List.takeWhile_append_dropWhile]

theorem leading_of_toDigits {n : Nat} (positive : 0 < n) {digits : List Char} {k : Nat}
    (split : digits ++ List.replicate k '0' = Nat.toDigits 10 n) : Leading digits := by
  have numeral := split ▸ isNumeral_toDigits n
  have head := split ▸ head?_toDigits positive
  cases digits with
  | nil =>
    cases k with
    | zero => exact absurd rfl numeral.nonempty
    | succ k => exact absurd rfl head
  | cons c digits =>
    exact ⟨⟨by simp, fun c mem => numeral.digit c (List.mem_append_left _ mem)⟩, head⟩

/-- Every layout of a number other than zero stands for it. -/
theorem standsFor_decimalChars (layout : Binary64.Layout) {d : Decimal}
    (positive : 0 < d.coefficient) : StandsFor (Binary64.decimalChars layout d) d := by
  obtain ⟨coefficient, exponent⟩ := d
  obtain ⟨k, split⟩ := exists_zeros (Nat.toDigits 10 coefficient)
  unfold Binary64.decimalChars
  simp only
  generalize ((Nat.toDigits 10 coefficient).reverse.dropWhile (· = '0')).reverse = digits at split ⊢
  have leading := leading_of_toDigits positive split
  have size : Nat.ofDigitChars 10 digits 0 * 10 ^ k = coefficient := by
    rw [← ofDigitChars_zeros, split, Nat.ofDigitChars_ten_toDigits]
  have length : (Nat.toDigits 10 coefficient).length = digits.length + k := by
    rw [← split, List.length_append, List.length_replicate]
  -- The zeros that are not written move into the exponent.
  have same : (⟨Nat.ofDigitChars 10 digits 0,
      exponent + (Nat.toDigits 10 coefficient).length - digits.length⟩ : Decimal).nearest =
        (⟨coefficient, exponent⟩ : Decimal).nearest := by
    rw [← size, Decimal.nearest_shift, size, length]
    congr 2
    push_cast
    ring
  split
  · obtain ⟨read, reads, nearest⟩ := standsFor_plainChars leading _
    exact ⟨read, reads, nearest.trans same⟩
  · obtain ⟨read, reads, nearest⟩ := standsFor_scientificChars layout leading _
    exact ⟨read, reads, nearest.trans same⟩

/-! ## Numbers -/

theorem number_of_unsigned {negative : Bool} {text : List Char} {read : Numeral × List Char}
    (reads : unsigned negative text = some read) :
    number ((if negative then ['-'] else []) ++ text) = some read := by
  cases negative with
  | true => exact reads
  | false =>
    change number text = some read
    unfold number
    split
    · -- A text that starts with a sign is no number without its sign.
      cases reads
    · exact reads

/-- What follows a number, or a part of it, starts with no digit and no point. -/
def Stops (rest : List Char) : Prop :=
  ∀ c ∈ rest.head?, c.isDigit = false ∧ c ≠ '.'

theorem exponentPart_chars (numeral : Numeral) {rest : List Char} (ends : Ends rest) :
    exponentPart (numeral.exponentChars ++ rest) = some (numeral.exponent, rest) := by
  have stop := ends.head
  rw [Numeral.exponentChars]
  cases numeral.exponent with
  | none => exact exponentPart_none fun c head => (stop c head).2.2
  | some exponent =>
    have read := exponentPart_some true exponent fun c head => (stop c head).1
    rw [exponentSign] at read
    dsimp only
    split <;> simpa [‹_›] using read

theorem stops_exponentChars (numeral : Numeral) {rest : List Char} (ends : Ends rest) :
    Stops (numeral.exponentChars ++ rest) := by
  obtain ⟨_, _, _, exponent⟩ := numeral
  intro c head
  cases exponent with
  | none => exact ⟨(ends.head c head).1, (ends.head c head).2.1⟩
  | some exponent =>
    cases head
    decide

theorem fractionPart_chars (numeral : Numeral) {rest : List Char} (stops : Stops rest) :
    fractionPart (numeral.fractionChars ++ rest) = some (numeral.fraction, rest) := by
  obtain ⟨_, _, ⟨fraction, digits⟩, _⟩ := numeral
  rw [Numeral.fractionChars]
  rcases eq_or_ne fraction [] with rfl | nonempty
  · exact fractionPart_none fun c head => (stops c head).2
  · rw [if_neg nonempty]
    exact fractionPart_some ⟨nonempty, digits⟩ fun c head => (stops c head).1

/-- A number is read back digit by digit. -/
theorem number_numeral (numeral : Numeral) {rest : List Char} (ends : Ends rest) :
    number (numeral.chars ++ rest) = some (numeral, rest) := by
  have stops := stops_exponentChars numeral ends
  have stop : ∀ c ∈ (numeral.fractionChars ++ (numeral.exponentChars ++ rest)).head?,
      c.isDigit = false := by
    intro c head
    rw [Numeral.fractionChars] at head
    split at head
    · exact (stops c head).1
    · cases head
      rfl
  have first := wholePart_append (isNumeral_toDigits numeral.whole) length_toDigits_of_zero stop
  rw [Nat.ofDigitChars_ten_toDigits] at first
  rw [Numeral.chars, List.append_assoc, List.append_assoc, List.append_assoc]
  exact number_of_unsigned (unsigned_of_parts numeral.negative first
    (fractionPart_chars numeral stops) (exponentPart_chars numeral ends))

/-- An integer is read back. -/
theorem number_integer (value : Int) {rest : List Char} (ends : Ends rest) :
    number (Text.integer value ++ rest) = some (.ofInt value, rest) := by
  have chars : (Numeral.ofInt value).chars = Text.integer value := by
    by_cases negative : value < 0 <;>
      simp [Numeral.chars, Numeral.fractionChars, Numeral.exponentChars, Numeral.ofInt,
        Digits.empty, Text.integer, Text.natural, negative]
  rw [← chars]
  exact number_numeral (.ofInt value) ends

theorem standsFor_zero : StandsFor ['0', '.', '0'] ⟨0, 0⟩ := by
  refine ⟨_, readsAs_fraction isNumeral_zero (fun _ => rfl) isNumeral_zero, ?_⟩
  rw [show Nat.ofDigitChars 10 (['0'] ++ ['0']) 0 = 0 from rfl, Decimal.nearest_zero,
    Decimal.nearest_zero]

/-- The digits of a magnitude stand for the shortest number, and that for the magnitude. -/
theorem exists_standsFor_magnitude (layout : Binary64.Layout) (magnitude : Nat) :
    ∃ d : Decimal, d.nearest = magnitude ∧
      StandsFor (if magnitude = 0 then ['0', '.', '0']
        else Binary64.decimalChars layout (Binary64.shortest layout.tie magnitude)) d := by
  by_cases zero : magnitude = 0
  · rw [if_pos zero, zero]
    exact ⟨⟨0, 0⟩, Decimal.nearest_zero 0, standsFor_zero⟩
  · have nearest := Binary64.nearest_shortest layout.tie magnitude
    have positive : 0 < (Binary64.shortest layout.tie magnitude).nearest := by omega
    rw [if_neg zero]
    exact ⟨_, nearest, standsFor_decimalChars layout (Decimal.coefficient_pos positive)⟩

/-- The text of a finite floating point value is read as a number that denotes it, however it is
laid out. -/
theorem number_chars (layout : Binary64.Layout) {value : Binary64} (finite : value.isFinite)
    {rest : List Char} (ends : Ends rest) :
    ∃ numeral : Numeral, number (value.chars layout ++ rest) = some (numeral, rest) ∧
      numeral.Denotes value := by
  have isNumber : value.isNaN = false :=
    decide_eq_false (Nat.not_lt_of_gt (of_decide_eq_true finite))
  obtain ⟨d, same, read, reads, nearest⟩ := exists_standsFor_magnitude layout value.magnitude
  obtain ⟨numeral, reads, marked, sign, size⟩ := reads value.negative rest ends
  simp only [Binary64.chars, isNumber, finite, not_true, if_false, List.append_assoc,
    Bool.false_eq_true]
  exact ⟨numeral, number_of_unsigned reads, marked, sign, size ▸ nearest.trans same⟩

end Json

end QueryIso
