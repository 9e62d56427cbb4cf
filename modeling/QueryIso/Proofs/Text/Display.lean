import QueryIso.Proofs.Json.Documents
import QueryIso.Proofs.Json.Items
import QueryIso.Proofs.Paths
import QueryIso.Proofs.Text.Quoted
import QueryIso.Tree.Display

/-!
# Trees in messages are told apart

The text of a tree within a message stands for that tree only. Quoted texts end at their quote,
other scalars at the next comma or closing bracket, and what stands there is read back as one scalar
and of one type. All NaNs have the same text, so they are left out.

* `Scalar.tellsApart_displayChars`: scalars are told apart;
* `Tree.tellsApart_write`: so are trees, by induction;
* `Tree.eq_of_display_append`: also where a message goes on after the tree;
* `Tree.display_inj`: two trees with the same text are the same.
-/

namespace QueryIso

open Text (TellsApart ReadsBack)

namespace Scalar

/-- Whether the scalar is a NaN. -/
def isNaN : Scalar → Bool
  | float value => value.isNaN
  | _ => false

/-- The scalar that a number stands for: a floating point value if the number has a point or an
exponent, an integer otherwise. -/
def ofNumeral (numeral : Json.Numeral) : Scalar :=
  if numeral.isMarked then float (.ofMagnitude numeral.negative numeral.size.nearest)
  else integer (.ofInt (if numeral.negative then -numeral.whole else numeral.whole))

theorem ofNumeral_of_denotes {numeral : Json.Numeral} {value : Binary64}
    (denotes : numeral.Denotes value) : ofNumeral numeral = float value := by
  rw [ofNumeral, if_pos denotes.marked, denotes.sign, denotes.size, Binary64.ofMagnitude_magnitude]

theorem ofNumeral_ofInt (value : Int64) : ofNumeral (.ofInt value.toInt) = integer value := by
  have signed : (if (Json.Numeral.ofInt value.toInt).negative then
      -((Json.Numeral.ofInt value.toInt).whole : Int)
        else (Json.Numeral.ofInt value.toInt).whole) = value.toInt := by
    simp only [Json.Numeral.ofInt, decide_eq_true_eq]
    split <;> omega
  rw [ofNumeral, Json.Numeral.isMarked_ofInt, if_neg Bool.false_ne_true, signed,
    Int64.ofInt_toInt]

/-- Reads a scalar that does not stand between quotes. -/
def ofUnquoted? : List Char → Option (Scalar × List Char)
  | 'n' :: 'u' :: 'l' :: 'l' :: rest => some (null, rest)
  | 't' :: 'r' :: 'u' :: 'e' :: rest => some (bool true, rest)
  | 'f' :: 'a' :: 'l' :: 's' :: 'e' :: rest => some (bool false, rest)
  | 'i' :: 'n' :: 'f' :: rest => some (float (.ofMagnitude false Binary64.infinity), rest)
  | '-' :: 'i' :: 'n' :: 'f' :: rest => some (float (.ofMagnitude true Binary64.infinity), rest)
  | cs => (Json.number cs).map fun read => (ofNumeral read.1, read.2)

theorem ofUnquoted?_of_number {cs rest : List Char} {numeral : Json.Numeral}
    (reads : Json.number cs = some (numeral, rest)) :
    ofUnquoted? cs = some (ofNumeral numeral, rest) := by
  unfold ofUnquoted?
  split
  iterate 5 cases reads
  rw [reads, Option.map_some]

theorem readsBack_infinite {value : Binary64} (number : value.isNaN = false)
    (infinite : ¬ value.isFinite) :
    ReadsBack Json.Ends ofUnquoted? displayChars (float value) := by
  intro rest _
  have magnitude : value.magnitude = Binary64.infinity :=
    Nat.le_antisymm (Nat.not_lt.1 (of_decide_eq_false number))
      (Nat.not_lt.1 fun finite => infinite (decide_eq_true finite))
  have same := value.ofMagnitude_magnitude
  rw [magnitude] at same
  simp only [displayChars, Binary64.chars, number, infinite, Bool.false_eq_true, if_false,
    not_false_eq_true, if_true]
  cases sign : value.negative <;>
  · rw [sign] at same
    rw [← same]
    rfl

/-- A scalar stands between quotes or is read back. -/
theorem str_or_readsBack {value : Scalar} (number : value.isNaN = false) :
    (∃ text, value = str text) ∨ ReadsBack Json.Ends ofUnquoted? displayChars value := by
  cases value with
  | str text => exact .inl ⟨text, rfl⟩
  | null => exact .inr fun _ _ => rfl
  | bool value => exact .inr fun _ _ => by cases value <;> rfl
  | integer value =>
    right
    intro rest ends
    have read := ofUnquoted?_of_number (Json.number_integer value.toInt ends)
    rwa [ofNumeral_ofInt] at read
  | float value =>
    right
    by_cases finite : value.isFinite
    · intro rest ends
      obtain ⟨numeral, reads, denotes⟩ := Json.number_chars .display finite ends
      have read := ofUnquoted?_of_number reads
      rwa [ofNumeral_of_denotes denotes] at read
    · exact readsBack_infinite number finite

theorem readsBack_ne_quoted {value : Scalar}
    (reads : ReadsBack Json.Ends ofUnquoted? displayChars value) (text : String) :
    TellsApart Json.Ends (fun value rest => displayChars value ++ rest) (str text) value := by
  intro rest rest' _ ends' same
  have read : ofUnquoted? (displayChars (str text) ++ rest) = some (value, rest') :=
    (congrArg ofUnquoted? same).trans (reads rest' ends')
  cases read

/-- Scalars are told apart, unless they are NaNs. -/
theorem tellsApart_displayChars {a b : Scalar} (number : a.isNaN = false)
    (number' : b.isNaN = false) :
    TellsApart Json.Ends (fun value rest => displayChars value ++ rest) a b := by
  rcases str_or_readsBack number with ⟨text, rfl⟩ | reads <;>
    rcases str_or_readsBack number' with ⟨text', rfl⟩ | reads'
  · intro rest rest' _ _ same
    obtain ⟨rfl, rest⟩ := Text.tellsApart_quoted text text' _ _ trivial trivial same
    exact ⟨rfl, rest⟩
  · exact readsBack_ne_quoted reads' text
  · exact (readsBack_ne_quoted reads text').symm
  · exact Text.tellsApart_of_readsBack reads reads'

/-- A scalar starts with a character that no other tree starts with, and that closes no sequence. -/
theorem exists_displayChars_eq {value : Scalar} (number : value.isNaN = false) :
    ∃ c cs, value.displayChars = c :: cs ∧ c ≠ '[' ∧ c ≠ '{' ∧ c ≠ ']' := by
  rcases str_or_readsBack number with ⟨text, rfl⟩ | reads
  · exact ⟨'"', _, rfl, by decide⟩
  · have read := reads [] nofun
    rw [List.append_nil] at read
    cases written : value.displayChars with
    | nil =>
      rw [written] at read
      cases read
    | cons c cs =>
      rw [written] at read
      refine ⟨c, cs, rfl, ?_, ?_, ?_⟩
      all_goals
        rintro rfl
        cases read

end Scalar

namespace Tree

/-- No scalar of the tree is a NaN. -/
def IsNaNFree (tree : Tree) : Prop :=
  ∀ path value, tree.at? path = some (.scalar value) → value.isNaN = false

theorem IsNaNFree.child {tree child : Tree} {step : Step} (free : tree.IsNaNFree)
    (here : tree.child? step = some child) : child.IsNaNFree := by
  intro path value below
  exact free (path.under step) value ((at?_under_of_child? here path).trans below)

theorem IsNaNFree.item {items : List Tree} (free : (sequence items).IsNaNFree) {item : Tree}
    (mem : item ∈ items) : item.IsNaNFree := by
  obtain ⟨_, here⟩ := exists_child?_sequence.2 mem
  exact free.child here

theorem IsNaNFree.value {fields : Dict Tree} (free : (record fields).IsNaNFree) {value : Tree}
    (mem : value ∈ fields.values) : value.IsNaNFree := by
  obtain ⟨_, here⟩ := exists_child?_record.2 mem
  exact free.child here

/-! ## Texts of nodes -/

mutual

/-- A tree is written in front of other characters and leaves them as they are. -/
theorem write_append (more : List Char) : ∀ (tree : Tree) (rest : List Char),
    tree.write (rest ++ more) = tree.write rest ++ more
  | .scalar value, rest => by rw [write, write, List.append_assoc]
  | .sequence items, rest => by
    rw [write, write, List.cons_append, ← writeItems_append more items, List.cons_append]
  | .record fields, rest => by
    rw [write, write, List.cons_append, ← writeFields_append more fields, List.cons_append]

theorem writeItems_append (more : List Char) : ∀ (items : List Tree) (lead rest : List Char),
    writeItems lead items (rest ++ more) = writeItems lead items rest ++ more
  | [], _, _ => rfl
  | item :: items, lead, rest => by
    rw [writeItems, writeItems, writeItems_append more items, write_append more item,
      List.append_assoc]

theorem writeFields_append (more : List Char) {bound : Option String} :
    ∀ (fields : Entries Tree bound) (lead rest : List Char),
      writeFields lead fields (rest ++ more) = writeFields lead fields rest ++ more
  | .nil, _, _ => rfl
  | .cons name above value fields, lead, rest => by
    simp only [writeFields, writeFields_append more fields, write_append more value,
      List.append_assoc, List.cons_append]

end

/-- Writes a name and its value. -/
def writeField (field : String × Tree) (rest : List Char) : List Char :=
  Text.quoted field.1 ++ (':' :: ' ' :: field.2.write rest)

theorem writeItems_comma (items : List Tree) (rest : List Char) :
    writeItems [',', ' '] items rest = Text.others [' '] write items rest := by
  induction items with
  | nil => rfl
  | cons item items ih =>
    rw [writeItems, ih]
    rfl

theorem writeFields_comma {bound : Option String} (fields : Entries Tree bound)
    (rest : List Char) :
    writeFields [',', ' '] fields rest = Text.others [' '] writeField fields.toList rest := by
  induction fields with
  | nil => rfl
  | cons name above value fields ih =>
    rw [writeFields, ih]
    rfl

theorem write_sequence (items : List Tree) (rest : List Char) :
    (sequence items).write rest = '[' :: Text.listed [] [' '] write items (']' :: rest) := by
  cases items with
  | nil => rfl
  | cons item items =>
    rw [write, writeItems, writeItems_comma]
    rfl

theorem write_record (fields : Dict Tree) (rest : List Char) :
    (record fields).write rest =
      '{' :: Text.listed [] [' '] writeField fields.toList ('}' :: rest) := by
  cases fields with
  | nil => rfl
  | cons name above value fields =>
    rw [write, writeFields, writeFields_comma]
    rfl

theorem head?_write {tree : Tree} (free : tree.IsNaNFree) (rest : List Char) :
    (tree.write rest).head? ≠ some ']' := by
  cases tree with
  | scalar value =>
    obtain ⟨c, cs, starts, _, _, close⟩ := Scalar.exists_displayChars_eq (free .root value rfl)
    change (value.displayChars ++ rest).head? ≠ some ']'
    rw [starts]
    simpa using close
  | sequence items => simp [write_sequence]
  | record fields => simp [write_record]

/-- A scalar is not taken for a sequence or a record. -/
theorem tellsApart_scalar {value : Scalar} {other : Tree} (free : (scalar value).IsNaNFree)
    (free' : other.IsNaNFree) : TellsApart Json.Ends write (scalar value) other := by
  have number : value.isNaN = false := free .root value rfl
  intro rest rest' ends ends' same
  cases other with
  | scalar value' =>
    obtain ⟨rfl, rest⟩ := Scalar.tellsApart_displayChars number (free' .root value' rfl) rest rest'
      ends ends' same
    exact ⟨rfl, rest⟩
  | sequence items =>
    obtain ⟨c, cs, starts, array, _⟩ := Scalar.exists_displayChars_eq number
    rw [write_sequence] at same
    change value.displayChars ++ rest = _ at same
    rw [starts] at same
    exact absurd (List.cons.inj same).1 array
  | record fields =>
    obtain ⟨c, cs, starts, _, object, _⟩ := Scalar.exists_displayChars_eq number
    rw [write_record] at same
    change value.displayChars ++ rest = _ at same
    rw [starts] at same
    exact absurd (List.cons.inj same).1 object

theorem tellsApart_sequence {items others : List Tree}
    (free : ∀ item ∈ items ++ others, item.IsNaNFree)
    (apart : ∀ item ∈ items, ∀ other ∈ others, TellsApart Json.Ends write item other) :
    TellsApart Json.Ends write (sequence items) (sequence others) := by
  intro rest rest' _ _ same
  rw [write_sequence, write_sequence] at same
  have opens (item : Tree) (mem : item ∈ items ++ others) (rest : List Char) :
      (item.write rest).head? ≠ some ']' := head?_write (free item mem) rest
  obtain ⟨rfl, brackets⟩ := Text.tellsApart_listed (by decide) (Json.ends_close (.inl rfl))
    Json.ends_comma apart opens _ _ ⟨rest, rfl⟩ ⟨rest', rfl⟩ (List.cons.inj same).2
  exact ⟨rfl, (List.cons.inj brackets).2⟩

theorem tellsApart_writeField {field other : String × Tree}
    (apart : TellsApart Json.Ends write field.2 other.2) :
    TellsApart Json.Ends writeField field other := by
  obtain ⟨name, value⟩ := field
  obtain ⟨name', value'⟩ := other
  intro rest rest' ends ends' same
  obtain ⟨rfl, values⟩ := Text.tellsApart_quoted name name' _ _ trivial trivial same
  have values : value.write rest = value'.write rest' := (List.cons.inj (List.cons.inj values).2).2
  obtain ⟨rfl, rest⟩ := apart rest rest' ends ends' values
  exact ⟨rfl, rest⟩

theorem tellsApart_record {fields others : Dict Tree}
    (apart : ∀ value ∈ fields.values, ∀ other ∈ others.values,
      TellsApart Json.Ends write value other) :
    TellsApart Json.Ends write (record fields) (record others) := by
  intro rest rest' _ _ same
  rw [write_record, write_record] at same
  have each (field : String × Tree) (mem : field ∈ fields.toList) (other : String × Tree)
      (mem' : other ∈ others.toList) : TellsApart Json.Ends writeField field other :=
    tellsApart_writeField
      (apart field.2 (List.mem_map_of_mem mem) other.2 (List.mem_map_of_mem mem'))
  obtain ⟨entries, brackets⟩ := Text.tellsApart_listed (by decide) (Json.ends_close (.inr rfl))
    Json.ends_comma each (fun _ _ _ => nofun) _ _ ⟨rest, rfl⟩ ⟨rest', rfl⟩ (List.cons.inj same).2
  exact ⟨congrArg record (Entries.toList_inj.1 entries), (List.cons.inj brackets).2⟩

theorem tellsApart_sequence_record (items : List Tree) (fields : Dict Tree) :
    TellsApart Json.Ends write (sequence items) (record fields) := by
  intro rest rest' _ _ same
  rw [write_sequence, write_record] at same
  exact absurd (List.cons.inj same).1 (by decide)

/-- Trees without NaNs are told apart: by their first character if they have different shapes, by
their children otherwise. -/
theorem tellsApart_write {a b : Tree} (free : a.IsNaNFree) (free' : b.IsNaNFree) :
    TellsApart Json.Ends write a b := by
  induction a generalizing b with
  | identifier text _ _ => exact tellsApart_scalar free free'
  | plain value _ => exact tellsApart_scalar free free'
  | sequence items ih =>
    cases b with
    | scalar value => exact (tellsApart_scalar free' free).symm
    | sequence others =>
      refine tellsApart_sequence ?_ fun item mem other mem' =>
        ih item mem (free.item mem) (free'.item mem')
      exact List.forall_mem_append.2 ⟨fun _ => free.item, fun _ => free'.item⟩
    | record others => exact tellsApart_sequence_record items others
  | record fields ih =>
    cases b with
    | scalar value => exact (tellsApart_scalar free' free).symm
    | sequence others => exact (tellsApart_sequence_record others fields).symm
    | record others =>
      exact tellsApart_record fun value mem other mem' =>
        ih value mem (free.value mem) (free'.value mem')

/-- The text of a tree tells it from others also in front of a message that goes on with a blank. -/
theorem eq_of_display_append {a b : Tree} (free : a.IsNaNFree) (free' : b.IsNaNFree)
    {message message' : String} (ends : Json.Ends message.toList)
    (ends' : Json.Ends message'.toList) (same : a.display ++ message = b.display ++ message') :
    a = b ∧ message = message' := by
  have written (tree : Tree) (message : String) :
      (tree.display ++ message).toList = tree.write message.toList := by
    rw [String.toList_append, display, String.toList_ofList, ← write_append]
    rfl
  have chars := congrArg String.toList same
  rw [written, written] at chars
  obtain ⟨rfl, rest⟩ := tellsApart_write free free' _ _ ends ends' chars
  exact ⟨rfl, String.toList_inj.1 rest⟩

/-- **The text of a tree within a message is unambiguous.** Two trees without NaNs have the same
text exactly if they are the same. -/
theorem display_inj {a b : Tree} (free : a.IsNaNFree) (free' : b.IsNaNFree) :
    a.display = b.display ↔ a = b := by
  constructor
  · intro same
    obtain ⟨rfl, _⟩ := tellsApart_write free free' [] [] nofun nofun (String.ofList_inj.1 same)
    rfl
  · exact congrArg display

/-- Scalars in a sequence. -/
def row (values : List Scalar) : Tree :=
  .sequence (values.map .scalar)

theorem isNaNFree_row {values : List Scalar} (numbers : ∀ value ∈ values, value.isNaN = false) :
    (row values).IsNaNFree := by
  intro path value found
  rcases exists_at?_sequence.1 ⟨path, found⟩ with root | ⟨item, listed, below⟩
  · cases root
  · obtain ⟨_, mem, rfl⟩ := List.mem_map.1 listed
    cases exists_at?_scalar.1 below
    exact numbers value mem

/-- A comma within a string is no separator, and one is not 1.0. -/
theorem display_inj_separator :
    (row [.str "a\", \"b", .integer 1]).IsNaNFree ∧
      (row [.str "a", .str "b", .float ⟨0x3FF0000000000000⟩]).IsNaNFree ∧
      (row [.str "a\", \"b", .integer 1]).display ≠
        (row [.str "a", .str "b", .float ⟨0x3FF0000000000000⟩]).display := by
  have free : (row [.str "a\", \"b", .integer 1]).IsNaNFree := isNaNFree_row (by decide)
  have free' : (row [.str "a", .str "b", .float ⟨0x3FF0000000000000⟩]).IsNaNFree :=
    isNaNFree_row (by decide)
  exact ⟨free, free', mt (display_inj free free').1 (by decide)⟩

end Tree

end QueryIso
