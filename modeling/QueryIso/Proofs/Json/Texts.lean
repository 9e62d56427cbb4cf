import QueryIso.Proofs.Json.Documents
import QueryIso.Proofs.Json.Items

/-!
# Texts of JSON documents are read back

The reader gives back the document that was written, whatever blanks stand between its parts. The
only limit is the nesting that it accepts.

* `Json.readBy_write`: a written document is read up to what follows it, if it is not nested too
  deeply;
* `Json.levels_le_of_value`: nothing is read that is nested too deeply;
* `Json.parse_textIn`, `Json.levels_le_of_parse`: the same of whole texts.
-/

namespace QueryIso

namespace Json

open Text (listed others)

/-! ## Spacings -/

/-- There are only blanks between the parts of a text. -/
structure Spacing.OnlyBlanks (spacing : Spacing) : Prop where
  colon : Blank spacing.colon
  gap : ∀ level, Blank (spacing.gap level)

theorem Spacing.onlyBlanks_compact : compact.OnlyBlanks where
  colon := blank_nil
  gap := fun _ => blank_nil

theorem Spacing.onlyBlanks_pretty : pretty.OnlyBlanks where
  colon := by simp [pretty, Blank, isBlank]
  gap := by
    intro level c mem
    rcases List.mem_cons.1 mem with rfl | mem
    · rfl
    · rw [List.eq_of_mem_replicate mem]
      rfl

namespace Document

/-- Writes a name and its value. -/
def writeMember (spacing : Spacing) (level : Nat) (member : String × Document)
    (rest : List Char) : List Char :=
  quoted member.1 ++ (':' :: spacing.colon ++ member.2.write spacing level rest)

variable (spacing : Spacing) (level : Nat)

theorem writeItems_comma (items : List Document) (rest : List Char) :
    writeItems spacing level [','] items rest =
      others (spacing.gap level) (write spacing level) items rest := by
  induction items with
  | nil => rfl
  | cons item items ih =>
    rw [writeItems, ih]
    rfl

theorem writeMembers_comma (members : List (String × Document)) (rest : List Char) :
    writeMembers spacing level [','] members rest =
      others (spacing.gap level) (writeMember spacing level) members rest := by
  induction members with
  | nil => rfl
  | cons member members ih =>
    rw [writeMembers, ih]
    rfl

theorem write_array (items : List Document) :
    (array items).write spacing level = fun rest =>
      '[' :: listed (spacing.gap (level + 1)) (spacing.gap (level + 1))
        (write spacing (level + 1)) items
        (if items.isEmpty then ']' :: rest else spacing.gap level ++ ']' :: rest) := by
  funext rest
  cases items with
  | nil => rfl
  | cons item items =>
    rw [write, writeItems, writeItems_comma]
    rfl

theorem write_object (members : List (String × Document)) :
    (object members).write spacing level = fun rest =>
      '{' :: listed (spacing.gap (level + 1)) (spacing.gap (level + 1))
        (writeMember spacing (level + 1)) members
        (if members.isEmpty then '}' :: rest else spacing.gap level ++ '}' :: rest) := by
  funext rest
  cases members with
  | nil => rfl
  | cons member members =>
    rw [write, writeMembers, writeMembers_comma]
    rfl

end Document

/-! ## Scalars -/

/-- The document is written as this text, and the text is read as it. -/
structure IsScalar (document : Document) (text : List Char) : Prop where
  flat : document.levels = 0
  written : ∀ spacing level rest, document.write spacing level rest = text ++ rest
  reads : ∀ rest, Ends rest → scalar (text ++ rest) = some (document, rest)

theorem isScalar_null : IsScalar .null "null".toList :=
  ⟨rfl, fun _ _ _ => rfl, fun _ _ => rfl⟩

theorem isScalar_bool (value : Bool) :
    IsScalar (.bool value) (if value then "true" else "false").toList :=
  ⟨rfl, fun _ _ _ => rfl, fun _ _ => by cases value <;> rfl⟩

theorem isScalar_string (text : String) : IsScalar (.string text) (quoted text) := by
  refine ⟨rfl, fun _ _ _ => rfl, fun rest _ => ?_⟩
  rw [quoted_append, scalar, stringChars_flatMap]
  simp

theorem isScalar_number (numeral : Numeral) : IsScalar (.number numeral) numeral.chars := by
  refine ⟨rfl, fun _ _ _ => rfl, fun rest ends => ?_⟩
  have reads := number_numeral numeral ends
  unfold scalar
  split
  iterate 4
    rw [‹numeral.chars ++ rest = _›] at reads
    cases reads
  rw [reads]
  rfl

/-- A scalar starts with a character that nothing else starts with. -/
theorem head_of_scalar {c : Char} {cs : List Char} {read : Document × List Char}
    (reads : scalar (c :: cs) = some read) :
    isBlank c = false ∧ c ≠ '[' ∧ c ≠ '{' ∧ c ≠ ']' ∧ c ≠ '}' := by
  refine ⟨Bool.eq_false_iff.2 fun blank => ?_, ?_, ?_, ?_, ?_⟩
  · simp only [isBlank, decide_eq_true_eq] at blank
    rcases blank with rfl | rfl | rfl | rfl <;> cases reads
  all_goals
    rintro rfl
    cases reads

theorem value_of_scalar {lead cs rest : List Char} {document : Document} (blank : Blank lead)
    (reads : scalar cs = some (document, rest)) (depth : Nat) :
    value depth (lead ++ cs) = some (document, rest) := by
  cases cs with
  | nil => cases reads
  | cons c cs =>
    obtain ⟨visible, array, object, _⟩ := head_of_scalar reads
    have shown := (skipBlanks_append blank (c :: cs)).trans (skipBlanks_cons visible cs)
    cases depth with
    | zero => rw [value, shown, reads]
    | succ depth =>
      rw [value, shown]
      split
      · exact absurd (List.cons.inj ‹_›).1 array
      · exact absurd (List.cons.inj ‹_›).1 object
      · exact reads

/-! ## Arrays and objects -/

theorem value_array {lead : List Char} (blank : Blank lead) (depth : Nat) (cs : List Char) :
    value (depth + 1) (lead ++ '[' :: cs) =
      (bracketed ']' (value depth) cs).map fun read => (.array read.1, read.2) := by
  have visible : isBlank '[' = false := rfl
  rw [value, skipBlanks_append blank, skipBlanks_cons visible]
  simp only [Option.bind_eq_bind]
  cases bracketed ']' (value depth) cs <;> rfl

theorem value_object {lead : List Char} (blank : Blank lead) (depth : Nat) (cs : List Char) :
    value (depth + 1) (lead ++ '{' :: cs) =
      (bracketed '}' (member (value depth)) cs).map fun read => (.object read.1, read.2) := by
  have visible : isBlank '{' = false := rfl
  rw [value, skipBlanks_append blank, skipBlanks_cons visible]
  simp only [Option.bind_eq_bind]
  cases bracketed '}' (member (value depth)) cs <;> rfl

/-- No bracket may be open at depth zero. -/
theorem value_zero_of_bracket {lead : List Char} (blank : Blank lead) {c : Char}
    (opening : c = '[' ∨ c = '{') (cs : List Char) : value 0 (lead ++ c :: cs) = none := by
  have visible : isBlank c = false := by rcases opening with rfl | rfl <;> rfl
  rw [value, skipBlanks_append blank, skipBlanks_cons visible]
  rcases opening with rfl | rfl <;> rfl

section

variable {spacing : Spacing} (blanks : spacing.OnlyBlanks)
include blanks

theorem readBy_writeMember {depth level : Nat} {member : String × Document}
    {result : Option Document}
    (reads : ReadBy (value depth) (member.2.write spacing level) result) :
    ReadBy (Json.member (value depth)) (Document.writeMember spacing level member)
      (result.map fun document => (member.1, document)) := by
  intro lead rest blank ends
  have quote : isBlank '"' = false := rfl
  have visible : isBlank ':' = false := rfl
  rw [Document.writeMember, quoted_append, Json.member, skipBlanks_append blank,
    skipBlanks_cons quote]
  simp only [List.cons_append, stringChars_flatMap, Option.bind_eq_bind,
    Option.bind_some, skipBlanks_cons visible, reads _ _ blanks.colon ends, String.ofList_toList]
  cases result <;> rfl

omit blanks in
theorem opens_writeMember {level : Nat} {member : String × Document}
    (opens : Opens (member.2.write spacing level)) :
    Opens (Document.writeMember spacing level member) := by
  intro rest
  obtain ⟨c, cs, starts, _, _, _, keeps⟩ := opens rest
  rw [Document.writeMember, quoted_append, starts]
  refine ⟨'"', _, rfl, rfl, by decide, by decide, ?_⟩
  simp only [List.length_append, List.length_cons]
  omega

/-! ## Documents -/

omit blanks in
theorem IsScalar.opens {document : Document} {text : List Char} (simple : IsScalar document text)
    (level : Nat) : Opens (document.write spacing level) := by
  intro rest
  have reads := simple.reads [] nofun
  rw [simple.written]
  cases text with
  | nil => cases reads
  | cons c cs =>
    obtain ⟨visible, _, _, array, object⟩ := head_of_scalar reads
    exact ⟨c, cs ++ rest, rfl, visible, array, object, by simp⟩

omit blanks in
theorem opens_write (document : Document) (level : Nat) : Opens (document.write spacing level) := by
  induction document generalizing level with
  | null => exact isScalar_null.opens level
  | bool value => exact (isScalar_bool value).opens level
  | number numeral => exact (isScalar_number numeral).opens level
  | string text => exact (isScalar_string text).opens level
  | array items ih =>
    rw [Document.write_array]
    exact opens_listed (.inl rfl) (fun item mem => ih item mem _) _ _
  | object members ih =>
    rw [Document.write_object]
    exact opens_listed (.inr rfl) (fun member mem => opens_writeMember (ih member mem _)) _ _

omit blanks in
theorem IsScalar.readBy {document : Document} {text : List Char} (simple : IsScalar document text)
    (depth level : Nat) :
    ReadBy (value depth) (document.write spacing level)
      (if document.levels ≤ depth then some document else none) := by
  intro lead rest blank ends
  rw [simple.flat, if_pos (Nat.zero_le depth), simple.written]
  exact value_of_scalar blank (simple.reads rest ends) depth

theorem readBy_array {items : List Document}
    (reads : ∀ item ∈ items, ∀ depth level, ReadBy (value depth) (item.write spacing level)
      (if item.levels ≤ depth then some item else none))
    (depth level : Nat) :
    ReadBy (value depth) ((Document.array items).write spacing level)
      (if (Document.array items).levels ≤ depth then some (.array items) else none) := by
  intro lead rest blank ends
  rw [Document.write_array]
  cases depth with
  | zero =>
    rw [value_zero_of_bracket blank (.inl rfl), Document.levels, if_neg (Nat.not_succ_le_zero _)]
    rfl
  | succ depth =>
    have listed := bracketed_listed (.inl rfl) (blanks.gap (level + 1))
      (fun item _ => opens_write item (level + 1))
      (fun item mem => reads item mem depth (level + 1)) (blanks.gap level) rest
    rw [value_array blank, listed]
    simp only [Document.levels_array_le_iff]
    split <;> rfl

theorem readBy_object {members : List (String × Document)}
    (reads : ∀ member ∈ members, ∀ depth level,
      ReadBy (value depth) (member.2.write spacing level)
        (if member.2.levels ≤ depth then some member.2 else none))
    (depth level : Nat) :
    ReadBy (value depth) ((Document.object members).write spacing level)
      (if (Document.object members).levels ≤ depth then some (.object members) else none) := by
  intro lead rest blank ends
  rw [Document.write_object]
  cases depth with
  | zero =>
    rw [value_zero_of_bracket blank (.inr rfl), Document.levels, if_neg (Nat.not_succ_le_zero _)]
    rfl
  | succ depth =>
    have read (member : String × Document) (mem : member ∈ members) :
        ReadBy (Json.member (value depth)) (Document.writeMember spacing (level + 1) member)
          (if member.2.levels ≤ depth then some member else none) := by
      have read := readBy_writeMember blanks (reads member mem depth (level + 1))
      rwa [apply_ite (Option.map _)] at read
    have listed := bracketed_listed (.inr rfl) (blanks.gap (level + 1))
      (fun member _ => opens_writeMember (opens_write member.2 (level + 1)))
      read (blanks.gap level) rest
    rw [value_object blank, listed]
    simp only [Document.levels_object_le_iff]
    split <;> rfl

/-- A written document is read up to what follows it, if it is not nested too deeply. -/
theorem readBy_write (document : Document) (depth level : Nat) :
    ReadBy (value depth) (document.write spacing level)
      (if document.levels ≤ depth then some document else none) := by
  induction document generalizing depth level with
  | null => exact isScalar_null.readBy depth level
  | bool value => exact (isScalar_bool value).readBy depth level
  | number numeral => exact (isScalar_number numeral).readBy depth level
  | string text => exact (isScalar_string text).readBy depth level
  | array items ih => exact readBy_array blanks ih depth level
  | object members ih => exact readBy_object blanks ih depth level

/-- The text of a document is read as the document, unless it opens too many brackets at once. -/
theorem parse_textIn (document : Document) :
    Document.parse (document.textIn spacing) =
      if document.levels ≤ 127 then some document else none := by
  have reads := readBy_write blanks document maxDepth 0 [] [] blank_nil nofun
  rw [Document.parse, Document.textIn, String.toList_ofList,
    ← List.nil_append (document.write spacing 0 []), reads]
  change Option.bind (Option.map _ (if document.levels ≤ 127 then _ else _)) _ = _
  split <;> rfl

end

/-! ## What is read -/

theorem levels_of_scalar {cs rest : List Char} {document : Document}
    (reads : scalar cs = some (document, rest)) : document.levels = 0 := by
  unfold scalar at reads
  split at reads
  · cases reads
    rfl
  · cases reads
    rfl
  · cases reads
    rfl
  · obtain ⟨_, _, same⟩ := Option.bind_eq_some_iff.1 reads
    cases same
    rfl
  · obtain ⟨_, _, same⟩ := Option.bind_eq_some_iff.1 reads
    cases same
    rfl

theorem levels_le_of_member {depth : Nat} {cs rest : List Char} {member : String × Document}
    (each : ∀ cs document rest, value depth cs = some (document, rest) → document.levels ≤ depth)
    (reads : Json.member (value depth) cs = some (member, rest)) : member.2.levels ≤ depth := by
  unfold Json.member at reads
  split at reads
  · obtain ⟨⟨name, _⟩, _, reads⟩ := Option.bind_eq_some_iff.1 reads
    simp only at reads
    split at reads
    · obtain ⟨⟨document, _⟩, read, same⟩ := Option.bind_eq_some_iff.1 reads
      cases same
      exact each _ _ _ read
    · cases reads
  · cases reads

/-- Nothing is read that opens too many brackets at once. -/
theorem levels_le_of_value {depth : Nat} {cs rest : List Char} {document : Document}
    (reads : value depth cs = some (document, rest)) : document.levels ≤ depth := by
  induction depth generalizing cs rest document with
  | zero => exact Nat.le_of_eq (levels_of_scalar reads)
  | succ depth ih =>
    rw [value] at reads
    split at reads
    · obtain ⟨⟨items, _⟩, listed, same⟩ := Option.bind_eq_some_iff.1 reads
      cases same
      exact Document.levels_array_le_iff.2 (bracketed_forall (fun _ _ _ => ih) listed)
    · obtain ⟨⟨members, _⟩, listed, same⟩ := Option.bind_eq_some_iff.1 reads
      cases same
      exact Document.levels_object_le_iff.2
        (bracketed_forall (fun _ _ _ => levels_le_of_member fun _ _ _ => ih) listed)
    · exact (levels_of_scalar reads).trans_le (Nat.zero_le _)

theorem levels_le_of_parse {text : String} {document : Document}
    (parsed : Document.parse text = some document) : document.levels ≤ 127 := by
  obtain ⟨⟨read, rest⟩, reads, parsed⟩ := Option.bind_eq_some_iff.1 parsed
  simp only at parsed
  split_ifs at parsed
  cases parsed
  exact levels_le_of_value reads

end Json

end QueryIso
