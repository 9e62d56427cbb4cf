import QueryIso.Proofs.Json.Numbers
import QueryIso.Proofs.Json.Strings
import QueryIso.Proofs.Text.Lists

/-!
# Lists in brackets

Arrays and objects are one construct, a list of items in brackets with commas between and blanks
around. What is proved of it holds for any reader and any writer of items:

* `bracketed_listed`: if written items are read back, so are lists of them, and one item that is
  refused makes the list refused;
* `bracketed_forall`: what holds of every item that is read holds of all items of a list.
-/

namespace QueryIso

namespace Json

open Text (others listed)

/-! ## Blanks -/

/-- Only blanks. -/
def Blank (cs : List Char) : Prop :=
  ∀ c ∈ cs, isBlank c

theorem blank_nil : Blank [] :=
  List.forall_mem_nil _

theorem skipBlanks_append {blanks : List Char} (blank : Blank blanks) (cs : List Char) :
    skipBlanks (blanks ++ cs) = skipBlanks cs :=
  List.dropWhile_append_of_pos blank

theorem skipBlanks_cons {c : Char} (visible : isBlank c = false) (cs : List Char) :
    skipBlanks (c :: cs) = c :: cs := by
  simp [skipBlanks, visible]

theorem Ends.append {blanks rest : List Char} (blank : Blank blanks) (ends : Ends rest) :
    Ends (blanks ++ rest) := by
  cases blanks with
  | nil => exact ends
  | cons c blanks =>
    rintro _ ⟨⟩
    exact .inl (blank c List.mem_cons_self)

theorem ends_comma (rest : List Char) : Ends (',' :: rest) := by
  rintro _ ⟨⟩
  exact .inr (.inl rfl)

theorem ends_close {close : Char} (closing : close = ']' ∨ close = '}') (rest : List Char) :
    Ends (close :: rest) := by
  rintro _ ⟨⟩
  exact .inr (.inr closing)

/-! ## Texts in front of other texts -/

/-- The text starts with a character that is neither a blank nor a closing bracket, and keeps all
that follows it. -/
def Opens (text : List Char → List Char) : Prop :=
  ∀ rest, ∃ c cs, text rest = c :: cs ∧ isBlank c = false ∧ c ≠ ']' ∧ c ≠ '}' ∧
    rest.length ≤ cs.length

/-- The reader reads the text up to what follows it, or refuses it. -/
def ReadBy {α : Type} (read : List Char → Option (α × List Char)) (text : List Char → List Char)
    (result : Option α) : Prop :=
  ∀ lead rest, Blank lead → Ends rest →
    read (lead ++ text rest) = result.map fun value => (value, rest)

section

variable {α : Type} {close : Char} {read : List Char → Option (α × List Char)}
  {text : α → List Char → List Char} {ok : α → Prop} [DecidablePred ok] {gap : List Char}

theorem length_others {items : List α} (opens : ∀ item ∈ items, Opens (text item))
    (rest : List Char) : items.length + rest.length ≤ (others gap text items rest).length := by
  induction items with
  | nil => simp [others]
  | cons item items ih =>
    obtain ⟨first, later⟩ := List.forall_mem_cons.1 opens
    obtain ⟨c, cs, starts, _, _, _, keeps⟩ := first (others gap text items rest)
    have := ih later
    change _ ≤ (',' :: (gap ++ text item (others gap text items rest))).length
    simp only [starts, List.length_cons, List.length_append]
    omega

theorem opens_listed {bracket : Char} (opening : bracket = '[' ∨ bracket = '{') {items : List α}
    (opens : ∀ item ∈ items, Opens (text item)) (close : Char) (before : List Char) :
    Opens fun rest => bracket :: listed gap gap text items
      (if items.isEmpty then close :: rest else before ++ close :: rest) := by
  intro rest
  refine ⟨bracket, _, rfl, ?_, ?_, ?_, ?_⟩
  iterate 3 rcases opening with rfl | rfl <;> decide
  cases items with
  | nil => simp [listed]
  | cons first items =>
    obtain ⟨openFirst, openOthers⟩ := List.forall_mem_cons.1 opens
    obtain ⟨c, cs, starts, _, _, _, keeps⟩ :=
      openFirst (others gap text items (before ++ close :: rest))
    have count : items.length + (before ++ close :: rest).length ≤
        (others gap text items (before ++ close :: rest)).length := length_others openOthers _
    simp only [listed, List.isEmpty_cons, Bool.false_eq_true, if_false, starts, List.length_append,
      List.length_cons] at count ⊢
    omega

theorem itemsUpTo_none {fuel : Nat} {cs : List Char} (refused : read cs = none) :
    itemsUpTo close read (fuel + 1) cs = none := by
  rw [itemsUpTo, refused]
  rfl

theorem itemsUpTo_close {fuel : Nat} {cs before rest : List Char} {value : α}
    (visible : isBlank close = false) (blank : Blank before)
    (first : read cs = some (value, before ++ close :: rest)) :
    itemsUpTo close read (fuel + 1) cs = some ([value], rest) := by
  simp [itemsUpTo, first, skipBlanks_append blank, skipBlanks_cons visible]

theorem itemsUpTo_comma {fuel : Nat} {cs rest : List Char} {value : α} (comma : close ≠ ',')
    (first : read cs = some (value, ',' :: rest)) :
    itemsUpTo close read (fuel + 1) cs =
      (itemsUpTo close read fuel rest).map fun later => (value :: later.1, later.2) := by
  have visible : isBlank ',' = false := rfl
  simp only [itemsUpTo, first, Option.bind_eq_bind, Option.bind_some, skipBlanks_cons visible,
    comma.symm, if_true, if_false]
  cases itemsUpTo close read fuel rest <;> rfl

/-- A list of at least one item is read item by item. -/
theorem itemsUpTo_others (comma : close ≠ ',') (visible : isBlank close = false)
    (blank : Blank gap) {first : α} {items : List α}
    (reads : ∀ item ∈ first :: items,
      ReadBy read (text item) (if ok item then some item else none))
    {lead before rest : List Char} (blankLead : Blank lead) (blankBefore : Blank before)
    (ends : Ends (close :: rest)) {fuel : Nat} (enough : items.length < fuel) :
    itemsUpTo close read fuel
        (lead ++ text first (others gap text items (before ++ close :: rest))) =
      if ∀ item ∈ first :: items, ok item then some (first :: items, rest)
      else none := by
  -- What stands before the first item varies: nothing after the bracket, a gap after a comma.
  induction items generalizing first lead fuel with
  | nil =>
    obtain ⟨fuel, rfl⟩ := Nat.exists_eq_succ_of_ne_zero (Nat.ne_of_gt enough)
    have read := reads first List.mem_cons_self lead _ blankLead (ends.append blankBefore)
    by_cases accepted : ok first
    · rw [if_pos accepted] at read
      exact (itemsUpTo_close visible blankBefore read).trans (by simp [accepted])
    · rw [if_neg accepted] at read
      exact (itemsUpTo_none read).trans (by simp [accepted])
  | cons second items ih =>
    obtain ⟨fuel, rfl⟩ := Nat.exists_eq_succ_of_ne_zero (Nat.ne_of_gt (Nat.zero_lt_of_lt enough))
    obtain ⟨readFirst, readOthers⟩ := List.forall_mem_cons.1 reads
    have read := readFirst lead _ blankLead
      (ends_comma (gap ++ text second (others gap text items (before ++ close :: rest))))
    by_cases accepted : ok first
    · rw [if_pos accepted] at read
      refine (itemsUpTo_comma comma read).trans ?_
      rw [ih readOthers blank (Nat.lt_of_succ_lt_succ enough)]
      split <;> simp_all
    · rw [if_neg accepted] at read
      exact (itemsUpTo_none read).trans (by simp [accepted])

/-- Lists of items are read back. -/
theorem bracketed_listed (closing : close = ']' ∨ close = '}') (blank : Blank gap)
    {items : List α} (opens : ∀ item ∈ items, Opens (text item))
    (reads : ∀ item ∈ items, ReadBy read (text item) (if ok item then some item else none))
    {before : List Char} (blankBefore : Blank before) (rest : List Char) :
    bracketed close read (listed gap gap text items
        (if items.isEmpty then close :: rest else before ++ close :: rest)) =
      if ∀ item ∈ items, ok item then some (items, rest) else none := by
  have visible : isBlank close = false := by rcases closing with rfl | rfl <;> rfl
  have comma : close ≠ ',' := by rcases closing with rfl | rfl <;> decide
  cases items with
  | nil => simp [listed, bracketed, skipBlanks_cons visible]
  | cons first items =>
    have ends := ends_close closing rest
    obtain ⟨c, cs, starts, shown, array, object, keeps⟩ :=
      opens first List.mem_cons_self (others gap text items (before ++ close :: rest))
    have other : c ≠ close := by rcases closing with rfl | rfl <;> assumption
    have count : items.length + (before ++ close :: rest).length ≤
        (others gap text items (before ++ close :: rest)).length :=
      length_others (List.forall_mem_cons.1 opens).2 _
    -- The first item, a comma for each other and the bracket are more characters than items.
    have enough : items.length < cs.length := by
      simp only [List.length_append, List.length_cons] at count
      omega
    have read := itemsUpTo_others comma visible blank reads blank_nil blankBefore ends enough
    rw [List.nil_append, starts] at read
    simp only [listed, List.isEmpty_cons, Bool.false_eq_true, if_false, bracketed,
      skipBlanks_append blank, starts, skipBlanks_cons shown, other, read]

end

/-! ## What is read -/

section

variable {α : Type} {close : Char} {read : List Char → Option (α × List Char)} {holds : α → Prop}
  (each : ∀ cs value rest, read cs = some (value, rest) → holds value)
include each

theorem itemsUpTo_forall {fuel : Nat} {cs rest : List Char} {values : List α}
    (listed : itemsUpTo close read fuel cs = some (values, rest)) :
    ∀ value ∈ values, holds value := by
  induction fuel generalizing cs values rest with
  | zero => cases listed
  | succ fuel ih =>
    simp only [itemsUpTo, Option.bind_eq_bind, Option.bind_eq_some_iff] at listed
    obtain ⟨⟨first, later⟩, readFirst, listed⟩ := listed
    have holdsFirst := each _ _ _ readFirst
    split at listed
    · cases listed
    · split at listed
      · cases listed
        simpa using holdsFirst
      · split at listed
        · obtain ⟨⟨others, after⟩, readOthers, listed⟩ := Option.bind_eq_some_iff.1 listed
          cases listed
          exact List.forall_mem_cons.2 ⟨holdsFirst, ih readOthers⟩
        · cases listed

/-- What holds of every item that is read holds of all items of a list. -/
theorem bracketed_forall {cs rest : List Char} {values : List α}
    (listed : bracketed close read cs = some (values, rest)) : ∀ value ∈ values, holds value := by
  unfold bracketed at listed
  split at listed
  · cases listed
  · split at listed
    · cases listed
      simp
    · exact itemsUpTo_forall each listed

end

end Json

end QueryIso
