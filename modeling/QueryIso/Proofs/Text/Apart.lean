import Mathlib.Tactic.Common

/-!
# Texts that tell values apart

A text stands in front of other characters. It tells values apart if, in front of whatever may
follow, two of them are the same characters only for the same value, so that a reader knows both the
value and where its text ends. Where there is a reader, that is what it shows:

* `Text.tellsApart_of_readsBack`: values that one reader reads back are told apart;
* `Text.tellsApart_flatMap`: so are lists of them, written one after the other.
-/

namespace QueryIso

namespace Text

/-- The longest run of characters of one kind ends where another kind starts. -/
theorem span_append {p : Char → Bool} {run rest : List Char} (all : ∀ c ∈ run, p c)
    (stop : ∀ c ∈ rest.head?, p c = false) :
    (run ++ rest).takeWhile p = run ∧ (run ++ rest).dropWhile p = rest := by
  rw [List.takeWhile_append_of_pos all, List.dropWhile_append_of_pos all]
  cases rest with
  | nil => simp
  | cons c rest => simp [stop c rfl]

section

variable {α : Type}

/-- In front of what may follow, two values have the same text only if they are the same, and then
what follows is the same too. -/
def TellsApart (follows : List Char → Prop) (text : α → List Char → List Char) (a b : α) : Prop :=
  ∀ rest rest', follows rest → follows rest' → text a rest = text b rest' → a = b ∧ rest = rest'

/-- The reader reads the text as the value, up to what follows. -/
def ReadsBack (follows : List Char → Prop) (read : List Char → Option (α × List Char))
    (text : α → List Char) (a : α) : Prop :=
  ∀ rest, follows rest → read (text a ++ rest) = some (a, rest)

theorem TellsApart.symm {follows : List Char → Prop} {text : α → List Char → List Char} {a b : α}
    (apart : TellsApart follows text a b) : TellsApart follows text b a := by
  intro rest rest' ends ends' same
  obtain ⟨rfl, rfl⟩ := apart rest' rest ends' ends same.symm
  exact ⟨rfl, rfl⟩

variable {follows : List Char → Prop} {read : List Char → Option (α × List Char)}
  {text : α → List Char}

theorem tellsApart_of_readsBack {a b : α} (first : ReadsBack follows read text a)
    (second : ReadsBack follows read text b) :
    TellsApart follows (fun a rest => text a ++ rest) a b := by
  intro rest rest' ends ends' same
  have read : some (a, rest) = some (b, rest') :=
    (first rest ends).symm.trans ((congrArg read same).trans (second rest' ends'))
  cases read
  exact ⟨rfl, rfl⟩

/-- What follows a list of values is what the reader of one value refuses. -/
theorem tellsApart_flatMap {as bs : List α} (first : ∀ a ∈ as, ReadsBack follows read text a)
    (second : ∀ b ∈ bs, ReadsBack follows read text b)
    (starts : ∀ a rest, follows rest → follows (text a ++ rest)) :
    TellsApart (fun rest => follows rest ∧ read rest = none)
      (fun as rest => as.flatMap text ++ rest) as bs := by
  have later (as : List α) {rest : List Char} (ends : follows rest) :
      follows (as.flatMap text ++ rest) := by
    induction as with
    | nil => exact ends
    | cons a as ih =>
      rw [List.flatMap_cons, List.append_assoc]
      exact starts a _ ih
  rintro rest rest' ⟨ends, refused⟩ ⟨ends', refused'⟩ same
  dsimp only at same
  induction as generalizing bs with
  | nil =>
    cases bs with
    | nil => exact ⟨rfl, same⟩
    | cons b bs =>
      rw [List.flatMap_nil, List.nil_append, List.flatMap_cons, List.append_assoc] at same
      rw [same, second b List.mem_cons_self _ (later bs ends')] at refused
      cases refused
  | cons a as ih =>
    obtain ⟨readsFirst, readsOthers⟩ := List.forall_mem_cons.1 first
    rw [List.flatMap_cons, List.append_assoc] at same
    cases bs with
    | nil =>
      rw [List.flatMap_nil, List.nil_append] at same
      rw [← same, readsFirst _ (later as ends)] at refused'
      cases refused'
    | cons b bs =>
      obtain ⟨readsFirst', readsOthers'⟩ := List.forall_mem_cons.1 second
      rw [List.flatMap_cons, List.append_assoc] at same
      obtain ⟨rfl, others⟩ := tellsApart_of_readsBack readsFirst readsFirst' _ _ (later as ends)
        (later bs ends') same
      obtain ⟨rfl, rfl⟩ := ih readsOthers readsOthers' others
      exact ⟨rfl, rfl⟩

end

end Text

end QueryIso
