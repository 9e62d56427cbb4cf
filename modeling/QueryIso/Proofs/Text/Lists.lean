import QueryIso.Proofs.Text.Apart

/-!
# Lists in texts

Elements and fields are written in the same way, in messages as in JSON: a list of items between
brackets, with a comma and a gap before every item but the first. What holds of such lists holds of
all of them.

`Text.tellsApart_listed`: lists between the same brackets are told apart if their items are.
-/

namespace QueryIso

namespace Text

section

variable {β : Type}

/-- Items, each after a comma and a gap. -/
def others (gap : List Char) (text : β → List Char → List Char) (items : List β)
    (rest : List Char) : List Char :=
  items.foldr (fun item rest => ',' :: (gap ++ text item rest)) rest

/-- Items after gaps, the first after one of its own, with commas between. -/
def listed (first gap : List Char) (text : β → List Char → List Char) :
    List β → List Char → List Char
  | [], rest => rest
  | item :: items, rest => first ++ text item (others gap text items rest)

variable {follows : List Char → Prop} {gap : List Char} {text : β → List Char → List Char}
  {close : Char} (comma : close ≠ ',') (ends : ∀ rest, follows (close :: rest))
  (later : ∀ rest, follows (',' :: rest)) {as bs : List β}
  (items : ∀ a ∈ as, ∀ b ∈ bs, TellsApart follows text a b)
include comma ends later items

theorem tellsApart_others :
    TellsApart (fun rest => ∃ after, rest = close :: after) (others gap text) as bs := by
  rintro _ _ ⟨after, rfl⟩ ⟨after', rfl⟩ same
  have follows_others (items : List β) (after : List Char) :
      follows (others gap text items (close :: after)) := by
    cases items with
    | nil => exact ends after
    | cons item items => exact later _
  induction as generalizing bs with
  | nil =>
    cases bs with
    | nil => exact ⟨rfl, same⟩
    | cons b bs => exact absurd (List.cons.inj same).1 comma
  | cons a as ih =>
    cases bs with
    | nil => exact absurd (List.cons.inj same).1.symm comma
    | cons b bs =>
      have here : text a (others gap text as (close :: after)) =
          text b (others gap text bs (close :: after')) :=
        List.append_cancel_left (List.cons.inj same).2
      obtain ⟨rfl, rest⟩ := items a List.mem_cons_self b List.mem_cons_self _ _
        (follows_others as after) (follows_others bs after') here
      have tails : ∀ a ∈ as, ∀ b ∈ bs, TellsApart follows text a b := fun a mem b mem' =>
        items a (List.mem_cons_of_mem _ mem) b (List.mem_cons_of_mem _ mem')
      obtain ⟨rfl, brackets⟩ := ih tails rest
      exact ⟨rfl, brackets⟩

/-- Lists up to the same closing bracket are told apart if their items are, and do not start with
that bracket. -/
theorem tellsApart_listed (opens : ∀ item ∈ as ++ bs, ∀ rest, (text item rest).head? ≠ some close) :
    TellsApart (fun rest => ∃ after, rest = close :: after) (listed [] gap text) as bs := by
  rintro _ _ ⟨after, rfl⟩ ⟨after', rfl⟩ same
  cases as with
  | nil =>
    cases bs with
    | nil => exact ⟨rfl, same⟩
    | cons b bs => exact (opens b (by simp) _ (congrArg List.head? same).symm).elim
  | cons a as =>
    cases bs with
    | nil => exact (opens a (by simp) _ (congrArg List.head? same)).elim
    | cons b bs =>
      -- The first item of a list is one of the others after a comma and a gap.
      exact tellsApart_others comma ends later items _ _ ⟨after, rfl⟩ ⟨after', rfl⟩
        (congrArg (fun rest => ',' :: (gap ++ rest)) same)

end

end Text

end QueryIso
