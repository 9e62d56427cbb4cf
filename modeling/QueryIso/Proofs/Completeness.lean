import Mathlib.Data.Set.Function
import QueryIso.Proofs.Soundness

/-!
# Which isomorphisms are not missed

What a sequence has bound stays bound for what comes after it, so a comparison may miss an
isomorphism. It misses none of a *safe* tree, where every sequence could have been matched in any
other way as well: going on from whichever bindings were found, some isomorphism still fits.

* `Tree.Safe`: what a sequence must not do to what comes after it in document order;
* `Tree.isRenaming_imageOr`: an isomorphism and the bindings found for a part of it make a renaming;
* `Tree.safe_complete`: a search that starts within an isomorphism from a safe tree succeeds;
* `Tree.found_of_isomorphism`: so a comparison of isomorphic trees finds bindings.
-/

namespace QueryIso

namespace Tree

/-- An isomorphism can be undone. -/
theorem Isomorphism.exists_back {image : String → String} {tree other : Tree}
    (iso : Isomorphism image tree other) :
    ∃ back, Isomorphism back other tree ∧
      ∀ text ∈ tree.identifiers.names, back (image text) = text := by
  let names : Set String := {text | text ∈ tree.identifiers.names}
  have injective : Set.InjOn image names :=
    fun a memA b memB same => iso.injective a memA b memB same
  have undone : ∀ text ∈ tree.identifiers.names,
      Function.invFunOn image names (image text) = text :=
    fun text mem => injective.leftInvOn_invFunOn mem
  exact ⟨_, iso.symm undone, undone⟩

/-- Going there by one isomorphism and back by another one. -/
theorem Isomorphism.exists_round {image next : String → String} {tree other : Tree}
    (there : Isomorphism next tree other) (iso : Isomorphism image tree other) :
    ∃ round, Isomorphism round tree tree ∧
      (∀ text ∈ tree.identifiers.names, image (round text) = next text) ∧
      ∀ text ∉ tree.identifiers.names, round text = text := by
  obtain ⟨back, returns, undone⟩ := iso.exists_back
  let round (text : String) : String :=
    if text ∈ tree.identifiers.names then back (next text) else text
  have agree : ∀ text ∈ tree.identifiers.names, round text = (back ∘ next) text :=
    fun _ mem => if_pos mem
  refine ⟨round, (there.trans returns).congr agree, ?_, fun _ outside => if_neg outside⟩
  intro text mem
  obtain ⟨source, memS, same⟩ := iso.mem_iff.1 (there.image_mem mem)
  rw [agree text mem, Function.comp_apply, ← same, undone source memS]

/-- Every isomorphism of the tree with itself that leaves the identifiers before the tree as they
are leaves the trees after it as they are, up to order. -/
def Neutral (tree : Tree) (before : String → Prop) (after : List Tree) : Prop :=
  ∀ image, Isomorphism image tree tree →
    (∀ text, before text ∨ text ∉ tree.identifiers.names → image text = text) →
    ∀ next ∈ after, (next.rename image).Reordered next

mutual

/-- Every sequence of the tree is neutral between what comes before it and what comes after it in
document order. -/
def SafeBetween : Tree → (String → Prop) → List Tree → Prop
  | .scalar _, _, _ => True
  | .sequence items, before, after =>
    (sequence items).Neutral before after ∧ SafeItems items before after
  | .record fields, before, after => SafeFields fields before after

/-- Every sequence of these elements is neutral. -/
def SafeItems : List Tree → (String → Prop) → List Tree → Prop
  | [], _, _ => True
  | item :: rest, before, after =>
    item.SafeBetween before (rest ++ after) ∧
      SafeItems rest (fun text => before text ∨ item.Mentions text) after

/-- Every sequence of these fields is neutral. -/
def SafeFields {bound : Option String} :
    Entries Tree bound → (String → Prop) → List Tree → Prop
  | .nil, _, _ => True
  | .cons _ _ value rest, before, after =>
    value.SafeBetween before (rest.values ++ after) ∧
      SafeFields rest (fun text => before text ∨ value.Mentions text) after

end

/-- Every sequence of the tree is neutral to the rest of the tree: as long as the identifiers before
it stay, no isomorphism of the sequence with itself makes a difference after it. -/
def Safe (tree : Tree) : Prop :=
  tree.SafeBetween (fun _ => False) []

theorem safeFields_iff {bound : Option String} {fields : Entries Tree bound}
    {before : String → Prop} {after : List Tree} :
    SafeFields fields before after ↔ SafeItems fields.values before after := by
  induction fields generalizing before with
  | nil => exact Iff.rfl
  | cons name above value rest ih => rw [SafeFields, ih, Entries.values_cons, SafeItems]

/-- Elements that are safe wherever they stand can come before others. -/
theorem safeItems_append {front rest : List Tree} {after : List Tree}
    (each : ∀ item ∈ front, ∀ before after, item.SafeBetween before after)
    (safe : ∀ before, SafeItems rest before after) (before : String → Prop) :
    SafeItems (front ++ rest) before after := by
  induction front generalizing before with
  | nil => exact safe before
  | cons item front ih =>
    exact ⟨each item List.mem_cons_self _ _,
      ih (fun other mem => each other (List.mem_cons_of_mem _ mem)) _⟩

theorem safeItems_of_forall {items : List Tree} {after : List Tree}
    (each : ∀ item ∈ items, ∀ before after, item.SafeBetween before after)
    (before : String → Prop) : SafeItems items before after := by
  have nothing : ∀ before, SafeItems [] before after := fun _ => trivial
  rw [← List.append_nil items]
  exact safeItems_append each nothing before

theorem neutral_of_fixed {tree : Tree} {before : String → Prop} {after : List Tree}
    (fixed : ∀ image, Isomorphism image tree tree →
      (∀ text ∉ tree.identifiers.names, image text = text) →
      ∀ next ∈ after, ∀ text, next.Mentions text → image text = text) :
    tree.Neutral before after := by
  intro image iso still next mem
  have unchanged : next.rename image = next :=
    rename_eq_self (fixed image iso (fun text outside => still text (.inr outside)) next mem)
  rw [unchanged]
  exact .refl next

end Tree

/-- What an identifier is bound to, or its image. -/
def Bindings.imageOr (bindings : Bindings) (image : String → String) (text : String) : String :=
  (bindings.get? text).getD (image text)

namespace Tree

section
variable {image : String → String} {among : String → Prop} {tree actual : Tree}
  {start found : Bindings}

/-- The table found for a tree within an isomorphism, and the isomorphism elsewhere. -/
theorem imageOr_eq (follows : start.Follows image among) (grows : start.Grows found tree.Mentions)
    {text : String} (outside : ¬ tree.Mentions text) : found.imageOr image text = image text := by
  rw [Bindings.imageOr]
  cases bound : found.get? text with
  | none => rfl
  | some target =>
    have before := (grows.added text target bound).resolve_right outside
    exact (follows.agrees text target before).2

theorem imageOr_of_mentions (linked : Linked found tree actual) {text : String}
    (mentioned : tree.Mentions text) : found.imageOr image text = found.image text := by
  obtain ⟨target, bound, _⟩ := linked.bound text mentioned
  rw [Bindings.imageOr, bound, Bindings.image_of_get? bound, Option.getD_some]

/-- The table found binds identifiers to images of bound identifiers. -/
theorem exists_source (follows : start.Follows image among)
    (grows : start.Grows found tree.Mentions) (linked : Linked found tree actual)
    (inside : ∀ text, tree.Mentions text → among text) (iso : Isomorphism image tree actual)
    {text target : String} (bound : found.get? text = some target) :
    ∃ source other, among source ∧ image source = target ∧ found.get? source = some other := by
  rcases grows.added text target bound with before | mentioned
  · obtain ⟨mem, same⟩ := follows.agrees text target before
    exact ⟨text, target, mem, same.symm, bound⟩
  · have isoFound := linked.isomorphism grows.oneToOne
    have mem := isoFound.image_mem (mem_identifiers_iff.2 mentioned)
    obtain ⟨source, memSource, same⟩ := iso.mem_iff.1 mem
    obtain ⟨other, boundSource, _⟩ := linked.bound source (mem_identifiers_iff.1 memSource)
    rw [Bindings.image_of_get? bound] at same
    exact ⟨source, other, inside source (mem_identifiers_iff.1 memSource), same, boundSource⟩

/-- An isomorphism, replaced on a tree by the bindings found for it, is still one to one. -/
theorem isRenaming_imageOr (renames : IsRenaming image among) (follows : start.Follows image among)
    (grows : start.Grows found tree.Mentions) (linked : Linked found tree actual)
    (inside : ∀ text, tree.Mentions text → among text) (iso : Isomorphism image tree actual) :
    IsRenaming (found.imageOr image) among where
  kinds text mem := by
    by_cases mentioned : tree.Mentions text
    · rw [imageOr_of_mentions linked mentioned]
      exact linked.keeps text mentioned
    · rw [imageOr_eq follows grows mentioned]
      exact renames.kinds text mem
  injective a memA b memB same := by
    -- a taken image belongs to a bound identifier, so no other identifier can have it
    have apart {bound free target : String} (here : found.get? bound = some target)
        (memFree : among free) (unbound : found.get? free = none) : target ≠ image free := by
      rintro rfl
      obtain ⟨source, other, memSource, image, there⟩ :=
        exists_source follows grows linked inside iso here
      rw [renames.injective source memSource free memFree image, unbound] at there
      cases there
    unfold Bindings.imageOr at same
    cases boundA : found.get? a with
    | some target =>
      cases boundB : found.get? b with
      | some target' =>
        rw [boundA, boundB] at same
        have same : target = target' := same
        exact grows.oneToOne.injective boundA (same ▸ boundB)
      | none =>
        rw [boundA, boundB] at same
        exact (apart boundA memB boundB same).elim
    | none =>
      cases boundB : found.get? b with
      | some target =>
        rw [boundA, boundB] at same
        exact (apart boundB memA boundA same.symm).elim
      | none =>
        rw [boundA, boundB] at same
        exact renames.injective a memA b memB same

/-- The table follows a renaming that does not differ from the given one after the tree. -/
def Continues (image : String → String) (among : String → Prop) (after : List Tree)
    (reached : Bindings) : Prop :=
  ∃ next, IsRenaming next among ∧ reached.Follows next among ∧
    ∀ tree ∈ after, (tree.rename next).Reordered (tree.rename image)

/-- Matching within an isomorphism succeeds, and leaves an isomorphism for what comes after. -/
def Completes (among : String → Prop) (tree : Tree) (before : String → Prop)
    (after : List Tree) : Prop :=
  ∀ image actual start, IsRenaming image among → start.Follows image among →
    (∀ text, before text → ∃ target, start.get? text = some target) →
    (tree.rename image).Reordered actual →
    ∃ reached, tree.match? actual start = some reached ∧ Continues image among after reached

theorem continues_self (renames : IsRenaming image among) (follows : start.Follows image among)
    (after : List Tree) : Continues image among after start :=
  ⟨image, renames, follows, fun _ _ => .refl _⟩

/-- What is found for a neutral tree fits what comes after it. -/
theorem continues_of_neutral {before : String → Prop} {after : List Tree}
    (renames : IsRenaming image among) (follows : start.Follows image among)
    (bound : ∀ text, before text → ∃ target, start.get? text = some target)
    (inside : ∀ text, tree.Mentions text → among text) (neutral : tree.Neutral before after)
    (iso : Isomorphism image tree actual) (grows : start.Grows found tree.Mentions)
    (linked : Linked found tree actual) : Continues image among after found := by
  have isoFound := linked.isomorphism grows.oneToOne
  obtain ⟨round, itself, returns, still⟩ := isoFound.exists_round iso
  -- what was bound before the tree is what the isomorphism says, so the round trip leaves it
  have fixed : ∀ text, before text ∨ text ∉ tree.identifiers.names → round text = text := by
    rintro text (early | outside)
    · by_cases mem : text ∈ tree.identifiers.names
      · obtain ⟨target, here⟩ := bound text early
        apply iso.injective _ (itself.image_mem mem) _ mem
        rw [returns text mem, Bindings.image_of_get? (grows.kept text target here)]
        exact (follows.agrees text target here).2
      · exact still text mem
    · exact still text outside
  have combined : ∀ text, found.imageOr image text = image (round text) := by
    intro text
    by_cases mem : text ∈ tree.identifiers.names
    · rw [returns text mem, imageOr_of_mentions linked (mem_identifiers_iff.1 mem)]
    · rw [still text mem, imageOr_eq follows grows (mt mem_identifiers_iff.2 mem)]
  refine ⟨found.imageOr image, isRenaming_imageOr renames follows grows linked inside iso,
    ⟨grows.oneToOne, ?_⟩, ?_⟩
  · intro text target here
    refine ⟨?_, by rw [Bindings.imageOr, here, Option.getD_some]⟩
    rcases grows.added text target here with early | mentioned
    · exact (follows.agrees text target early).1
    · exact inside text mentioned
  · intro next mem
    have keeps : next.KeepsKinds round := by
      intro text _
      by_cases mem : text ∈ tree.identifiers.names
      · exact itself.keepsKinds text mem
      · rw [still text mem]
    rw [rename_congr fun text _ => combined text, ← Function.comp_def image round,
      ← rename_rename keeps]
    exact (neutral round itself fixed next mem).rename image

/-- Elements are matched one after the other, each within an isomorphism that fits what the ones
before it have bound. -/
theorem along_completes {items paired : List Tree} {before : String → Prop} {after : List Tree}
    (each : ∀ item ∈ items, ∀ before after, item.SafeBetween before after →
      Completes among item before after)
    (safe : SafeItems items before after) (renames : IsRenaming image among)
    (follows : start.Follows image among)
    (bound : ∀ text, before text → ∃ target, start.get? text = some target)
    (pairs : List.Forall₂ (fun item actual => (item.rename image).Reordered actual) items paired) :
    ∃ reached, Matching.along match? items paired start = some reached ∧
      Continues image among after reached := by
  induction items generalizing image start paired before with
  | nil =>
    cases pairs
    exact ⟨start, rfl, continues_self renames follows after⟩
  | cons item rest ih =>
    cases pairs with
    | @cons _ actual _ others same pairs =>
      obtain ⟨next, here, image', renames', follows', agree⟩ :=
        each item List.mem_cons_self before _ safe.1 image actual start renames follows bound same
      obtain ⟨grows, linked⟩ := match?_sound item actual start next follows.oneToOne here
      have bound' : ∀ text, before text ∨ item.Mentions text →
          ∃ target, next.get? text = some target := by
        rintro text (early | mentioned)
        · obtain ⟨target, here⟩ := bound text early
          exact ⟨target, grows.kept text target here⟩
        · obtain ⟨target, here, _⟩ := linked.bound text mentioned
          exact ⟨target, here⟩
      have pairs' : List.Forall₂ (fun item actual => (item.rename image').Reordered actual)
          rest others :=
        Reordered.forall₂_of_mem pairs fun item mem _ same =>
          (agree item (List.mem_append_left after mem)).trans same
      obtain ⟨reached, later, image'', renames'', follows'', agree'⟩ :=
        ih (fun other mem => each other (List.mem_cons_of_mem _ mem)) safe.2 renames' follows'
          bound' pairs'
      refine ⟨reached, Matching.along_cons_iff.2 ⟨next, here, later⟩, image'', renames'', follows'',
        fun tree mem => ?_⟩
      exact (agree' tree mem).trans (agree tree (List.mem_append_right rest mem))

end

section
variable {among : String → Prop}

theorem identifier_completes {text : String} {kind : IdKind} (known : IdKind.of? text = some kind)
    (mem : among text) (before : String → Prop) (after : List Tree) :
    Completes among (str text) before after := by
  intro image actual start renames follows _ same
  rw [rename_str known] at same
  cases same with
  | scalar _ =>
    have known' : IdKind.of? (image text) = some kind := (renames.kinds text mem).trans known
    obtain ⟨reached, bound, follows'⟩ := follows.bind renames.injective mem
    refine ⟨reached, ?_, continues_self renames follows' after⟩
    rw [← str, match?_identifier known, if_pos known', bound]
    rfl

theorem plain_completes {value : Scalar} (plain : value.idKind? = none) (before : String → Prop)
    (after : List Tree) : Completes among (.scalar value) before after := by
  intro image actual start renames follows _ same
  rw [rename_plain plain] at same
  cases same with
  | scalar _ =>
    exact ⟨start, by rw [match?_plain plain, if_pos rfl], continues_self renames follows after⟩

/-- The search may find another pairing of the elements than the one that is known to exist. -/
theorem sequence_completes {items : List Tree} {before : String → Prop} {after : List Tree}
    (each : ∀ item ∈ items, ∀ before after, item.SafeBetween before after →
      Completes among item before after)
    (inside : ∀ text, (sequence items).Mentions text → among text)
    (safe : (sequence items).SafeBetween before after) :
    Completes among (.sequence items) before after := by
  intro image actual start renames follows bound same
  have iso : Isomorphism image (.sequence items) actual :=
    ⟨fun text mem => renames.kinds text (inside text (mem_identifiers_iff.1 mem)),
      fun a memA b memB => renames.injective a (inside a (mem_identifiers_iff.1 memA)) b
        (inside b (mem_identifiers_iff.1 memB)), same⟩
  rw [rename_sequence] at same
  cases same with
  | sequence pairs order =>
    obtain ⟨_, accepted, _⟩ :=
      along_completes each safe.2 renames follows bound (List.forall₂_map_left_iff.1 pairs)
    -- the search need not find the pairing that is known, but it does find one
    obtain ⟨found, success⟩ := Matching.find?_complete order accepted
    rw [← match?_sequence] at success
    obtain ⟨grows, linked⟩ := match?_sound _ _ _ _ follows.oneToOne success
    exact ⟨found, success,
      continues_of_neutral renames follows bound inside safe.1 iso grows linked⟩

theorem record_completes {fields : Dict Tree} {before : String → Prop} {after : List Tree}
    (each : ∀ value ∈ fields.values, ∀ before after, value.SafeBetween before after →
      Completes among value before after)
    (safe : (record fields).SafeBetween before after) :
    Completes among (.record fields) before after := by
  intro image actual start renames follows bound same
  rw [rename_record] at same
  cases same with
  | record names pairs =>
    rw [Entries.names_map] at names
    rw [Entries.values_map] at pairs
    obtain ⟨reached, accepted, continues⟩ := along_completes each (safeFields_iff.1 safe) renames
      follows bound (List.forall₂_map_left_iff.1 pairs)
    exact ⟨reached, by rw [match?_record, if_pos names, accepted], continues⟩

/-- A search for a safe tree that starts within an isomorphism succeeds. -/
theorem safe_complete {tree : Tree} (inside : ∀ text, tree.Mentions text → among text)
    {before : String → Prop} {after : List Tree} (safe : tree.SafeBetween before after) :
    Completes among tree before after := by
  induction tree generalizing before after with
  | identifier text kind known =>
    exact identifier_completes known (inside text ((mentions_str known).2 rfl)) before after
  | plain value plain => exact plain_completes plain before after
  | sequence items ih =>
    refine sequence_completes (fun item mem before after => ih item mem ?_) inside safe
    exact fun text mentioned => inside text (mentions_sequence.2 ⟨item, mem, mentioned⟩)
  | record fields ih =>
    refine record_completes (fun value mem before after => ih value mem ?_) safe
    exact fun text mentioned => inside text (mentions_record.2 ⟨value, mem, mentioned⟩)

end

/-- A comparison finds bindings for a safe tree and any tree that is isomorphic to it. -/
theorem found_of_isomorphism {image : String → String} {expected actual : Tree}
    (safe : expected.Safe) (iso : Isomorphism image expected actual) :
    ∃ bindings, expected.verdict? actual = some bindings := by
  have completes : Completes expected.Mentions expected (fun _ => False) [] :=
    safe_complete (fun _ mentioned => mentioned) safe
  obtain ⟨bindings, success, _⟩ := completes image actual .empty ⟨iso.keeps, iso.separates⟩
    (Bindings.follows_empty image _) (fun _ impossible => impossible.elim) iso.reordered
  have counts : expected.counts = actual.counts := iso.census_eq
  exact ⟨bindings, (if_pos counts).trans success⟩

end Tree

end QueryIso
