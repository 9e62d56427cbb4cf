import QueryIso.Proofs.Limits
import QueryIso.Proofs.Reordering
import QueryIso.Proofs.Verdicts

/-!
# Positive verdicts are certain

A successful match grows the table it starts from by bindings of identifiers of the expected tree,
and the table reached makes that tree equal to the actual one up to order:

* `Tree.match?_sound`: this holds from every one to one table, whatever was tried on the way;
* `Tree.found_isomorphism`: the bindings that a comparison finds are an isomorphism between the
  trees.
-/

namespace QueryIso

namespace Bindings

/-- What an identifier is bound to, or itself. -/
def image (bindings : Bindings) (text : String) : String :=
  (bindings.get? text).getD text

theorem image_of_get? {bindings : Bindings} {text target : String}
    (bound : bindings.get? text = some target) : bindings.image text = target := by
  rw [image, bound, Option.getD_some]

/-- The table reached has the bindings of the start, and otherwise only binds identifiers that are
mentioned. -/
structure Grows (start reached : Bindings) (mentioned : String → Prop) : Prop where
  oneToOne : reached.OneToOne
  kept : ∀ text target, start.get? text = some target → reached.get? text = some target
  added : ∀ text target, reached.get? text = some target →
    start.get? text = some target ∨ mentioned text

namespace Grows

variable {start next reached : Bindings} {mentioned also : String → Prop}

theorem refl (oneToOne : start.OneToOne) (mentioned : String → Prop) :
    start.Grows start mentioned :=
  ⟨oneToOne, fun _ _ bound => bound, fun _ _ bound => .inl bound⟩

theorem trans (first : start.Grows next mentioned) (second : next.Grows reached also) :
    start.Grows reached fun text => mentioned text ∨ also text where
  oneToOne := second.oneToOne
  kept text target bound := second.kept text target (first.kept text target bound)
  added text target bound := by
    rcases second.added text target bound with before | new
    · rcases first.added text target before with before | new
      · exact .inl before
      · exact .inr (.inl new)
    · exact .inr (.inr new)

theorem mono (grows : start.Grows reached mentioned) (imp : ∀ text, mentioned text → also text) :
    start.Grows reached also :=
  ⟨grows.oneToOne, grows.kept, fun text target bound =>
    (grows.added text target bound).imp_right (imp text)⟩

end Grows

/-- A binding that succeeds adds its pair, and no other. -/
theorem grows_of_bind {bindings reached : Bindings} {expected actual : String}
    (oneToOne : bindings.OneToOne)
    (success : bindings.bind expected actual = (true, reached)) :
    bindings.Grows reached (· = expected) ∧ reached.get? expected = some actual := by
  by_cases fits : bindings.Fits expected actual
  · obtain ⟨grown, bound, oneToOne', get⟩ := bind_of_fits oneToOne fits
    rw [bound] at success
    cases success
    refine ⟨⟨oneToOne', ?_, ?_⟩, (get expected).trans (if_pos rfl)⟩
    · intro name target before
      rw [get]
      split
      · rename_i same
        rw [(fits name target before).1 same]
      · exact before
    · intro name target after
      rw [get] at after
      split at after
      · rename_i same
        exact .inr same
      · exact .inl after
  · rw [bind_of_not_fits oneToOne fits] at success
    cases success

end Bindings

namespace Tree

/-- The bindings make the expected tree equal to the actual one up to order. -/
structure Linked (bindings : Bindings) (expected actual : Tree) : Prop where
  bound : ∀ text, expected.Mentions text →
    ∃ target, bindings.get? text = some target ∧ IdKind.of? target = IdKind.of? text
  reordered : (expected.rename bindings.image).Reordered actual

namespace Linked

variable {bindings more : Bindings} {expected actual : Tree}

theorem keeps (linked : Linked bindings expected actual) : expected.KeepsKinds bindings.image := by
  intro text mentioned
  obtain ⟨target, bound, kinds⟩ := linked.bound text mentioned
  rw [Bindings.image_of_get? bound, kinds]

/-- Further bindings do not undo a link. -/
theorem mono (linked : Linked bindings expected actual)
    (kept : ∀ text target, bindings.get? text = some target → more.get? text = some target) :
    Linked more expected actual where
  bound text mentioned := by
    obtain ⟨target, bound, kinds⟩ := linked.bound text mentioned
    exact ⟨target, kept text target bound, kinds⟩
  reordered := by
    have agree : ∀ text, expected.Mentions text → more.image text = bindings.image text := by
      intro text mentioned
      obtain ⟨target, bound, _⟩ := linked.bound text mentioned
      rw [Bindings.image_of_get? bound, Bindings.image_of_get? (kept text target bound)]
    rw [rename_congr agree]
    exact linked.reordered

theorem sequence {items paired others : List Tree}
    (pairs : List.Forall₂ (Linked bindings) items paired) (order : paired.Perm others) :
    Linked bindings (.sequence items) (.sequence others) where
  bound text mentioned := by
    obtain ⟨item, mem, mentioned⟩ := mentions_sequence.1 mentioned
    obtain ⟨_, _, linked⟩ := Reordered.exists_of_mem pairs mem
    exact linked.bound text mentioned
  reordered := by
    rw [rename_sequence]
    refine .sequence ?_ order
    rw [List.forall₂_map_left_iff]
    exact pairs.imp fun _ _ linked => linked.reordered

theorem record {fields others : Dict Tree} (names : fields.names = others.names)
    (pairs : List.Forall₂ (Linked bindings) fields.values others.values) :
    Linked bindings (.record fields) (.record others) where
  bound text mentioned := by
    obtain ⟨value, mem, mentioned⟩ := mentions_record.1 mentioned
    obtain ⟨_, _, linked⟩ := Reordered.exists_of_mem pairs mem
    exact linked.bound text mentioned
  reordered := by
    rw [rename_record]
    refine .record (by rw [Entries.names_map, names]) ?_
    rw [Entries.values_map, List.forall₂_map_left_iff]
    exact pairs.imp fun _ _ linked => linked.reordered

/-- A link binds the identifiers of the expected tree besides what was bound before. -/
theorem mem_names_iff {start : Bindings} (linked : Linked bindings expected actual)
    (grows : start.Grows bindings expected.Mentions) {text : String} :
    text ∈ bindings.forward.names ↔ text ∈ start.forward.names ∨ expected.Mentions text := by
  rw [Entries.mem_names_iff, Entries.mem_names_iff]
  constructor
  · rintro ⟨target, bound⟩
    exact (grows.added text target bound).imp_left fun before => ⟨target, before⟩
  · rintro (⟨target, before⟩ | mentioned)
    · exact ⟨target, grows.kept text target before⟩
    · obtain ⟨target, bound, _⟩ := linked.bound text mentioned
      exact ⟨target, bound⟩

theorem isomorphism (linked : Linked bindings expected actual) (oneToOne : bindings.OneToOne) :
    Isomorphism bindings.image expected actual where
  keepsKinds text mem := linked.keeps text (mem_identifiers_iff.1 mem)
  injective a memA b memB same := by
    obtain ⟨target, boundA, _⟩ := linked.bound a (mem_identifiers_iff.1 memA)
    obtain ⟨target', boundB, _⟩ := linked.bound b (mem_identifiers_iff.1 memB)
    rw [Bindings.image_of_get? boundA, Bindings.image_of_get? boundB] at same
    exact oneToOne.injective boundA (same ▸ boundB)
  reordered := linked.reordered

end Linked

/-- Matching from any one to one table either fails or grows the table to a link. -/
def Sound (expected : Tree) : Prop :=
  ∀ actual start reached, start.OneToOne → expected.match? actual start = some reached →
    start.Grows reached expected.Mentions ∧ Linked reached expected actual

theorem along_sound {items paired : List Tree} {start reached : Bindings}
    (each : ∀ item ∈ items, item.Sound) (oneToOne : start.OneToOne)
    (success : Matching.along match? items paired start = some reached) :
    start.Grows reached (fun text => ∃ item ∈ items, item.Mentions text) ∧
      List.Forall₂ (Linked reached) items paired := by
  induction items generalizing paired start with
  | nil =>
    obtain ⟨rfl, rfl⟩ := Matching.along_nil_iff.1 success
    exact ⟨.refl oneToOne _, .nil⟩
  | cons item rest ih =>
    cases paired with
    | nil => cases success
    | cons actual others =>
      obtain ⟨next, here, later⟩ := Matching.along_cons_iff.1 success
      obtain ⟨grows, linked⟩ := each item List.mem_cons_self actual start next oneToOne here
      obtain ⟨grows', pairs⟩ :=
        ih (fun other mem => each other (List.mem_cons_of_mem _ mem)) grows.oneToOne later
      refine ⟨(grows.trans grows').mono ?_, .cons (linked.mono grows'.kept) pairs⟩
      rintro text (mentioned | ⟨other, mem, mentioned⟩)
      · exact ⟨item, List.mem_cons_self, mentioned⟩
      · exact ⟨other, List.mem_cons_of_mem _ mem, mentioned⟩

theorem match?_sound (expected : Tree) : expected.Sound := by
  intro actual start reached oneToOne success
  induction expected generalizing actual start reached with
  | identifier text kind known =>
    obtain ⟨other, rfl, sameKind, bound⟩ := of_match?_identifier known success
    obtain ⟨grows, here⟩ := Bindings.grows_of_bind oneToOne bound
    refine ⟨grows.mono fun _ => (mentions_str known).2, ⟨?_, ?_⟩⟩
    · intro name mentioned
      rw [(mentions_str known).1 mentioned]
      exact ⟨other, here, sameKind.trans known.symm⟩
    · rw [rename_str known, Bindings.image_of_get? here]
      exact .refl (str other)
  | plain value plain =>
    obtain ⟨rfl, rfl⟩ := of_match?_plain plain success
    refine ⟨.refl oneToOne _, ⟨?_, ?_⟩⟩
    · intro text mentioned
      exact (not_mentions_plain plain text mentioned).elim
    · rw [rename_plain plain]
      exact .scalar value
  | sequence items ih =>
    obtain ⟨others, paired, rfl, order, accepted⟩ := of_match?_sequence success
    obtain ⟨grows, pairs⟩ := along_sound ih oneToOne accepted
    exact ⟨grows.mono fun _ => mentions_sequence.2, .sequence pairs order⟩
  | record fields ih =>
    obtain ⟨others, rfl, names, accepted⟩ := of_match?_record success
    obtain ⟨grows, pairs⟩ := along_sound ih oneToOne accepted
    exact ⟨grows.mono fun _ => mentions_record.2, .record names pairs⟩

theorem reached_of_verdict {expected actual : Tree} {bindings : Bindings}
    (found : expected.verdict? actual = some bindings) :
    expected.match? actual .empty = some bindings := by
  rw [verdict?] at found
  split at found
  · exact found
  · cases found

theorem reached_of_found {limits : Limits} {expected actual : Tree} {bindings : Bindings}
    (found : expected.bindingsWithin limits actual = .ok (some bindings)) :
    expected.match? actual .empty = some bindings :=
  reached_of_verdict (bindingsWithin_eq_ok.1 found).2.2.symm

/-- The bindings of a positive verdict are an isomorphism. -/
theorem isomorphism_of_verdict {expected actual : Tree} {bindings : Bindings}
    (found : expected.verdict? actual = some bindings) :
    Isomorphism bindings.image expected actual := by
  obtain ⟨grows, linked⟩ := match?_sound expected actual .empty bindings Bindings.oneToOne_empty
    (reached_of_verdict found)
  exact linked.isomorphism grows.oneToOne

theorem names_of_grows {bindings : Bindings} {expected actual : Tree}
    (grows : Bindings.empty.Grows bindings expected.Mentions)
    (linked : Linked bindings expected actual) :
    bindings.forward.names = expected.identifiers.names := by
  rw [Entries.names_eq_iff]
  intro text
  rw [linked.mem_names_iff grows, mem_identifiers_iff]
  exact or_iff_right List.not_mem_nil

theorem toList_eq_map_image (bindings : Bindings) :
    bindings.toList = bindings.forward.names.map fun text => (text, bindings.image text) :=
  Entries.toList_eq_map fun _ _ bound => (Bindings.image_of_get? bound).symm

theorem toList_of_follows {image : String → String} {bindings : Bindings} {expected actual : Tree}
    (success : expected.match? actual .empty = some bindings)
    (follows : bindings.Follows image expected.Mentions) :
    bindings.toList = expected.identifiers.names.map fun text => (text, image text) := by
  obtain ⟨grows, linked⟩ :=
    match?_sound expected actual .empty bindings Bindings.oneToOne_empty success
  rw [← names_of_grows grows linked]
  exact Entries.toList_eq_map fun text target bound => (follows.agrees text target bound).2

/-- **Positive verdicts are certain.** The bindings that a comparison finds bind exactly the
identifiers of the expected tree, to exactly those of the actual one, one to one and each to one of
its kind, and renaming by them makes the trees equal up to the order of elements. -/
theorem found_isomorphism {limits : Limits} {expected actual : Tree} {bindings : Bindings}
    (found : expected.bindingsWithin limits actual = .ok (some bindings)) :
    bindings.toList.map (·.1) = expected.identifiers.names ∧
      (bindings.toList.map (·.2)).Perm actual.identifiers.names ∧
      bindings.OneToOne ∧
      (∀ text target, (text, target) ∈ bindings.toList → IdKind.of? target = IdKind.of? text) ∧
      (expected.rename bindings.image).Reordered actual := by
  obtain ⟨grows, linked⟩ :=
    match?_sound expected actual .empty bindings Bindings.oneToOne_empty (reached_of_found found)
  have names := names_of_grows grows linked
  refine ⟨names, ?_, grows.oneToOne, ?_, linked.reordered⟩
  · rw [toList_eq_map_image, names, List.map_map]
    exact (linked.isomorphism grows.oneToOne).names_perm
  · intro text target mem
    have bound : bindings.get? text = some target := Entries.get?_eq_some_iff.2 mem
    have mentioned : text ∈ expected.identifiers.names :=
      names ▸ Entries.mem_names_iff.2 ⟨target, bound⟩
    have kinds := linked.keeps text (mem_identifiers_iff.1 mentioned)
    rwa [Bindings.image_of_get? bound] at kinds

/-- The first candidate of both identifiers is of the other kind. -/
theorem found_isomorphism_swapped :
    (sequence [.str "?x", .str "_:b"]).bindingsWithin ⟨some 1, some 4⟩
        (.sequence [.str "_:c", .str "?y"]) =
      .ok (some ⟨.ofList [("?x", "?y"), ("_:b", "_:c")], .ofList [("?y", "?x"), ("_:c", "_:b")]⟩) ∧
    ((sequence [.str "?x", .str "_:b"]).rename (Bindings.image
        ⟨.ofList [("?x", "?y"), ("_:b", "_:c")], .ofList [("?y", "?x"), ("_:c", "_:b")]⟩)).Reordered
      (.sequence [.str "_:c", .str "?y"]) := by
  have found : (sequence [.str "?x", .str "_:b"]).bindingsWithin ⟨some 1, some 4⟩
      (.sequence [.str "_:c", .str "?y"]) =
      .ok (some ⟨.ofList [("?x", "?y"), ("_:b", "_:c")], .ofList [("?y", "?x"), ("_:c", "_:b")]⟩) :=
    rfl
  exact ⟨found, (found_isomorphism found).2.2.2.2⟩

end Tree

end QueryIso
