import QueryIso.Proofs.Copies
import QueryIso.Proofs.Histories

/-!
# Names do not matter

A comparison looks at the kinds of identifiers and at which of them are the same, and at nothing
else in their names. Two comparisons whose trees differ by renamings run in step: their tables hold
the same pairs up to the renamings, so a pair is accepted in one when its images are in the other.

* `Bindings.Translated.bind`: what binding two identifiers and binding their images have in common;
* `Tree.matchFreely_rename`: the two searches find translated tables in as many steps;
* `Tree.names_do_not_matter`: the outcomes are the same within all limits, up to the names in the
  table.
-/

namespace QueryIso

namespace Bindings

/-- The table of the images of all pairs. -/
def translate (f g : String → String) (bindings : Bindings) : Bindings :=
  let pairs := bindings.toList.map fun pair => (f pair.1, g pair.2)
  ⟨Dict.ofList pairs, Dict.ofList (pairs.map Prod.swap)⟩

/-- The second table binds the images of the pairs of the first one, and nothing else. -/
structure Translated (f g : String → String) (names targets : String → Prop)
    (bindings translated : Bindings) : Prop where
  oneToOne : bindings.OneToOne
  oneToOne' : translated.OneToOne
  inside : ∀ text target, bindings.get? text = some target → names text ∧ targets target
  pairs : ∀ name image, translated.get? name = some image ↔
    ∃ text target, bindings.get? text = some target ∧ f text = name ∧ g target = image

section
variable {f g : String → String} {names targets : String → Prop} {bindings translated : Bindings}

theorem translated_empty : Translated f g names targets empty empty where
  oneToOne := oneToOne_empty
  oneToOne' := oneToOne_empty
  inside _ _ impossible := by cases impossible
  pairs name image := by
    constructor
    · intro impossible
      cases impossible
    · rintro ⟨_, _, impossible, _⟩
      cases impossible

namespace Translated

section
variable (renamesF : IsRenaming f names) (renamesG : IsRenaming g targets)
include renamesF renamesG

theorem fits_iff (alike : Translated f g names targets bindings translated)
    {expected actual : String} (memE : names expected) (memA : targets actual) :
    translated.Fits (f expected) (g actual) ↔ bindings.Fits expected actual := by
  have each {text target : String} (bound : bindings.get? text = some target) :
      (f text = f expected ↔ g target = g actual) ↔ (text = expected ↔ target = actual) := by
    obtain ⟨memText, memTarget⟩ := alike.inside text target bound
    rw [renamesF.eq_iff memText memE, renamesG.eq_iff memTarget memA]
  constructor
  · intro fits text target bound
    exact (each bound).1 (fits _ _ ((alike.pairs _ _).2 ⟨text, target, bound, rfl, rfl⟩))
  · intro fits name image bound
    obtain ⟨text, target, before, rfl, rfl⟩ := (alike.pairs name image).1 bound
    exact (each before).2 (fits text target before)

/-- A pair is accepted when its images are, and then both tables grow alike. -/
theorem bind (alike : Translated f g names targets bindings translated) {expected actual : String}
    (memE : names expected) (memA : targets actual) :
    Option.Rel (Translated f g names targets) (Matched.reached? (bindings.bind expected actual))
      (Matched.reached? (translated.bind (f expected) (g actual))) := by
  have sameFit := alike.fits_iff renamesF renamesG memE memA
  by_cases fits : bindings.Fits expected actual
  · have accepted := (accepted_iff alike.oneToOne).2 fits
    have accepted' := (accepted_iff alike.oneToOne').2 (sameFit.2 fits)
    rw [Matched.reached?, Matched.reached?, if_pos accepted, if_pos accepted']
    refine .some ⟨alike.oneToOne.bind _ _, alike.oneToOne'.bind _ _, ?_, ?_⟩
    · intro text target bound
      rcases (get?_bind_accepted alike.oneToOne accepted text target).1 bound with before | new
      · exact alike.inside text target before
      · rw [new.1, new.2]
        exact ⟨memE, memA⟩
    · intro name image
      simp only [get?_bind_accepted alike.oneToOne accepted,
        get?_bind_accepted alike.oneToOne' accepted', alike.pairs]
      constructor
      · rintro (⟨text, target, before, images⟩ | ⟨rfl, rfl⟩)
        · exact ⟨text, target, .inl before, images⟩
        · exact ⟨expected, actual, .inr ⟨rfl, rfl⟩, rfl, rfl⟩
      · rintro ⟨text, target, before | ⟨rfl, rfl⟩, images⟩
        · exact .inl ⟨text, target, before, images⟩
        · exact .inr ⟨images.1.symm, images.2.symm⟩
  · rw [bind_of_not_fits alike.oneToOne fits,
      bind_of_not_fits alike.oneToOne' (mt sameFit.1 fits)]
    exact .none

/-- A translated table lists the images of the pairs. -/
theorem toList_perm (alike : Translated f g names targets bindings translated) :
    translated.toList.Perm (bindings.toList.map fun pair => (f pair.1, g pair.2)) := by
  have nodup : (bindings.toList.map fun pair => (f pair.1, g pair.2)).Nodup := by
    refine bindings.forward.nodup_toList.map_on ?_
    rintro ⟨text, target⟩ mem ⟨text', target'⟩ mem' same
    obtain ⟨memE, memA⟩ := alike.inside text target (Entries.get?_eq_some_iff.2 mem)
    obtain ⟨memE', memA'⟩ := alike.inside text' target' (Entries.get?_eq_some_iff.2 mem')
    rw [Prod.mk.injEq, renamesF.eq_iff memE memE', renamesG.eq_iff memA memA'] at same
    rw [same.1, same.2]
  refine (List.perm_ext_iff_of_nodup (Entries.nodup_toList _) nodup).2 ?_
  rintro ⟨name, image⟩
  have pairs := alike.pairs name image
  simp only [get?, Entries.get?_eq_some_iff] at pairs
  simpa [toList, Prod.ext_iff] using pairs

end

theorem eq_translate (alike : Translated f g names targets bindings translated) :
    translated = bindings.translate f g := by
  have listed (name image : String) :
      (name, image) ∈ bindings.toList.map (fun pair => (f pair.1, g pair.2)) ↔
        translated.get? name = some image := by
    rw [alike.pairs]
    simp [toList, get?, Entries.get?_eq_some_iff]
  have swapped (image name : String) :
      (image, name) ∈ (bindings.toList.map fun pair => (f pair.1, g pair.2)).map Prod.swap ↔
        translated.getReverse? image = some name := by
    rw [← alike.oneToOne', ← listed]
    simp [Prod.ext_iff, and_comm]
  have forward : translated.forward = (bindings.translate f g).forward := by
    refine Dict.ext_get? fun name => Option.ext fun image => ?_
    refine (listed name image).symm.trans (Dict.get?_ofList_eq_some_iff ?_).symm
    intro name a b memA memB
    rw [listed] at memA memB
    exact Option.some.inj (memA.symm.trans memB)
  have backward : translated.backward = (bindings.translate f g).backward := by
    refine Dict.ext_get? fun image => Option.ext fun name => ?_
    refine (swapped image name).symm.trans (Dict.get?_ofList_eq_some_iff ?_).symm
    intro image a b memA memB
    rw [swapped] at memA memB
    exact Option.some.inj (memA.symm.trans memB)
  exact congrArg₂ Bindings.mk forward backward

theorem found_eq {found found' : Option Bindings}
    (alike : Option.Rel (Translated f g names targets) found found') :
    found' = found.map (translate f g) ∧ ∀ bindings, found = some bindings →
      Translated f g names targets bindings (bindings.translate f g) := by
  cases alike with
  | none => exact ⟨rfl, fun _ impossible => by cases impossible⟩
  | some alike =>
    have same := alike.eq_translate
    subst same
    refine ⟨rfl, fun bindings here => ?_⟩
    cases here
    exact alike

end Translated

end

end Bindings

namespace Counted

/-- Searches that take as many steps and find states in a relation, or nothing. -/
def alike {S T : Type} (related : S → T → Prop) :
    Matching.Correspondence Counted Counted S T where
  States := related
  Effects effect effect' := effect.steps = effect'.steps
  Rel x y := x.steps = y.steps ∧ Option.Rel related x.value y.value
  missed := ⟨rfl, .none⟩
  found states := ⟨rfl, .some states⟩
  bind {x y next next'} related missed found := by
    obtain ⟨value, steps⟩ := x
    obtain ⟨value', steps'⟩ := y
    obtain ⟨rfl, values⟩ := related
    cases values with
    | none => exact ⟨congrArg _ missed.1, missed.2⟩
    | some states => exact ⟨congrArg _ (found _ _ states).1, (found _ _ states).2⟩
  after {effect effect' x y} effects related := by
    rw [Counted.steps_bind, Counted.steps_bind, effects, related.1]
    exact ⟨rfl, related.2⟩

end Counted

namespace Tree

section
variable {f g : String → String} {names targets : String → Prop}

/-- The search for the tree and that for its renamed copy run in step on translated tables. -/
def InStep (f g : String → String) (names targets : String → Prop) (expected : Tree) : Prop :=
  ∀ (actual : Tree) (bindings translated : Bindings),
    (∀ text, actual.Mentions text → targets text) →
    Bindings.Translated f g names targets bindings translated →
    (Counted.alike (Bindings.Translated f g names targets)).Rel
      (expected.matchFreely actual bindings)
      ((expected.rename f).matchFreely (actual.rename g) translated)

theorem matchFreely_of_shape_ne {expected actual : Tree} (differ : actual.shape ≠ expected.shape)
    (bindings : Bindings) : expected.matchFreely actual bindings = ⟨none, 1⟩ := by
  cases expected <;> cases actual <;> first | rfl | exact (differ rfl).elim

/-- Only actual trees of the same shape have to be looked at. -/
theorem inStep_of_shape {expected : Tree}
    (step : ∀ (actual : Tree) (bindings translated : Bindings), actual.shape = expected.shape →
      (∀ text, actual.Mentions text → targets text) →
      Bindings.Translated f g names targets bindings translated →
      (Counted.alike (Bindings.Translated f g names targets)).Rel
        (expected.matchFreely actual bindings)
        ((expected.rename f).matchFreely (actual.rename g) translated)) :
    InStep f g names targets expected := by
  intro actual bindings translated inside alike
  by_cases shapes : actual.shape = expected.shape
  · exact step actual bindings translated shapes inside alike
  · have shapes' : (actual.rename g).shape ≠ (expected.rename f).shape := by
      rwa [shape_rename, shape_rename]
    rw [matchFreely_of_shape_ne shapes, matchFreely_of_shape_ne shapes']
    exact ⟨rfl, .none⟩

theorem inStep_fields {bound : Option String} {fields : Entries Tree bound}
    {actual : Dict Tree} {bindings translated : Bindings}
    (each : ∀ value ∈ fields.values, InStep f g names targets value)
    (inside : ∀ value ∈ actual.values, ∀ text, value.Mentions text → targets text)
    (alike : Bindings.Translated f g names targets bindings translated) :
    (Counted.alike (Bindings.Translated f g names targets)).Rel
      (matchFieldsFreely fields actual bindings)
      (matchFieldsFreely (fields.map (rename f)) (actual.map (rename g)) translated) := by
  induction fields generalizing bindings translated with
  | nil => exact ⟨rfl, .some alike⟩
  | cons name above expected rest ih =>
    rw [Entries.map, matchFieldsFreely, matchFieldsFreely, Entries.get?_map]
    cases here : actual.get? name with
    | none => exact ⟨rfl, .none⟩
    | some value =>
      have mem : value ∈ actual.values := Entries.mem_values_iff.2 ⟨name, here⟩
      have step :=
        each expected List.mem_cons_self value bindings translated (inside value mem) alike
      apply (Counted.alike _).bind step
      · exact ⟨rfl, .none⟩
      · intro reached reached' alike
        exact ih (fun other mem => each other (List.mem_cons_of_mem _ mem)) alike

theorem inStep_record {fields : Dict Tree}
    (each : ∀ value ∈ fields.values, InStep f g names targets value) :
    InStep f g names targets (.record fields) := by
  apply inStep_of_shape
  intro actual bindings translated shape inside alike
  cases actual with
  | scalar _ | sequence _ => cases shape
  | record others =>
    rw [rename_record, rename_record, matchFreely, matchFreely, Entries.length_map,
      Entries.length_map]
    refine (Counted.alike _).after rfl ?_
    split
    · exact inStep_fields each
        (fun value mem text mentioned => inside text (mentions_record.2 ⟨value, mem, mentioned⟩))
        alike
    · exact ⟨rfl, .none⟩

theorem inStep_sequence {items : List Tree}
    (each : ∀ item ∈ items, InStep f g names targets item) :
    InStep f g names targets (.sequence items) := by
  apply inStep_of_shape
  intro actual bindings translated shape inside alike
  cases actual with
  | scalar _ | record _ => cases shape
  | sequence others =>
    rw [rename_sequence, rename_sequence, matchFreely_sequence, matchFreely_sequence]
    -- both searches try the elements in the same order, so only single pairs have to be compared
    refine (Counted.alike _).after rfl (Matching.find?_corresponds _ (rename f) (rename g) ?_
      (fun _ _ => rfl) alike)
    intro item mem other memOther bindings translated alike
    exact each item mem other bindings translated
      (fun text mentioned => inside text (mentions_sequence.2 ⟨other, memOther, mentioned⟩)) alike

/-- Matching scalars takes one step. -/
theorem alike_scalars {related : Bindings → Bindings → Prop} {a b a' b' : Scalar}
    {bindings translated : Bindings}
    (verdicts : Option.Rel related ((scalar a).match? (scalar b) bindings)
      ((scalar a').match? (scalar b') translated)) :
    (Counted.alike related).Rel ((scalar a).matchFreely (scalar b) bindings)
      ((scalar a').matchFreely (scalar b') translated) :=
  ⟨rfl, verdicts⟩

section
variable (renamesG : IsRenaming g targets)
include renamesG

theorem inStep_plain {value : Scalar} (plain : value.idKind? = none) :
    InStep f g names targets (scalar value) := by
  apply inStep_of_shape
  intro actual bindings translated shape inside alike
  rw [rename_plain plain]
  induction actual with
  | sequence _ _ | record _ _ => cases shape
  | identifier other kind known =>
    have mem : targets other := inside other ((mentions_str known).2 rfl)
    have known' : IdKind.of? (g other) = some kind := (renamesG.kinds other mem).trans known
    rw [rename_str known]
    apply alike_scalars
    rw [← str, ← str, match?_plain_identifier plain known, match?_plain_identifier plain known']
    exact .none
  | plain other plainOther =>
    rw [rename_plain plainOther]
    apply alike_scalars
    rw [match?_plain plain, match?_plain plain]
    split
    · exact .some alike
    · exact .none

theorem inStep_identifier (renamesF : IsRenaming f names) {text : String} {kind : IdKind}
    (known : IdKind.of? text = some kind) (mem : names text) :
    InStep f g names targets (str text) := by
  apply inStep_of_shape
  intro actual bindings translated shape inside alike
  have known' : IdKind.of? (f text) = some kind := (renamesF.kinds text mem).trans known
  rw [rename_str known]
  induction actual with
  | sequence _ _ | record _ _ => cases shape
  | plain value plain =>
    rw [rename_plain plain]
    apply alike_scalars
    rw [← str, ← str, match?_identifier_plain known plain, match?_identifier_plain known' plain]
    exact .none
  | identifier other otherKind knownOther =>
    have memOther : targets other := inside other ((mentions_str knownOther).2 rfl)
    rw [rename_str knownOther]
    apply alike_scalars
    rw [← str, ← str, ← str, ← str, match?_identifier known, match?_identifier known',
      renamesG.kinds other memOther]
    split
    · exact alike.bind renamesF renamesG mem memOther
    · exact .none

/-- Renaming both trees changes neither the steps of the search nor what it finds, up to names. -/
theorem matchFreely_rename (renamesF : IsRenaming f names) {expected : Tree}
    (inside : ∀ text, expected.Mentions text → names text) :
    InStep f g names targets expected := by
  induction expected with
  | identifier text kind known =>
    exact inStep_identifier renamesG renamesF known (inside text ((mentions_str known).2 rfl))
  | plain value plain => exact inStep_plain renamesG plain
  | sequence items ih =>
    refine inStep_sequence fun item mem => ih item mem fun text mentioned => ?_
    exact inside text (mentions_sequence.2 ⟨item, mem, mentioned⟩)
  | record fields ih =>
    refine inStep_record fun value mem => ih value mem fun text mentioned => ?_
    exact inside text (mentions_record.2 ⟨value, mem, mentioned⟩)

end

end

section
variable {f g : String → String} {expected actual : Tree}

theorem counts_rename (renamesF : IsRenaming f (· ∈ expected.identifiers.names)) :
    (expected.rename f).counts = expected.counts := by
  have copy : Isomorphism f expected (expected.rename f) :=
    ⟨renamesF.kinds, renamesF.injective, .refl _⟩
  exact copy.census_eq.symm

theorem verdict?_rename (renamesF : IsRenaming f (· ∈ expected.identifiers.names))
    (renamesG : IsRenaming g (· ∈ actual.identifiers.names)) :
    (expected.rename f).effort (actual.rename g) = expected.effort actual ∧
      Option.Rel (Bindings.Translated f g expected.Mentions actual.Mentions)
        (expected.verdict? actual) ((expected.rename f).verdict? (actual.rename g)) := by
  rw [effort, effort, verdict?, verdict?, counts_rename renamesF, counts_rename renamesG]
  split
  · have inStep := matchFreely_rename (renamesG.mono fun _ => mem_identifiers_iff.2)
      (renamesF.mono fun _ => mem_identifiers_iff.2) (fun _ mentioned => mentioned)
    have alike := inStep actual .empty .empty (fun _ mentioned => mentioned)
      Bindings.translated_empty
    exact ⟨alike.1.symm, alike.2⟩
  · exact ⟨rfl, .none⟩

/-- **Names do not matter.** Renaming the identifiers of both trees one to one, each to one of its
kind, leaves the outcome of a comparison as it is, whatever the limits: the same error, or no
bindings, or bindings of the new names for the old ones. The table that is found then binds the
images of the pairs, and nothing else. -/
theorem names_do_not_matter (renamesF : IsRenaming f (· ∈ expected.identifiers.names))
    (renamesG : IsRenaming g (· ∈ actual.identifiers.names)) (limits : Limits) :
    (expected.rename f).bindingsWithin limits (actual.rename g) =
        (expected.bindingsWithin limits actual).map (Option.map (Bindings.translate f g)) ∧
      ∀ bindings, expected.bindingsWithin limits actual = .ok (some bindings) →
        (bindings.translate f g).OneToOne ∧
          (bindings.translate f g).toList.Perm
            (bindings.toList.map fun pair => (f pair.1, g pair.2)) := by
  obtain ⟨effort, verdicts⟩ := verdict?_rename renamesF renamesG
  obtain ⟨verdict, alike⟩ := Bindings.Translated.found_eq verdicts
  constructor
  · rw [bindingsWithin_eq, bindingsWithin_eq, depth_rename, depth_rename, effort, verdict]
    cases limits.checkDepth (max expected.depth actual.depth) with
    | error error => rfl
    | ok => cases limits.checkSteps (expected.effort actual) <;> rfl
  · intro bindings found
    have translated := alike bindings (bindingsWithin_eq_ok.1 found).2.2.symm
    exact ⟨translated.oneToOne', translated.toList_perm
      (renamesF.mono fun _ => mem_identifiers_iff.2)
      (renamesG.mono fun _ => mem_identifiers_iff.2)⟩

end

/-- The elements of `nested` in another order and with other names. -/
def scattered : Tree :=
  .sequence [.sequence [.scalar .null, .str "?p", .str "?q"], .str "?q", .str "?q"]

/-- The variable `?p` comes after `?q` under its new name. -/
def postpone (text : String) : String :=
  if text = "?p" then "?z" else text

theorem names_do_not_matter_scattered :
    IsRenaming swap (· ∈ nested.identifiers.names) ∧
      IsRenaming postpone (· ∈ scattered.identifiers.names) ∧
      (nested.bindingsWithin .default scattered).map (Option.map Bindings.toList) =
        .ok (some [("?x", "?q"), ("?y", "?p")]) ∧
      ((nested.rename swap).bindingsWithin .default (scattered.rename postpone)).map
          (Option.map Bindings.toList) =
        .ok (some [("?x", "?z"), ("?y", "?q")]) := by
  have renamesF : IsRenaming swap (· ∈ nested.identifiers.names) := ⟨by decide, by decide⟩
  have renamesG : IsRenaming postpone (· ∈ scattered.identifiers.names) := ⟨by decide, by decide⟩
  refine ⟨renamesF, renamesG, rfl, ?_⟩
  rw [(names_do_not_matter renamesF renamesG .default).1]
  rfl

end Tree

end QueryIso
