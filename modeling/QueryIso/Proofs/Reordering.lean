import QueryIso.Isomorphism.Census
import QueryIso.Proofs.Renaming

/-!
# Equality up to order and renaming

`Tree.Reordered` disregards the order of the elements of sequences at any depth, and
`Tree.Isomorphism` in addition the names of identifiers. Both are equivalences:

* `Reordered.refl`, `Reordered.symm`, `Reordered.trans`, and `Reordered.rename`: renaming both
  sides alike keeps them equal;
* `Isomorphism.trans`, `Isomorphism.symm`: isomorphisms compose, and one that is undone by a
  function is inverted by it;
* `Isomorphism.census_eq`: isomorphic trees have as many identifiers of each kind.
-/

namespace QueryIso

namespace Tree

/-- The trees are equal up to the order of the elements of sequences, at any depth. -/
inductive Reordered : Tree → Tree → Prop
  | scalar (value : Scalar) : Reordered (.scalar value) (.scalar value)
  | sequence {items paired others : List Tree} (pairs : List.Forall₂ Reordered items paired)
      (order : paired.Perm others) : Reordered (.sequence items) (.sequence others)
  | record {fields others : Dict Tree} (names : fields.names = others.names)
      (pairs : List.Forall₂ Reordered fields.values others.values) :
      Reordered (.record fields) (.record others)

namespace Reordered

theorem forall₂_of_mem {R S : Tree → Tree → Prop} {as bs : List Tree}
    (related : List.Forall₂ R as bs) (step : ∀ a ∈ as, ∀ b, R a b → S a b) :
    List.Forall₂ S as bs := by
  induction related with
  | nil => exact .nil
  | cons head _ ih =>
    exact .cons (step _ List.mem_cons_self _ head)
      (ih fun a mem => step a (List.mem_cons_of_mem _ mem))

theorem refl (tree : Tree) : Reordered tree tree := by
  induction tree with
  | identifier text kind _ => exact .scalar (.str text)
  | plain value _ => exact .scalar value
  | sequence items ih => exact .sequence (List.forall₂_same.2 ih) (.refl items)
  | record fields ih => exact .record rfl (List.forall₂_same.2 ih)

theorem symm {a b : Tree} (same : Reordered a b) : Reordered b a := by
  induction a generalizing b with
  | identifier text kind _ =>
    cases same with
    | scalar value => exact .scalar (.str text)
  | plain value _ =>
    cases same with
    | scalar value => exact .scalar value
  | sequence items ih =>
    cases same with
    | sequence pairs order =>
      have flipped : List.Forall₂ Reordered _ items :=
        (forall₂_of_mem pairs fun a mem b => ih a mem).flip
      obtain ⟨paired, pairs', order'⟩ := List.perm_comp_forall₂ order.symm flipped
      exact .sequence pairs' order'
  | record fields ih =>
    cases same with
    | record names pairs =>
      have flipped : List.Forall₂ (flip fun b a => Reordered b a) fields.values _ :=
        forall₂_of_mem pairs fun a mem b => ih a mem
      exact .record names.symm flipped.flip

theorem forall₂_trans {as bs cs : List Tree}
    (step : ∀ a ∈ as, ∀ b c, Reordered a b → Reordered b c → Reordered a c)
    (first : List.Forall₂ Reordered as bs) (second : List.Forall₂ Reordered bs cs) :
    List.Forall₂ Reordered as cs := by
  induction first generalizing cs with
  | nil => exact second
  | cons head _ ih =>
    cases second with
    | cons head' rest' =>
      exact .cons (step _ List.mem_cons_self _ _ head head')
        (ih (fun a mem => step a (List.mem_cons_of_mem _ mem)) rest')

theorem trans {a b c : Tree} (first : Reordered a b) (second : Reordered b c) : Reordered a c := by
  induction a generalizing b c with
  | identifier text kind _ =>
    cases first with
    | scalar value => exact second
  | plain value _ =>
    cases first with
    | scalar value => exact second
  | sequence items ih =>
    cases first with
    | sequence pairs order =>
      cases second with
      | sequence pairs' order' =>
        -- the second pairing is carried back over the first order
        obtain ⟨middle, pairs'', order''⟩ := List.perm_comp_forall₂ order pairs'
        exact .sequence (forall₂_trans (fun a mem b c => ih a mem) pairs pairs'')
          (order''.trans order')
  | record fields ih =>
    cases first with
    | record names pairs =>
      cases second with
      | record names' pairs' =>
        exact .record (names.trans names') (forall₂_trans (fun a mem b c => ih a mem) pairs pairs')

theorem rename {a b : Tree} (same : Reordered a b) (image : String → String) :
    Reordered (a.rename image) (b.rename image) := by
  induction a generalizing b with
  | identifier text kind _ =>
    cases same with
    | scalar value => exact refl _
  | plain value _ =>
    cases same with
    | scalar value => exact refl _
  | sequence items ih =>
    cases same with
    | sequence pairs order =>
      rw [rename_sequence, rename_sequence]
      refine .sequence ?_ (order.map _)
      rw [List.forall₂_map_left_iff, List.forall₂_map_right_iff]
      exact forall₂_of_mem pairs fun a mem b => ih a mem
  | record fields ih =>
    cases same with
    | record names pairs =>
      rw [rename_record, rename_record]
      refine .record (by simpa using names) ?_
      rw [Entries.values_map, Entries.values_map, List.forall₂_map_left_iff,
        List.forall₂_map_right_iff]
      exact forall₂_of_mem pairs fun a mem b => ih a mem

theorem exists_of_mem {R : Tree → Tree → Prop} {as bs : List Tree} (related : List.Forall₂ R as bs)
    {a : Tree} (mem : a ∈ as) : ∃ b ∈ bs, R a b := by
  induction related with
  | nil => cases mem
  | cons head _ ih =>
    rcases List.mem_cons.1 mem with rfl | later
    · exact ⟨_, List.mem_cons_self, head⟩
    · obtain ⟨b, mem', holds⟩ := ih later
      exact ⟨b, List.mem_cons_of_mem _ mem', holds⟩

theorem mentions {a b : Tree} (same : Reordered a b) {text : String} (mentioned : a.Mentions text) :
    b.Mentions text := by
  induction a generalizing b with
  | identifier _ _ _ =>
    cases same with
    | scalar value => exact mentioned
  | plain _ _ =>
    cases same with
    | scalar value => exact mentioned
  | sequence items ih =>
    cases same with
    | sequence pairs order =>
      obtain ⟨item, mem, mentioned⟩ := mentions_sequence.1 mentioned
      obtain ⟨other, mem', same⟩ := exists_of_mem pairs mem
      exact mentions_sequence.2 ⟨other, order.subset mem', ih item mem same mentioned⟩
  | record fields ih =>
    cases same with
    | record names pairs =>
      obtain ⟨value, mem, mentioned⟩ := mentions_record.1 mentioned
      obtain ⟨other, mem', same⟩ := exists_of_mem pairs mem
      exact mentions_record.2 ⟨other, mem', ih value mem same mentioned⟩

theorem mentions_iff {a b : Tree} (same : Reordered a b) {text : String} :
    a.Mentions text ↔ b.Mentions text :=
  ⟨same.mentions, same.symm.mentions⟩

end Reordered

/-- A one to one renaming of the identifiers of a tree that keeps their kinds and makes it equal to
another up to order. -/
structure Isomorphism (image : String → String) (tree other : Tree) : Prop where
  keepsKinds : ∀ text ∈ tree.identifiers.names, IdKind.of? (image text) = IdKind.of? text
  injective : ∀ a ∈ tree.identifiers.names, ∀ b ∈ tree.identifiers.names, image a = image b → a = b
  reordered : (tree.rename image).Reordered other

namespace Isomorphism

variable {image back : String → String} {tree other third : Tree}

theorem keeps (iso : Isomorphism image tree other) : tree.KeepsKinds image :=
  fun text mentioned => iso.keepsKinds text (mem_identifiers_iff.2 mentioned)

theorem separates (iso : Isomorphism image tree other) :
    ∀ a, tree.Mentions a → ∀ b, tree.Mentions b → image a = image b → a = b :=
  fun a memA b memB => iso.injective a (mem_identifiers_iff.2 memA) b (mem_identifiers_iff.2 memB)

theorem mem_iff (iso : Isomorphism image tree other) {text : String} :
    text ∈ other.identifiers.names ↔ ∃ source ∈ tree.identifiers.names, image source = text := by
  simp only [mem_identifiers_iff, ← iso.reordered.mentions_iff, mentions_rename iso.keeps]

theorem image_mem (iso : Isomorphism image tree other) {text : String}
    (mem : text ∈ tree.identifiers.names) : image text ∈ other.identifiers.names :=
  iso.mem_iff.2 ⟨text, mem, rfl⟩

theorem refl (tree : Tree) : Isomorphism id tree tree where
  keepsKinds _ _ := rfl
  injective _ _ _ _ same := same
  reordered := by
    have unchanged : tree.rename id = tree := rename_eq_self fun _ _ => rfl
    rw [unchanged]
    exact .refl tree

theorem trans {next : String → String} (first : Isomorphism image tree other)
    (second : Isomorphism next other third) : Isomorphism (next ∘ image) tree third where
  keepsKinds text mem :=
    (second.keepsKinds _ (first.image_mem mem)).trans (first.keepsKinds text mem)
  injective a memA b memB same := by
    have images := second.injective _ (first.image_mem memA) _ (first.image_mem memB) same
    exact first.injective a memA b memB images
  reordered := by
    rw [← rename_rename first.keeps]
    exact (first.reordered.rename next).trans second.reordered

/-- A function that undoes an isomorphism is one in the other direction. -/
theorem symm (iso : Isomorphism image tree other)
    (undone : ∀ text ∈ tree.identifiers.names, back (image text) = text) :
    Isomorphism back other tree where
  keepsKinds text mem := by
    obtain ⟨source, mem', rfl⟩ := iso.mem_iff.1 mem
    rw [undone source mem', iso.keepsKinds source mem']
  injective a memA b memB same := by
    obtain ⟨source, memS, rfl⟩ := iso.mem_iff.1 memA
    obtain ⟨source', memS', rfl⟩ := iso.mem_iff.1 memB
    rw [undone source memS, undone source' memS'] at same
    rw [same]
  reordered := by
    have restored : (tree.rename image).rename back = tree := by
      rw [rename_rename iso.keeps]
      exact rename_eq_self fun text mentioned => undone text (mem_identifiers_iff.2 mentioned)
    have same := iso.reordered.rename back
    rw [restored] at same
    exact same.symm

theorem congr {next : String → String} (iso : Isomorphism image tree other)
    (agree : ∀ text ∈ tree.identifiers.names, next text = image text) :
    Isomorphism next tree other where
  keepsKinds text mem := by rw [agree text mem, iso.keepsKinds text mem]
  injective a memA b memB same := by
    rw [agree a memA, agree b memB] at same
    exact iso.injective a memA b memB same
  reordered := by
    rw [rename_congr fun text mentioned => agree text (mem_identifiers_iff.2 mentioned)]
    exact iso.reordered

theorem names_perm (iso : Isomorphism image tree other) :
    (tree.identifiers.names.map image).Perm other.identifiers.names := by
  have nodup : (tree.identifiers.names.map image).Nodup :=
    (Entries.nodup_names _).map_on fun a memA b memB same => iso.injective a memA b memB same
  rw [List.perm_ext_iff_of_nodup nodup (Entries.nodup_names _)]
  intro text
  rw [iso.mem_iff, List.mem_map]

end Isomorphism

theorem kinds_eq_map (tree : Tree) :
    tree.identifiers.toList.map (·.2) =
      tree.identifiers.names.map fun text => (IdKind.of? text).getD .var := by
  rw [Entries.toList_eq_map fun text kind get => ?_, List.map_map]
  · rfl
  · rw [(get?_identifiers.1 get).2]

/-- Isomorphic trees have as many identifiers of each kind. -/
theorem Isomorphism.census_eq {image : String → String} {tree other : Tree}
    (iso : Isomorphism image tree other) :
    Census.ofIdentifiers tree.identifiers = Census.ofIdentifiers other.identifiers := by
  have kinds : (tree.identifiers.toList.map (·.2)).Perm (other.identifiers.toList.map (·.2)) := by
    rw [kinds_eq_map, kinds_eq_map]
    refine List.Perm.trans ?_ (iso.names_perm.map _)
    rw [List.map_map]
    apply List.Perm.of_eq
    apply List.map_congr_left
    intro text mem
    rw [Function.comp_apply, iso.keepsKinds text mem]
  simp only [Census.ofIdentifiers, kinds.count_eq]

end Tree

end QueryIso
