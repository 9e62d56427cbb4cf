import QueryIso.Proofs.Histories
import QueryIso.Proofs.Rejection

/-!
# Committed bindings

A search may start from any table of bindings, and tries pairs that it gives up again. When it
succeeds, the table has all that it held before, and the identifiers of the two trees besides.

* `Tree.match?_preserves`: what binding a pair preserves, a successful match preserves, so that a
  reachable table leads to reachable ones;
* `Tree.Linked.mem_names_iff`, `Tree.Linked.mem_values_iff`: which identifiers the table reached
  binds, and to which;
* `Tree.committed_bindings_kept`: what holds of a search that succeeds within its limits, from any
  reachable table and at any depth.
-/

namespace QueryIso

namespace Tree

section
variable {property : Bindings → Prop}

/-- A successful match of the tree leads from tables with the property to one with it. -/
def Preserves (property : Bindings → Prop) (expected : Tree) : Prop :=
  ∀ actual start reached, property start → expected.match? actual start = some reached →
    property reached

theorem along_preserves {items paired : List Tree} {start reached : Bindings}
    (each : ∀ item ∈ items, item.Preserves property) (holds : property start)
    (success : Matching.along match? items paired start = some reached) : property reached := by
  induction items generalizing paired start with
  | nil =>
    obtain ⟨rfl, rfl⟩ := Matching.along_nil_iff.1 success
    exact holds
  | cons item rest ih =>
    cases paired with
    | nil => cases success
    | cons actual others =>
      obtain ⟨next, here, later⟩ := Matching.along_cons_iff.1 success
      have next_holds : property next := each item List.mem_cons_self actual start next holds here
      exact ih (fun other mem => each other (List.mem_cons_of_mem _ mem)) next_holds later

/-- What binding a pair preserves, a successful match preserves. -/
theorem match?_preserves (step : ∀ bindings : Bindings, property bindings →
    ∀ expected actual, property (bindings.bind expected actual).2) (expected : Tree) :
    expected.Preserves property := by
  intro actual start reached holds success
  induction expected generalizing actual start reached with
  | identifier text kind known =>
    obtain ⟨other, _, _, bound⟩ := of_match?_identifier known success
    have bound_holds := step start holds text other
    rwa [bound] at bound_holds
  | plain value plain =>
    obtain ⟨_, rfl⟩ := of_match?_plain plain success
    exact holds
  | sequence items ih =>
    obtain ⟨_, _, _, _, accepted⟩ := of_match?_sequence success
    exact along_preserves ih holds accepted
  | record fields ih =>
    obtain ⟨_, _, _, accepted⟩ := of_match?_record success
    exact along_preserves ih holds accepted

end

theorem reachable_of_match? {expected actual : Tree} {start reached : Bindings}
    (reachable : start.Reachable) (success : expected.match? actual start = some reached) :
    reached.Reachable :=
  match?_preserves (fun _ => .bind) expected actual start reached reachable success

namespace Linked

variable {start reached : Bindings} {expected actual : Tree}

/-- The identifiers of the actual tree are those that the expected ones are bound to. -/
theorem mentions_iff (linked : Linked reached expected actual) {target : String} :
    actual.Mentions target ↔ ∃ text, expected.Mentions text ∧ reached.get? text = some target := by
  rw [← linked.reordered.mentions_iff, mentions_rename linked.keeps]
  refine exists_congr fun text => and_congr_right fun mentioned => ?_
  obtain ⟨bound, get, _⟩ := linked.bound text mentioned
  rw [Bindings.image_of_get? get, get, Option.some.injEq]

/-- A link binds to the identifiers of the actual tree besides what was bound to before. -/
theorem mem_values_iff (linked : Linked reached expected actual)
    (grows : start.Grows reached expected.Mentions) {target : String} :
    target ∈ reached.forward.values ↔ target ∈ start.forward.values ∨ actual.Mentions target := by
  rw [Entries.mem_values_iff, Entries.mem_values_iff, linked.mentions_iff]
  constructor
  · rintro ⟨text, bound⟩
    rcases grows.added text target bound with before | mentioned
    · exact .inl ⟨text, before⟩
    · exact .inr ⟨text, mentioned, bound⟩
  · rintro (⟨text, before⟩ | ⟨text, _, bound⟩)
    · exact ⟨text, grows.kept text target before⟩
    · exact ⟨text, bound⟩

/-- A new pair consists of identifiers of one kind. -/
theorem kind_of_new (linked : Linked reached expected actual)
    (grows : start.Grows reached expected.Mentions) {text target : String}
    (bound : reached.get? text = some target) (new : start.get? text ≠ some target) :
    ∃ kind, IdKind.of? text = some kind ∧ IdKind.of? target = some kind := by
  have mentioned : expected.Mentions text := (grows.added text target bound).resolve_left new
  obtain ⟨kind, known⟩ := mentioned.kind
  have kinds := linked.keeps text mentioned
  rw [Bindings.image_of_get? bound] at kinds
  exact ⟨kind, known, kinds.trans known⟩

end Linked

/-- **Committed bindings stay.** From a table with any history, at any depth and within any limits:
if a search succeeds, the table it reaches has every pair that the first one has. Besides the
identifiers bound there, it binds exactly those of the expected tree, and besides those bound to, it
binds exactly to those of the actual tree. Both identifiers of a new pair are of one kind. The table
reached has a history in turn. -/
theorem committed_bindings_kept {limits : Limits} {expected actual : Tree} {depth : Nat}
    {start reached : Bindings} {progress after : Progress} (reachable : start.Reachable)
    (run : (expected.matchWith limits actual depth start).run.run progress =
      (.ok (true, reached), after)) :
    (∀ text target, start.get? text = some target → reached.get? text = some target) ∧
    (∀ text, text ∈ reached.forward.names ↔
      text ∈ start.forward.names ∨ text ∈ expected.identifiers.names) ∧
    (∀ target, target ∈ reached.forward.values ↔
      target ∈ start.forward.values ∨ target ∈ actual.identifiers.names) ∧
    (∀ text target, reached.get? text = some target → start.get? text ≠ some target →
      ∃ kind, IdKind.of? text = some kind ∧ IdKind.of? target = some kind) ∧
    reached.Reachable := by
  have success : expected.match? actual start = some reached := match?_of_run run
  obtain ⟨grows, linked⟩ := match?_sound expected actual start reached reachable.oneToOne success
  refine ⟨grows.kept, fun text => ?_, fun target => ?_, fun text target => ?_,
    reachable_of_match? reachable success⟩
  · rw [mem_identifiers_iff]
    exact linked.mem_names_iff grows
  · rw [mem_identifiers_iff]
    exact linked.mem_values_iff grows
  · exact linked.kind_of_new grows

/-- `?y` is bound to `?b` first, which is given up when the third element needs it to be `?c`. -/
theorem committed_bindings_kept_abandoned :
    let start := (Bindings.empty.bind "?x" "?a").2
    let expected : Tree := .sequence [.str "?y", .str "?z", .sequence [.str "?y", .str "?x"]]
    let actual : Tree := .sequence [.str "?b", .str "?c", .sequence [.str "?c", .str "?a"]]
    let search := (expected.matchWith ⟨some 5, some 17⟩ actual 3 start).run.run { steps := 5 }
    let reached : Bindings := ⟨.ofList [("?x", "?a"), ("?y", "?c"), ("?z", "?b")],
      .ofList [("?a", "?x"), ("?b", "?z"), ("?c", "?y")]⟩
    start.Reachable ∧ search = (.ok (true, reached), search.2) ∧
      .bound "?y" "?b" ∈ search.2.log ∧ reached.Reachable ∧
      (∀ text target, start.get? text = some target → reached.get? text = some target) ∧
      ∀ target, target ∈ reached.forward.values ↔
        target ∈ start.forward.values ∨ target ∈ actual.identifiers.names := by
  intro start expected actual search reached
  have reachable : start.Reachable := Bindings.Reachable.empty.bind "?x" "?a"
  have run : search = (.ok (true, reached), search.2) := Prod.ext (by decide) rfl
  have told : Event.bound "?y" "?b" ∈ search.2.log := by decide
  obtain ⟨kept, _, targets, _, reachable'⟩ := committed_bindings_kept reachable run
  exact ⟨reachable, run, told, reachable', kept, targets⟩

end Tree

end QueryIso
