import FragmentCompiler.Proofs.Checking.Basic

/-!
# Reasoning about checks

A check changes the analysis as checking may, and counts its errors.  The rules below
follow the monad, so a proof about a check follows the text of the check.
-/

set_option autoImplicit false

namespace FragmentCompiler

open List

variable {α β : Type}

/-- One state of checking comes from another; every error that was counted was also
reported. -/
structure Checker.Moves (own : DeclId → Prop) (before after : Checker) : Prop where
  evolves : ∃ fetched reports,
    before.analysis.EvolvesBy own fetched reports after.analysis ∧
      (before.errors < after.errors → ∃ entry ∈ reports, entry.isError = true)
  errors : before.errors ≤ after.errors

namespace Checker

variable {after before checker : Checker}

theorem Moves.refl (ready : checker.analysis.Ready) (own : DeclId → Prop) :
    checker.Moves own checker :=
  ⟨⟨[], [], .refl ready own, fun impossible => absurd impossible (Nat.lt_irrefl _)⟩, Nat.le_refl _⟩

variable {own : DeclId → Prop}

theorem Moves.ready (moves : before.Moves own after) : after.analysis.Ready := by
  obtain ⟨_, _, evolves, _⟩ := moves.evolves
  exact evolves.ready

theorem Moves.count (moves : before.Moves own after) :
    before.analysis.decls.count ≤ after.analysis.decls.count := by
  obtain ⟨_, _, evolves, _⟩ := moves.evolves
  exact evolves.count

theorem Moves.learns (moves : before.Moves own after) : before.analysis.Extends after.analysis := by
  obtain ⟨_, _, evolves, _⟩ := moves.evolves
  exact evolves.learns

theorem Moves.defers
    (moves : before.Moves own after) : after.analysis.Defers = before.analysis.Defers := by
  obtain ⟨_, _, evolves, _⟩ := moves.evolves
  exact Analysis.defers_congr evolves.resolver

theorem Moves.imports (moves : before.Moves own after)
    (taken : ∀ other, own other → ∃ decl, before.analysis.decls.get? other = some decl ∧
      ∀ data, decl.body = .function data → before.analysis.names.lookup decl.name ≠ none) :
    after.analysis.Imports before.analysis := by
  obtain ⟨_, _, evolves, _⟩ := moves.evolves
  intro id member
  rw [evolves.isFetched, drop_left] at member
  exact evolves.imports taken id member

theorem Moves.kept
    (moves : before.Moves own after) {id : DeclId} (known : id ≤ before.analysis.decls.count)
    (strange : ¬ own id) : after.analysis.decls.get? id = before.analysis.decls.get? id := by
  obtain ⟨_, _, evolves, _⟩ := moves.evolves
  exact evolves.kept id known strange

theorem Moves.mono {wider} (moves : before.Moves own after) (more : ∀ id, own id → wider id) :
    before.Moves wider after := by
  obtain ⟨fetched, reports, evolves, counted⟩ := moves.evolves
  exact ⟨⟨fetched, reports, evolves.mono more, counted⟩, moves.errors⟩

theorem Moves.trans {first second third : Checker}
    (left : first.Moves own second) (right : second.Moves own third)
    (bounded : ∀ id, own id → id ≤ first.analysis.decls.count) : first.Moves own third := by
  obtain ⟨_, firstReports, leftEvolves, leftCounted⟩ := left.evolves
  obtain ⟨_, secondReports, rightEvolves, rightCounted⟩ := right.evolves
  refine ⟨⟨_, _, leftEvolves.trans rightEvolves bounded, fun more => ?_⟩,
    Nat.le_trans left.errors right.errors⟩
  rcases Nat.lt_or_ge first.errors second.errors with early | late
  · obtain ⟨entry, member, isError⟩ := leftCounted early
    exact ⟨entry, mem_append_left _ member, isError⟩
  · obtain ⟨entry, member, isError⟩ := rightCounted (Nat.lt_of_le_of_lt late more)
    exact ⟨entry, mem_append_right _ member, isError⟩

/-- Where no error was counted in all, none was counted on the way. -/
theorem Moves.same_errors {other : DeclId → Prop} {middle : Checker} (left : before.Moves own middle)
    (right : middle.Moves other after) (same : after.errors = before.errors) :
    middle.errors = before.errors ∧ after.errors = middle.errors := by
  have := left.errors
  have := right.errors
  omega

theorem Moves.of_body (ready : checker.analysis.Ready) (own : DeclId → Prop)
    (body : BodyContext) : checker.Moves own { checker with body } :=
  ⟨⟨[], [], .refl ready own, fun impossible => absurd impossible (Nat.lt_irrefl _)⟩, Nat.le_refl _⟩

theorem Moves.of_evolves {fetched reports} {analysis : Analysis}
    (evolves : checker.analysis.EvolvesBy own fetched reports analysis) :
    checker.Moves own { checker with analysis } :=
  ⟨⟨fetched, reports, evolves, fun impossible => absurd impossible (Nat.lt_irrefl _)⟩,
    Nat.le_refl _⟩

end Checker

namespace Check

/-- No entry that was there changes. -/
def nothing : DeclId → Prop := fun _ => False

/-- Started in a well-formed state, a check does what checking may do to the entries of
`own`, and its result is good in the state it leaves. -/
def Spec (own : DeclId → Prop) (before : Checker) (check : Check α)
    (good : α → Checker → Prop) : Prop :=
  before.analysis.Ready → (∀ id, own id → id ≤ before.analysis.decls.count) →
    before.Moves own (check before).2 ∧ good (check before).1 (check before).2

variable {own : DeclId → Prop} {before : Checker}

variable {good : α → Checker → Prop}

theorem Spec.pure {value} (holds : good value before) : Spec own before (pure value) good :=
  fun ready _ => ⟨.refl ready own, holds⟩

variable {check : Check α}

theorem Spec.assuming
    (known : before.analysis.Ready → Spec own before check good) : Spec own before check good :=
  fun ready bounded => known ready ready bounded

theorem Spec.bind {fine} {next : α → Check β} (first : Spec own before check good)
    (second : ∀ value middle, before.Moves own middle → good value middle →
      Spec own middle (next value) fine) :
    Spec own before (check >>= next) fine := by
  intro ready bounded
  obtain ⟨moves, holds⟩ := first ready bounded
  obtain ⟨movesMore, last⟩ := second _ _ moves holds moves.ready fun id isOwn =>
    Nat.le_trans (bounded id isOwn) moves.count
  exact ⟨moves.trans movesMore bounded, last⟩

theorem Spec.mono {fine} (known : Spec own before check good)
    (enough : ∀ value after, before.Moves own after → good value after → fine value after) : Spec
    own before check fine := by
  intro ready bounded
  obtain ⟨moves, holds⟩ := known ready bounded
  exact ⟨moves, enough _ _ moves holds⟩

/-- A check of fewer entries; that it touched no others stays known. -/
theorem Spec.widen {narrow} (known : Spec narrow before check good)
    (more : ∀ id, narrow id → own id) :
    Spec own before check fun value after => before.Moves narrow after ∧ good value after := by
  intro ready bounded
  obtain ⟨moves, holds⟩ := known ready fun id isNarrow => bounded id (more id isNarrow)
  exact ⟨moves.mono more, moves, holds⟩

theorem Spec.anywhere (known : Spec nothing before check good) :
    Spec own before check fun value after => before.Moves nothing after ∧ good value after :=
  known.widen fun _ impossible => impossible.elim

theorem Spec.get_bind {next : Checker → Check α} (known : Spec own before (next before) good) :
    Spec own before (get >>= next) good := known

theorem Spec.decls_bind {next : Declarations → Check α}
    (known : Spec own before (next before.analysis.decls) good) :
    Spec own before (decls >>= next) good := known

theorem Spec.updateBody (change : BodyContext → BodyContext) :
    Spec own before (updateBody change) fun _ after =>
      after = { before with body := change before.body } :=
  fun ready _ => ⟨.of_body ready own _, rfl⟩

/-- Reporting keeps the body; a warning counts no error, and an error one. -/
theorem Spec.report (diagnostic : Diagnostic) (text : diagnostic.FromText) :
    Spec own before (report diagnostic) fun _ after =>
      after.body = before.body ∧ after.analysis.decls = before.analysis.decls ∧
        after.analysis.fetched = before.analysis.fetched ∧
        (diagnostic.severity = .error → before.errors < after.errors) := by
  intro ready _
  refine ⟨⟨⟨[], [diagnostic], Analysis.report_evolves ready own diagnostic text, ?_⟩, ?_⟩, rfl, rfl,
    rfl, ?_⟩
  · intro (counted : before.errors <
      if diagnostic.severity = .error then before.errors + 1 else before.errors)
    refine ⟨diagnostic, mem_singleton.mpr rfl, ?_⟩
    split at counted
    · rename_i isError
      show diagnostic.severity.isError = true
      rw [isError]
      rfl
    · exact absurd counted (Nat.lt_irrefl _)
  · show before.errors ≤ if diagnostic.severity = .error then before.errors + 1 else before.errors
    split
    · exact Nat.le_succ _
    · exact Nat.le_refl _
  · intro isError
    show before.errors < if diagnostic.severity = .error then before.errors + 1 else before.errors
    rw [if_pos isError]
    exact Nat.lt_succ_self _

/-- An error was counted, and nothing else happened. -/
structure Rejected (before after : Checker) : Prop where
  body : after.body = before.body
  decls : after.analysis.decls = before.analysis.decls
  fetched : after.analysis.fetched = before.analysis.fetched
  counted : before.errors < after.errors

theorem reportError_spec {diagnostic} (text : diagnostic.FromText)
    (isError : diagnostic.severity = .error) :
    Spec own before (Check.report diagnostic) fun _ after => Rejected before after :=
  (Spec.report diagnostic text).mono fun _ _ _ ⟨body, decls, fetched, counted⟩ =>
    ⟨body, decls, fetched, counted isError⟩

theorem reject_spec {span code message} (text : code.number < 4000 := by decide) :
    Spec own before (reject span code message) fun _ after => Rejected before after :=
  reportError_spec text rfl

end Check

end FragmentCompiler
