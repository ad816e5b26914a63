import FragmentCompiler.Diagnostic.Engine
import FragmentCompiler.Proofs.Lexing

/-!
# Counting errors

The engine of a call counts every error that it has not seen yet.  While the counter
stands still, nothing that was reported is an error about the text.
-/

set_option autoImplicit false

namespace FragmentCompiler.Engine

open List

variable {diagnostic : Diagnostic} {engine : Engine}

/-- One engine comes from another by reporting. -/
structure Grows (before after : Engine) : Prop where
  errors : before.errors ≤ after.errors
  depth : after.depth = before.depth
  /-- While the counter stands still no error is added. -/
  known : after.errors = before.errors → ∀ entry ∈ after.known, entry.isError = true →
    entry ∈ before.known
  kept : ∀ entry ∈ before.known, entry ∈ after.known

theorem Grows.refl (engine : Engine) : engine.Grows engine :=
  ⟨Nat.le_refl _, rfl, fun _ _ member _ => member, fun _ member => member⟩

theorem Grows.trans {first second third : Engine} (left : first.Grows second)
    (right : second.Grows third) : first.Grows third := by
  refine ⟨Nat.le_trans left.errors right.errors, right.depth.trans left.depth,
    fun same entry member isError => ?_,
    fun entry member => right.kept entry (left.kept entry member)⟩
  have middle := Nat.le_antisymm (same ▸ right.errors) left.errors
  exact left.known middle entry (right.known (same.trans middle.symm) entry member isError) isError

theorem report_grows (engine : Engine) (diagnostic : Diagnostic) :
    engine.Grows (engine.report diagnostic) := by
  unfold report
  split
  · exact .refl engine
  · cases isError : diagnostic.isError with
    | true =>
      have counted : (engine.record diagnostic).errors = engine.errors + 1 := by
        simp [record, isError]
      exact ⟨Nat.le_of_lt (by simp [counted]), rfl,
        fun same => absurd (counted.symm.trans same) (Nat.succ_ne_self _),
        fun _ member => mem_cons_of_mem _ member⟩
    | false =>
      refine ⟨by simp [record, isError], rfl, fun _ entry member found => ?_,
        fun _ member => mem_cons_of_mem _ member⟩
      rcases mem_cons.mp member with isEntry | old
      · rw [isEntry, isError] at found
        cases found
      · exact old

theorem reportAll_grows (diagnostics : List Diagnostic) :
    ∀ engine : Engine, engine.Grows (engine.reportAll diagnostics) := by
  induction diagnostics with
  | nil => exact fun engine => .refl engine
  | cons diagnostic rest ih =>
    exact fun engine => (engine.report_grows diagnostic).trans (ih (engine.report diagnostic))

theorem Grows.still {first second third : Engine} (left : first.Grows second)
    (right : second.Grows third) (same : third.errors = first.errors) :
    second.errors = first.errors := Nat.le_antisymm (same ▸ right.errors) left.errors

def Free (engine : Engine) (codes : Code → Prop) : Prop :=
  ∀ entry ∈ engine.known, entry.isError = true → ¬ codes entry.code

/-- No error about the text was reported. -/
def Quiet (engine : Engine) : Prop := engine.Free fun code => code.number < 4000

def Silent (engine : Engine) : Prop := ∀ entry ∈ engine.known, entry.isError = false

variable {codes : Code → Prop}

theorem Silent.free (silent : engine.Silent) : engine.Free codes := by
  intro entry member isError
  rw [silent entry member] at isError
  cases isError

theorem Grows.free {before after : Engine} (grows : before.Grows after) (free : before.Free codes)
    (same : after.errors = before.errors) : after.Free codes :=
  fun entry member isError => free entry (grows.known same entry member isError) isError

theorem Grows.silent {before after : Engine} (grows : before.Grows after) (silent : before.Silent)
    (same : after.errors = before.errors) : after.Silent := by
  intro entry member
  cases isError : entry.isError with
  | false => rfl
  | true => exact isError.symm.trans (silent entry (grows.known same entry member isError))

theorem same_of_repeats {entry} (repeats : diagnostic.repeats entry = true) :
    entry.code = diagnostic.code ∧ entry.isError = diagnostic.isError := by
  simp only [Diagnostic.repeats, Bool.and_eq_true, beq_iff_eq] at repeats
  obtain ⟨⟨⟨sameCode, sameSeverity⟩, _⟩, _⟩ := repeats
  refine ⟨sameCode.symm, ?_⟩
  unfold Diagnostic.isError
  rw [sameSeverity]

theorem Free.report (free : engine.Free codes) (isOne : codes diagnostic.code)
    (same : (engine.report diagnostic).errors = engine.errors) : diagnostic.isError = false := by
  cases isError : diagnostic.isError with
  | false => rfl
  | true =>
    unfold Engine.report at same
    split at same
    · rename_i repeated
      obtain ⟨entry, member, repeats⟩ := any_eq_true.mp repeated
      obtain ⟨sameCode, sameKind⟩ := same_of_repeats repeats
      refine absurd ?_ (free entry member (sameKind.trans isError))
      rw [sameCode]
      exact isOne
    · simp [record, isError] at same

theorem known_reportAll (diagnostics : List Diagnostic) :
    ∀ engine : Engine, ∀ diagnostic ∈ diagnostics, ∃ entry ∈ (engine.reportAll diagnostics).known,
      entry.code = diagnostic.code ∧ entry.isError = diagnostic.isError := by
  induction diagnostics with
  | nil => simp
  | cons first rest ih =>
    intro engine diagnostic member
    rcases mem_cons.mp member with rfl | inRest
    · have known : ∃ entry ∈ (engine.report diagnostic).known,
          entry.code = diagnostic.code ∧ entry.isError = diagnostic.isError := by
        unfold Engine.report
        split
        · rename_i repeated
          obtain ⟨entry, member, repeats⟩ := any_eq_true.mp repeated
          exact ⟨entry, member, same_of_repeats repeats⟩
        · exact ⟨diagnostic, mem_cons_self, rfl, rfl⟩
      obtain ⟨entry, member, same⟩ := known
      exact ⟨entry, (reportAll_grows rest _).kept entry member, same⟩
    · exact ih (engine.report first) diagnostic inRest

theorem Free.reportAll (diagnostics : List Diagnostic) :
    ∀ {engine : Engine}, engine.Free codes →
      (engine.reportAll diagnostics).errors = engine.errors →
      ∀ entry ∈ diagnostics, codes entry.code → entry.isError = false := by
  induction diagnostics with
  | nil => simp
  | cons diagnostic rest ih =>
    intro engine free same entry member isOne
    have first := engine.report_grows diagnostic
    have later := reportAll_grows rest (engine.report diagnostic)
    have sameFirst := first.still later same
    rcases mem_cons.mp member with isFirst | inRest
    · rw [isFirst] at isOne ⊢
      exact free.report isOne sameFirst
    · exact ih (first.free free sameFirst) (same.trans sameFirst.symm) entry inRest isOne

theorem Silent.reportAll (silent : engine.Silent) (diagnostics : List Diagnostic)
    (same : (engine.reportAll diagnostics).errors = engine.errors) :
    ∀ entry ∈ diagnostics, entry.isError = false := by
  have free : engine.Free fun _ => True := silent.free
  exact fun entry member => free.reportAll diagnostics same entry member trivial

end FragmentCompiler.Engine
