import FragmentCompiler.Proofs.Session.Agreement
import FragmentCompiler.Proofs.Session.Deferred
import FragmentCompiler.Proofs.Session.Interface

/-!
# Static sessions

Sessions in which dynamic lookup is never on, texts are compiled as they are or declared, and
code generation stays on.  Lowering reports nothing in them, and whatever runs is typed.
-/

set_option autoImplicit false

namespace FragmentCompiler

open List

def SourceUnit.enables : SourceUnit → Bool
  | .pragma key value _ => key == "dynamic_lookup" && value == "on"
  | _ => false

namespace Session

/-! ## Lowering -/

/-- Dynamic lookup is off, what waits was accepted or is invalid, and lowering has reported
nothing. -/
structure Unhindered (start : Session) (waiting : List DeclId) (now : Session) : Prop where
  off : now.journal.dynamicLookup = false
  fits : ∀ id ∈ waiting, now.analysis.Fits True False False False start.analysis.decls.count id
  reports : ∀ entry ∈ now.analysis.parser.reports.toList, ¬ entry.FromCode
  known : ∀ entry ∈ now.engine.known, entry.FromCode → entry ∈ start.engine.known

section Unhindered

variable {flags : StageFlags} {start now : Session} {ids waiting : List DeclId}

theorem handlePragma_off {key value} (switched : now.Switched) {span : Span}
    (harmless : (SourceUnit.pragma key value span).enables = false)
    (off : now.journal.dynamicLookup = false) :
    (now.handlePragma key value span).journal.dynamicLookup = false := by
  have turned : ∀ after, (now.setLookup false true).mapError SessionError.message = .ok after →
      after.journal.dynamicLookup = false := by
    intro after done
    rcases setLookup_cases switched false true with ⟨_, never⟩ | ⟨_, _, _, _, fine⟩
    · cases never
    · rw [fine] at done
      cases done
      rfl
  simp only [SourceUnit.enables, Bool.and_eq_false_iff] at harmless
  unfold handlePragma
  cases applied : now.applyPragma key value with
  | error message => exact off
  | ok after =>
    unfold applyPragma at applied
    by_cases isKey : (key == "dynamic_lookup") = true
    · rw [if_pos isKey] at applied
      have notOn : ¬ (value == "on") = true := by
        rcases harmless with notKey | notOn
        · rw [isKey] at notKey
          cases notKey
        · simp [notOn]
      rw [if_neg notOn] at applied
      split at applied
      · exact turned after applied
      · cases applied
    · rw [if_neg isKey] at applied
      cases applied

theorem Unhindered.drain (unhindered : Unhindered start waiting now) :
    Unhindered start waiting now.drain where
  off := unhindered.off
  fits := fun id member => (unhindered.fits id member).of_same now.analysis.drained_decls
    now.analysis.drained_names
  reports := by
    show ∀ entry ∈ now.analysis.drained.parser.reports.toList, _
    simp
  known := by
    intro entry member fromCode
    rcases Engine.mem_known_reportAll _ member with old | new
    · exact unhindered.known entry old fromCode
    · exact absurd fromCode (unhindered.reports entry new)

open Analysis

theorem Unhindered.read (unhindered : Unhindered start waiting now)
    (works : Works flags start ids waiting now) {parser : Parser}
    (takes : now.analysis.parser.Takes parser) :
    Unhindered start waiting { now with analysis := { now.analysis with parser } } where
  off := unhindered.off
  fits := fun id member => (unhindered.fits id member).extends
    (takes_follows works.keeps.follows.ready takes works.keeps.follows.count).learns
    (works.keeps.read_same takes id (mem_append_right _ member))
  reports := by
    obtain ⟨new, isNew, text⟩ := takes.reports
    rw [isNew]
    exact forall_mem_append.mpr ⟨unhindered.reports, fun entry isText fromCode =>
      fromCode.2 (text entry isText)⟩
  known := unhindered.known

theorem Unhindered.checkedGroup {base group}
    (unhindered : Unhindered start now.analysis.fetched now)
    (works : Works flags start ids now.analysis.fetched now)
    (raw : now.analysis.decls.RawGroup base group) (low : start.analysis.decls.count ≤ base)
    (below : now.analysis.decls.Below base (ids ++ now.analysis.fetched)) :
    Unhindered start (group ++ (now.checkedGroup group).analysis.fetched)
      (now.checkedGroup group) := by
  have checked := checkGroup_checked group works.keeps.follows.ready raw
  obtain ⟨fetched, reports, evolves, _⟩ := checked.evolves
  have defers : (now.analysis.checkGroup group).2.Defers → False := by
    intro isSome
    have isOn := works.switched.resolver.symm.trans (evolves.isSome_resolver.symm.trans isSome)
    rw [unhindered.off] at isOn
    cases isOn
  have checks : Unhindered start (group ++ (now.analysis.fetched ++ fetched))
      { now with analysis := (now.analysis.checkGroup group).2 } := by
    refine ⟨unhindered.off, ?_, fun entry member => ?_, unhindered.known⟩
    · exact works.keeps.check_fits raw low below checked evolves defers unhindered.fits
    · rw [evolves.isReports] at member
      rcases mem_append.mp member with old | new
      · exact unhindered.reports entry old
      · exact fun fromCode => fromCode.2 (evolves.text entry new)
  rw [fetched_checkedGroup evolves]
  exact checks.drain

theorem Unhindered.dispatch {group rest} (unhindered : Unhindered start (group ++ rest) now)
    (works : Works flags start ids (group ++ rest) now) (plain : ¬ flags.Prompts)
    (held : start.generator.released = false) : Unhindered start rest (now.dispatch group) := by
  let passed := now.analysis.throughStages (flagsNow flags now) group
  have arranged : now.pipeline.Arranged (flagsNow flags now) := works.arranged
  obtain ⟨analysis, engine, _⟩ := dispatch_parts arranged group
  obtain ⟨regroups, silent⟩ := works.dispatch_silent plain held False.elim
    fun id member => unhindered.fits id (mem_append_left _ member)
  have reports : passed.2.parser.reports.toList = now.analysis.parser.reports.toList := by
    rw [regroups.evolves.isReports, append_nil]
  rw [show now.reported (flagsNow flags now).generates _ = passed.2 from silent] at analysis engine
  refine ⟨?_, fun id member => ?_, ?_, fun entry member fromCode => ?_⟩
  · rw [dynamicLookup_dispatch arranged]
    exact unhindered.off
  · rw [analysis]
    exact ((unhindered.fits id (mem_append_right _ member)).extends regroups.evolves.learns
      (works.keeps.others regroups id (mem_append_right _ member))).of_same
      passed.2.drained_decls passed.2.drained_names
  · rw [analysis]
    simp
  · rw [engine] at member
    rcases Engine.mem_known_reportAll _ member with old | new
    · exact unhindered.known entry old fromCode
    · rw [reports] at new
      exact absurd fromCode (unhindered.reports entry new)

theorem Unhindered.handlePragma {key value} (unhindered : Unhindered start waiting now)
    (works : Works flags start ids waiting now) {span : Span}
    (harmless : (SourceUnit.pragma key value span).enables = false) :
    Unhindered start waiting (now.handlePragma key value span) := by
  have off := handlePragma_off works.switched harmless unhindered.off
  rcases now.handlePragma_cases key value span with ⟨on, done⟩ | ⟨message, isError⟩
  · obtain ⟨_, _, isDone⟩ := setLookup_ok done
    rw [isDone] at off ⊢
    exact ⟨off, fun id member => (unhindered.fits id member).of_same rfl rfl,
      unhindered.reports, unhindered.known⟩
  · rw [isError]
    exact (unhindered.read works (badDirective_takes works.keeps.follows.ready.lexed _ _)).drain

theorem unhindered_invariant (plain : ¬ flags.Prompts) (held : start.generator.released = false) :
    Invariant flags start fun units _ waiting now =>
      (∀ unit ∈ units, unit.enables = false) → Unhindered start waiting now where
  abandon := fun works unhindered harmless =>
    (unhindered harmless).read works (Parser.abandon_takes _)
  unseen := fun unhindered _ _ harmless => { unhindered harmless with }
  read := by
    intro units ids now unit parser works unhindered isNext _ harmless
    have before := unhindered fun unit member => harmless unit (mem_append_left _ member)
    exact (before.read works (works.nextUnit isNext).1).drain
  group := by
    intro units ids now group parser works unhindered isNext checked harmless
    have before := unhindered fun unit member => harmless unit (mem_append_left _ member)
    obtain ⟨takes, reads, grouped⟩ := works.nextUnit isNext
    obtain ⟨raw, below⟩ := grouped group rfl
    have read := (before.read works takes).drain
    have fetched : { now with analysis := { now.analysis with parser } }.drain.analysis.fetched =
        now.analysis.fetched := drained_fetched _
    rw [← fetched] at read
    exact read.checkedGroup reads raw works.keeps.follows.count below
  pragma := fun works unhindered key value span member harmless =>
    (unhindered harmless).handlePragma works (harmless _ member)
  dispatch := fun works unhindered harmless => (unhindered harmless).dispatch works plain held
  empty := by
    intro units ids now works unhindered harmless
    have before := unhindered harmless
    refine ⟨before.off, fun id member => ?_, before.reports, before.known⟩
    exact (before.fits id member).of_same rfl rfl
  finish := by
    intro units ids now works unhindered harmless
    obtain ⟨reports, all, warnings, isAll, warned⟩ := finishPending_reports now.analysis
    have finished : Unhindered start [] { now with analysis := now.analysis.finishPending } := by
      refine ⟨(unhindered harmless).off, forall_mem_nil _,
        fun entry member fromCode => ?_, (unhindered harmless).known⟩
      rw [warned] at member
      rcases mem_append.mp (isAll ▸ member) with old | new
      · exact (unhindered harmless).reports entry old fromCode
      · exact Bool.noConfusion ((warnings entry new).symm.trans fromCode.1)
    exact finished.drain

end Unhindered

end Session

end FragmentCompiler
