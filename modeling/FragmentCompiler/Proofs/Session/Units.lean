import FragmentCompiler.Proofs.Session.Call

/-!
# Along a call

A call reads one unit after another, and checks and dispatches those that are groups.  What
every such step keeps holds when the whole text has been taken in.
-/

set_option autoImplicit false

namespace FragmentCompiler

open List

def SourceUnit.isPragma : SourceUnit → Bool
  | .pragma .. => true
  | _ => false

namespace Session

/-- The units that `takeUnits` reads, in order. -/
def readUnits : Nat → Session → List SourceUnit
  | 0, _ => []
  | fuel + 1, session =>
    let (unit, parser) := session.analysis.parser.nextUnit session.patience
    let session := { session with analysis := { session.analysis with parser } }.drain
    unit :: match unit with
      | .finished => []
      | .pragma key value span => readUnits fuel (session.handlePragma key value span)
      | .group [] => readUnits fuel session
      | .group group => readUnits fuel ((session.checkedGroup group).dispatch group)

def pendingUnits (session : Session) : List SourceUnit :=
  ((session.beginPhase "parse").2.beginSpan .pass "parse").readUnits session.patience

/-- The units a call reads. -/
def units (session : Session) (text : Text) (declOnly : Bool) : List SourceUnit :=
  (session.entered text declOnly).pendingUnits

/-- What every step of a call keeps: `holds` is said of the units read so far, the
declarations dispatched and those that wait, and the session. -/
structure Invariant (flags : StageFlags) (start : Session)
    (holds : List SourceUnit → List DeclId → List DeclId → Session → Prop) : Prop where
  abandon : ∀ {units ids now}, Works flags start ids now.analysis.fetched now →
    holds units ids now.analysis.fetched now →
    holds units ids now.analysis.fetched
      { now with analysis := { now.analysis with parser := now.analysis.parser.abandon } }
  unseen : ∀ {units ids waiting now}, holds units ids waiting now →
    ∀ (trace : TraceRecorder) (timer : Option Timer), holds units ids waiting { now with trace, timer }
  /-- A unit is read that is not a group to be checked. -/
  read : ∀ {units ids now unit parser}, Works flags start ids now.analysis.fetched now →
    holds units ids now.analysis.fetched now →
    now.analysis.parser.nextUnit now.patience = (unit, parser) →
    (∀ id rest, unit ≠ .group (id :: rest)) →
    holds (units ++ [unit]) ids now.analysis.fetched
      { now with analysis := { now.analysis with parser } }.drain
  /-- A group is read and checked. -/
  group : ∀ {units ids now group parser}, Works flags start ids now.analysis.fetched now →
    holds units ids now.analysis.fetched now →
    now.analysis.parser.nextUnit now.patience = (.group group, parser) →
    let checked := { now with analysis := { now.analysis with parser } }.drain.checkedGroup group
    holds (units ++ [.group group]) ids (group ++ checked.analysis.fetched) checked
  pragma : ∀ {units ids now}, Works flags start ids now.analysis.fetched now →
    holds units ids now.analysis.fetched now → ∀ key value span, .pragma key value span ∈ units →
    holds units ids now.analysis.fetched (now.handlePragma key value span)
  dispatch : ∀ {units ids group rest now}, Works flags start ids (group ++ rest) now →
    holds units ids (group ++ rest) now →
    holds units (ids ++ (now.analysis.throughStages (flagsNow flags now) group).1) rest
      (now.dispatch group)
  empty : ∀ {units ids now}, Works flags start ids now.analysis.fetched now →
    holds units ids now.analysis.fetched now →
    holds units ids now.analysis.fetched
      { now with analysis := { now.analysis with fetched := [] } }
  finish : ∀ {units ids now}, Works flags start ids [] now → holds units ids [] now →
    holds units ids [] { now with analysis := now.analysis.finishPending }.drain

section Invariant

variable {flags : StageFlags} {start : Session}
  {holds : List SourceUnit → List DeclId → List DeclId → Session → Prop}

section

variable (invariant : Invariant flags start holds)

include invariant

theorem Invariant.takeUnits (fuel : Nat) :
    ∀ {units : List SourceUnit} {ids : List DeclId} {now : Session},
      Works flags start ids now.analysis.fetched now → holds units ids now.analysis.fetched now →
      ∃ ids', Works flags start ids' (takeUnits fuel now).analysis.fetched (takeUnits fuel now) ∧
        holds (units ++ readUnits fuel now) ids' (takeUnits fuel now).analysis.fetched
          (takeUnits fuel now) := by
  induction fuel with
  | zero =>
    intro units ids now works held
    have stopped := invariant.abandon works held
    refine ⟨ids, works.read (Parser.abandon_takes _), ?_⟩
    rw [readUnits, append_nil]
    exact stopped
  | succ fuel ih =>
    intro units ids now works held
    unfold Session.takeUnits readUnits
    rcases isNext : now.analysis.parser.nextUnit now.patience with ⟨unit, parser⟩
    obtain ⟨_, reads, grouped⟩ := works.nextUnit isNext
    let read := { now with analysis := { now.analysis with parser } }.drain
    have fetched : read.analysis.fetched = now.analysis.fetched := Analysis.drained_fetched _
    have readHeld : (∀ id rest, unit ≠ .group (id :: rest)) →
        holds (units ++ [unit]) ids read.analysis.fetched read := by
      rw [fetched]
      exact invariant.read works held isNext
    have joined : ∀ others : List SourceUnit, units ++ unit :: others = (units ++ [unit]) ++ others :=
      fun others => by rw [append_assoc, singleton_append]
    dsimp only
    rw [joined]
    cases unit with
    | finished => exact ⟨ids, reads, by rw [append_nil]; exact readHeld (by simp)⟩
    | pragma key value span =>
      have carried := reads.handlePragma key value span
      have carriedHeld := invariant.pragma reads (readHeld (by simp)) key value span
        (mem_append_right _ mem_cons_self)
      rw [← fetched_handlePragma _ key value span] at carried carriedHeld
      exact ih carried carriedHeld
    | group group =>
      cases group with
      | nil => exact ih reads (readHeld (by simp))
      | cons id rest =>
        obtain ⟨raw, below⟩ := grouped _ rfl
        have checks := reads.checkedGroup raw works.keeps.follows.count below
        have sent := invariant.dispatch checks (invariant.group works held isNext)
        rw [← checks.fetched_dispatch] at sent
        exact ih checks.dispatchChecked sent

theorem Invariant.dispatchEach (waiting : List DeclId) :
    ∀ {units : List SourceUnit} {ids : List DeclId} {now : Session},
      Works flags start ids waiting now → holds units ids waiting now →
      let after := waiting.foldl (fun session id => session.dispatch [id]) now
      (∃ ids', Works flags start ids' [] after ∧ holds units ids' [] after) ∧
        after.analysis.fetched = now.analysis.fetched ∧
        after.analysis.parser.inputs = now.analysis.parser.inputs := by
  induction waiting with
  | nil => exact fun works held => ⟨⟨_, works, held⟩, rfl, rfl⟩
  | cons id rest ih =>
    intro units ids now works held
    have first : Works flags start ids ([id] ++ rest) now := works
    obtain ⟨others, fetched, inputs⟩ := ih first.dispatch (invariant.dispatch first held)
    exact ⟨others, fetched.trans first.fetched_dispatch, inputs.trans first.inputs_dispatch⟩

/-- Everything that was read has been dispatched when the call settles. -/
theorem Invariant.takeIn {ids now} (works : Works flags start ids now.analysis.fetched now)
    (held : holds [] ids now.analysis.fetched now) :
    (∃ ids', Works flags start ids' [] now.takeIn ∧ holds now.pendingUnits ids' [] now.takeIn) ∧
      now.takeIn.analysis.prototypeCalls = [] ∧ now.takeIn.analysis.fetched = [] ∧
      now.takeIn.analysis.parser.inputs = [] := by
  let entered : Session := (now.beginPhase "parse").2.beginSpan .pass "parse"
  obtain ⟨read, reads, readHeld⟩ := invariant.takeUnits now.patience
    (show Works flags start ids entered.analysis.fetched entered from works.unseen _ _)
    (invariant.unseen held _ _)
  obtain ⟨early, late, parsed⟩ : ∃ late ended, now.parseInput =
      { entered.takeUnits now.patience with trace := late, timer := ended } := ⟨_, _, rfl⟩
  have parseWorks : Works flags start read now.parseInput.analysis.fetched now.parseInput := by
    rw [parsed]
    exact reads.unseen _ _
  have parseHeld : holds now.pendingUnits read now.parseInput.analysis.fetched now.parseInput := by
    rw [parsed]
    exact invariant.unseen readHeld _ _
  have emptied : now.parseInput.analysis.parser.inputs = [] := by
    rw [parsed]
    exact inputs_takeUnits _ _
  obtain ⟨early, late, begun, ended, dispatched⟩ := now.parseInput.dispatchFetched_eq
  have empties := (parseWorks.of_same { now.parseInput.analysis with fetched := [] }
    parseWorks.keeps.follows.ready.lexed rfl rfl rfl rfl).unseen early begun
  obtain ⟨⟨all, sends, sendHeld⟩, fetched, inputs⟩ :=
    invariant.dispatchEach now.parseInput.analysis.fetched empties
      (invariant.unseen (invariant.empty parseWorks parseHeld) early begun)
  have dispatches : Works flags start all [] now.parseInput.dispatchFetched ∧
      holds now.pendingUnits all [] now.parseInput.dispatchFetched ∧
      now.parseInput.dispatchFetched.analysis.fetched = [] ∧
      now.parseInput.dispatchFetched.analysis.parser.inputs = [] := by
    rw [dispatched]
    exact ⟨sends.unseen late ended, invariant.unseen sendHeld late ended, fetched,
      inputs.trans emptied⟩
  obtain ⟨sends, sendHeld, fetched, inputs⟩ := dispatches
  obtain ⟨early, late, begun, ended, finished⟩ := now.parseInput.dispatchFetched.finishPending_eq
  unfold Session.takeIn
  rw [finished]
  refine ⟨⟨all, (sends.unseen early begun).finishPending.drain.unseen late ended,
    invariant.unseen (invariant.finish (sends.unseen early begun)
      (invariant.unseen sendHeld early begun)) late ended⟩,
    Analysis.drained_calls _, ?_, ?_⟩
  · exact (Analysis.drained_fetched _).trans ((fetched_finishPending _).trans fetched)
  · exact (Analysis.drained_inputs _).trans ((inputs_finishPending _).trans inputs)

end

theorem Works.takeIn {ids now} (works : Works flags start ids now.analysis.fetched now) :
    (∃ ids', Works flags start ids' [] now.takeIn) ∧ now.takeIn.analysis.prototypeCalls = [] ∧
      now.takeIn.analysis.fetched = [] ∧ now.takeIn.analysis.parser.inputs = [] := by
  have anything : Invariant flags start fun _ _ _ _ => True := by constructor <;> intros <;> trivial
  obtain ⟨⟨ids', ends, _⟩, emptied⟩ := anything.takeIn works trivial
  exact ⟨⟨ids', ends⟩, emptied⟩

end Invariant

end Session

end FragmentCompiler
