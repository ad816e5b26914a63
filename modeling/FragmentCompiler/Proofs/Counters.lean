import FragmentCompiler.Diagnostic.Engine
import Mathlib.Data.Finset.Card
import Mathlib.Data.Prod.Lex

/-!
# The counters of a call

In one scope every report counts once however often it is made; the limit of the bag only cuts what
is listed.
-/

set_option autoImplicit false

namespace FragmentCompiler

open List

namespace Diagnostic

def key (diagnostic : Diagnostic) : Code × Severity × Span × Text :=
  (diagnostic.code, diagnostic.severity, diagnostic.span, diagnostic.message)

theorem repeats_eq (left right : Diagnostic) : left.repeats right = (left.key == right.key) := by
  rw [Bool.eq_iff_iff]
  simp [repeats, key, and_assoc]

/-- What the listing goes by. -/
def place (diagnostic : Diagnostic) : Nat ×ₗ Nat ×ₗ Nat ×ₗ Natᵒᵈ ×ₗ Nat :=
  toLex (diagnostic.span.file, toLex (diagnostic.span.start, toLex (diagnostic.span.stop,
    toLex (OrderDual.toDual diagnostic.severity.rank, diagnostic.code.number))))

theorem precedes_iff {left right : Diagnostic} :
    left.precedes right = true ↔ left.place < right.place := by
  have severity : left.severity = right.severity ↔ left.severity.rank = right.severity.rank := by
    rw [Severity.mk.injEq]
  simp only [precedes, place, Prod.Lex.toLex_lt_toLex, OrderDual.toDual_lt_toDual,
    OrderDual.toDual_inj]
  split_ifs <;> simp_all

theorem sorted_eq (items : List Diagnostic) :
    sorted items = items.mergeSort fun left right => decide (left.place ≤ right.place) := by
  unfold sorted
  congr 1
  funext left right
  rw [Bool.eq_iff_iff]
  simp [← Bool.not_eq_true, precedes_iff]

theorem pairwise_sorted (items : List Diagnostic) :
    (sorted items).Pairwise (·.place ≤ ·.place) := by
  rw [sorted_eq]
  refine (pairwise_mergeSort (by simpa using fun _ _ _ => le_trans)
    (by simpa using fun _ _ => le_total _ _) items).imp ?_
  simp

/-- Items of one place keep their order. -/
theorem filter_sorted (items : List Diagnostic) (place : Nat ×ₗ Nat ×ₗ Nat ×ₗ Natᵒᵈ ×ₗ Nat) :
    (sorted items).filter (·.place = place) = items.filter (·.place = place) := by
  have tied : (items.filter (·.place = place)).Pairwise fun left right =>
      decide (left.place ≤ right.place) = true := by
    refine pairwise_of_forall_mem_list fun left isLeft right isRight => ?_
    simp only [mem_filter, decide_eq_true_eq] at isLeft isRight ⊢
    exact (isLeft.2.trans isRight.2.symm).le
  have inside : items.filter (·.place = place) <+ sorted items := by
    rw [sorted_eq]
    exact sublist_mergeSort (by simpa using fun _ _ _ => le_trans)
      (by simpa using fun _ _ => le_total _ _) tied filter_sublist
  have same := (mergeSort_perm items fun left right => !right.precedes left).filter (·.place = place)
  refine (Sublist.eq_of_length ?_ same.length_eq.symm).symm
  have kept := inside.filter (·.place = place)
  simp only [filter_filter, Bool.and_self] at kept
  exact kept

end Diagnostic

namespace Engine

inductive Event
  | report (diagnostic : Diagnostic)
  | enter
  | leave
  | reset

namespace Event

def report? : Event → Option Diagnostic
  | .report diagnostic => some diagnostic
  | _ => none

/-- Every scope that is closed was opened before, inside `depth` scopes. -/
def inside : Nat → List Event → Bool
  | _, [] => true
  | depth, .report _ :: rest => inside depth rest
  | depth, .enter :: rest => inside (depth + 1) rest
  | 0, .leave :: _ => false
  | depth + 1, .leave :: rest => inside depth rest
  | _, .reset :: _ => false

end Event

def play (engine : Engine) : Event → Engine
  | .report diagnostic => engine.report diagnostic
  | .enter => engine.beginScope
  | .leave => engine.endScope
  | .reset => engine.reset

def playAll (engine : Engine) (events : List Event) : Engine := events.foldl play engine

/-- The first reports of each key. -/
def firsts (reports : List Diagnostic) : List Diagnostic :=
  reports.eraseDupsBy fun left right => left.key == right.key

/-- The engine that knows `known`, the latest report first. -/
def tally (limit depth : Nat) (known : List Diagnostic) : Engine where
  bag := { items := known.reverse.take limit, limit }
  known
  errors := known.countP Diagnostic.isError
  warnings := known.countP (·.severity = .warning)
  dropped := known.length - limit
  depth

theorem report_tally (limit depth : Nat) (known : List Diagnostic) (diagnostic : Diagnostic) :
    (tally limit depth known).report diagnostic = tally limit depth
      (if known.any diagnostic.repeats then known else diagnostic :: known) := by
  unfold report
  show (if known.any diagnostic.repeats then _ else _) = _
  split_ifs
  · rfl
  · by_cases full : limit ≤ known.length
    · have room : take limit (known.reverse ++ [diagnostic]) = take limit known.reverse :=
        take_append_of_le_length (by simpa using full)
      simp [tally, record, Bag.add, countP_cons, full, room, Nat.succ_sub full]
      split_ifs <;> simp
    · have room : known.length + 1 ≤ limit := Nat.lt_of_not_le full
      simp [tally, record, Bag.add, countP_cons, full, take_of_length_le, room, Nat.le_of_succ_le room]
      split_ifs <;> simp

/-- Keys that are known once are known once after more reports, and all reported keys are. -/
theorem loop_keys (reports : List Diagnostic) : ∀ known : List Diagnostic,
    (known.map Diagnostic.key).Nodup →
    let last := eraseDupsBy.loop (fun left right => left.key == right.key) reports known
    (last.map Diagnostic.key).Nodup ∧
      ∀ key, key ∈ last.map Diagnostic.key ↔ key ∈ (known ++ reports).map Diagnostic.key := by
  induction reports with
  | nil =>
    intro known distinct
    simpa [eraseDupsBy.loop, map_reverse] using distinct
  | cons diagnostic rest ih =>
    intro known distinct
    have seen : known.any (diagnostic.key == ·.key) =
        decide (diagnostic.key ∈ known.map Diagnostic.key) := by
      rw [Bool.eq_iff_iff]
      simp [@eq_comm _ diagnostic.key]
    simp only [eraseDupsBy.loop, seen]
    by_cases inKnown : diagnostic.key ∈ known.map Diagnostic.key
    · obtain ⟨lasting, keys⟩ := ih known distinct
      rw [decide_eq_true inKnown]
      refine ⟨lasting, fun key => (keys key).trans ?_⟩
      simp only [map_append, map_cons, mem_append, mem_cons]
      grind
    · obtain ⟨lasting, keys⟩ := ih (diagnostic :: known) (nodup_cons.mpr ⟨inKnown, distinct⟩)
      rw [decide_eq_false inKnown]
      refine ⟨lasting, fun key => (keys key).trans ?_⟩
      simp only [map_append, map_cons, mem_append, mem_cons]
      grind

theorem countP_firsts (reports : List Diagnostic) (holds : Code × Severity × Span × Text → Bool) :
    (firsts reports).countP (holds ·.key) =
      ((reports.map Diagnostic.key).toFinset.filter (holds · = true)).card := by
  obtain ⟨distinct, keys⟩ := loop_keys reports [] nodup_nil
  have same : (reports.map Diagnostic.key).toFinset = ((firsts reports).map Diagnostic.key).toFinset := by
    ext key
    rw [mem_toFinset, mem_toFinset]
    exact (keys key).symm
  have isDistinct : (filter holds ((firsts reports).map Diagnostic.key)).Nodup := distinct.filter _
  rw [same, ← toFinset_filter, toFinset_card_of_nodup isDistinct, ← countP_eq_length_filter, countP_map]
  rfl

theorem playAll_tally (limit : Nat) (events : List Event) : ∀ (depth : Nat) (known : List Diagnostic),
    Event.inside depth events = true → ∃ last, (tally limit (depth + 1) known).playAll events =
      tally limit (last + 1) (eraseDupsBy.loop (fun left right => left.key == right.key)
        (events.filterMap Event.report?) known).reverse := by
  induction events with
  | nil => exact fun depth known _ => ⟨depth, by simp [playAll, eraseDupsBy.loop]⟩
  | cons event rest ih =>
    intro depth known inside
    cases event with
    | report diagnostic =>
      have seen : known.any diagnostic.repeats = known.any (diagnostic.key == ·.key) :=
        congrArg known.any (funext (Diagnostic.repeats_eq diagnostic))
      show ∃ last, playAll ((tally limit (depth + 1) known).report diagnostic) rest = _
      rw [report_tally, seen, show (Event.report diagnostic :: rest).filterMap Event.report? =
        diagnostic :: rest.filterMap Event.report? from rfl, eraseDupsBy.loop]
      cases known.any (diagnostic.key == ·.key) <;> exact ih depth _ inside
    | enter => exact ih (depth + 1) known inside
    | leave =>
      cases depth with
      | zero => cases inside
      | succ depth => exact ih depth known inside
    | reset => cases inside

theorem limit_playAll (events : List Event) :
    ∀ engine : Engine, (engine.playAll events).bag.limit = engine.bag.limit := by
  induction events with
  | nil => exact fun _ => rfl
  | cons event rest ih =>
    intro engine
    refine (ih (engine.play event)).trans ?_
    cases event with
    | report diagnostic =>
      simp only [play, report, record, Bag.add]
      split_ifs <;> rfl
    | enter | leave | reset => rfl

theorem reset_playAll (limit : Int) (events : List Event)
    (closed : ((ofLimit limit).playAll events).depth = 0) :
    ((ofLimit limit).playAll events).reset = ofLimit limit := by
  unfold reset Bag.cleared
  rw [closed, limit_playAll]
  rfl

theorem counts_honest (limit : Int) (earlier events : List Event)
    (closed : ((ofLimit limit).playAll earlier).depth = 0) (inside : Event.inside 0 events = true) :
    let engine := (((ofLimit limit).playAll earlier).reset.beginScope).playAll events
    let reports := events.filterMap Event.report?
    let keys := (reports.map Diagnostic.key).toFinset
    engine = (ofLimit limit).beginScope.playAll events ∧
    engine.errors = (keys.filter (·.2.1.isError)).card ∧
    engine.warnings = (keys.filter (·.2.1 = .warning)).card ∧
    engine.bag.items = (firsts reports).take (if limit ≤ 0 then 100 else min limit.toNat 65535) ∧
    engine.dropped + engine.bag.items.length = keys.card ∧
    engine.snapshot.items.Perm engine.bag.items ∧
    engine.snapshot.items.Pairwise (·.place ≤ ·.place) ∧
    ∀ place, engine.snapshot.items.filter (·.place = place) =
      engine.bag.items.filter (·.place = place) := by
  intro engine reports keys
  have isEngine : engine = (ofLimit limit).beginScope.playAll events :=
    congrArg (fun fresh => fresh.beginScope.playAll events) (reset_playAll limit earlier closed)
  obtain ⟨last, isLast⟩ := playAll_tally (Bag.ofLimit limit).limit events 0 [] inside
  have start : (ofLimit limit).beginScope = tally (Bag.ofLimit limit).limit 1 [] := by
    simp [tally, ofLimit, beginScope, Bag.ofLimit]
  have isTally : engine = tally (Bag.ofLimit limit).limit (last + 1) (firsts reports).reverse := by
    rw [isEngine, start]
    exact isLast
  refine ⟨isEngine, ?_, ?_, ?_, ?_, mergeSort_perm ..,
    Diagnostic.pairwise_sorted _, Diagnostic.filter_sorted _⟩
  · rw [isTally, ← countP_firsts reports (·.2.1.isError)]
    exact countP_reverse
  · have count := countP_firsts reports (·.2.1 = .warning)
    simp only [decide_eq_true_eq] at count
    rw [isTally, ← count]
    exact countP_reverse
  · rw [isTally]
    simp [tally, Bag.ofLimit, Bag.largestLimit]
  · have count : (firsts reports).length = keys.card := by
      simpa using countP_firsts reports fun _ => true
    rw [isTally, ← count]
    simp only [tally, length_take, length_reverse, reverse_reverse]
    omega

/-- A bag for one diagnostic: the second key is counted and dropped, a repetition is neither. -/
theorem counts_honest_dropped :
    let first := Diagnostic.error .duplicateSymbol .none []
    let second := Diagnostic.error .typeMismatch .none []
    let engine := ((((ofLimit 1).playAll [.enter, .report second, .leave]).reset.beginScope).playAll
      [.report first, .enter, .report second, .leave, .report first])
    engine.errors = 2 ∧ engine.dropped + engine.bag.items.length = 2 := by
  intro first second engine
  obtain ⟨_, errors, _, _, dropped, _⟩ := counts_honest 1 [.enter, .report second, .leave]
    [.report first, .enter, .report second, .leave, .report first] rfl rfl
  exact ⟨errors.trans (by decide), dropped.trans (by decide)⟩

end Engine

end FragmentCompiler
