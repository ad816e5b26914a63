import FragmentCompiler.Proofs.Reading.Include
import Mathlib.Data.Finset.Card
import Mathlib.Logic.Relation

/-!
# Draining a parser

A parser that is asked for one unit after another comes to its end.  Every step leaves a
buffer, takes a token, or enters a buffer whose path is not being read yet.  So there is a
weight of the buffers being read that falls with every step: the tokens left in a buffer count
more, the fewer of the paths an include can find are in use below it.
-/

set_option autoImplicit false

namespace FragmentCompiler

open List

namespace Parser

/-! ## Steps -/

/-- What a step gives and does to the buffers being read. -/
inductive Moves (size : Nat) (before : Parser) : Option SourceUnit → Parser → Prop
  | finished (inputs : before.inputs = []) : Moves size before (some .finished) before
  | leave {after : Parser} (busy : before.inputs ≠ [])
      (inputs : after.inputs = before.inputs.tail) : Moves size before none after
  | read {unit} {after : Parser} (more : unit ≠ some .finished) (consumes : before.Consumes after) :
      Moves size before unit after
  | push {turn after : Parser} (input : Input) (takes : before.Takes turn)
      (consumes : before.Consumes turn) (enterable : turn.Enterable size input)
      (inputs : after.inputs = input :: turn.inputs) : Moves size before none after

/-- What is known of a parser between two steps. -/
structure Confined (paths : Finset Text) (size : Nat) (parser : Parser) : Prop where
  lexed : parser.Lexed
  sized : parser.Sized size
  paths : ∀ path, path ∈ paths ↔ parser.Includable path

theorem Sized.of_files {size} {before after : Parser} (sized : before.Sized size)
    (takes : before.Takes after) (files : after.files = before.files) : after.Sized size where
  buffers := by rw [files]; exact sized.buffers
  virtuals := by rw [takes.virtuals]; exact sized.virtuals
  files := by rw [takes.tree]; exact sized.files

variable {parser : Parser}

theorem step_moves {paths size} (confined : parser.Confined paths size) :
    Moves size parser parser.step.1 parser.step.2 ∧ parser.step.2.Confined paths size := by
  have takes := (step_takes confined.lexed).1
  suffices kept : Moves size parser parser.step.1 parser.step.2 ∧ parser.step.2.Sized size from
    ⟨kept.1, takes.lexed, kept.2, fun path =>
      (confined.paths path).trans (takes.includable path).symm⟩
  have looked := reads_lookAt confined.lexed 0
  have steps := step_steps parser
  generalize parser.step = result at steps takes ⊢
  cases steps with
  | finished inputs => exact ⟨.finished inputs, confined.sized⟩
  | leave kind busy =>
    exact ⟨.leave busy looked.ahead.tail, confined.sized.of_files takes looked.files⟩
  | directive kind =>
    have taken := looked.take
    have consumes : parser.Consumes (parser.lookAt 0).2.take.2 :=
      (take_consumes looked.lexed (by rw [lookAt_lookAt, kind]; simp)).after looked.ahead
    obtain ⟨sized, pushes⟩ := directive_pushes
      (confined.sized.of_files taken.takes taken.files) (parser.lookAt 0).1
    refine ⟨?_, sized⟩
    rcases isUnit : ((parser.lookAt 0).2.take.2.directive (parser.lookAt 0).1).1 with _ | unit
    · cases pushes with
      | none inputs => exact .read (by simp) (consumes.before (by rw [inputs]; exact .refl _))
      | one input enterable inputs => exact .push input taken.takes consumes enterable inputs
    · obtain ⟨⟨_, _, _, isPragma⟩, unchanged⟩ := directive_unit isUnit
      rw [unchanged]
      exact .read (by simp [isPragma]) consumes
  | group more text =>
    have reads := glanced_reads confined.lexed
    have starts := glanced_starts more text
    obtain ⟨_, _, files, _⟩ := runReader_takes reads.lexed starts
    have consumes := runReader_consumes reads.lexed (by rw [lookAt_glanced]; exact more)
      (by rw [lookAt_glanced]; exact text) starts
    exact ⟨.read (by simp) (consumes.after reads.ahead),
      confined.sized.of_files takes (files.trans reads.files)⟩

/-! ## The weight of what is left to read -/

/-- How many of some paths are not being read. -/
def unused (paths : Finset Text) (inputs : List Input) : Nat :=
  (paths \ (inputs.map Input.path).toFinset).card

/-- Tokens count more, the more paths are still to be entered above them. -/
def weight (paths : Finset Text) (base : Nat) : List Input → Nat
  | [] => 0
  | input :: below =>
    (input.pending.length + 1) * base ^ unused paths (input :: below) + weight paths base below

variable {paths : Finset Text} {size : Nat}

theorem unused_cons {input} {inputs : List Input} (known : input.path ∈ paths)
    (fresh : input.path ∉ inputs.map Input.path) :
    unused paths (input :: inputs) + 1 = unused paths inputs := by
  unfold unused
  rw [map_cons, toFinset_cons, Finset.sdiff_insert]
  refine Finset.card_erase_add_one (Finset.mem_sdiff.mpr ⟨known, ?_⟩)
  rwa [mem_toFinset]

theorem unused_ahead {earlier later} (ahead : Input.Ahead earlier later) :
    unused paths later = unused paths earlier := by
  cases ahead <;> rfl

theorem Consumes.weight {before after : Parser} (consumes : before.Consumes after)
    (paths : Finset Text) (base : Nat) :
    weight paths base after.inputs + base ^ unused paths before.inputs ≤
      weight paths base before.inputs := by
  obtain ⟨ahead, fewer⟩ := consumes
  unfold remaining at fewer
  generalize before.inputs = earlier at ahead fewer ⊢
  generalize after.inputs = later at ahead fewer ⊢
  cases ahead with
  | nil => exact absurd fewer (Nat.lt_irrefl _)
  | @within input below pending seen rest =>
    have same : unused paths ({ input with pending, seen } :: below) =
        unused paths (input :: below) := rfl
    simp only [Parser.weight, same]
    generalize base ^ unused paths (input :: below) = worth
    have grown : (pending.length + 1) * worth + worth ≤ (input.pending.length + 1) * worth := by
      rw [← Nat.succ_mul]
      exact Nat.mul_le_mul_right _ (by dsimp only at fewer; omega)
    omega

theorem Enterable.weight {input} (enterable : parser.Enterable size input)
    (known : input.path ∈ paths) : weight paths (size + 3) (input :: parser.inputs) <
      weight paths (size + 3) parser.inputs + (size + 3) ^ unused paths parser.inputs := by
  have short := enterable.short
  have spare : (input.pending.length + 1) * (size + 3) ^ unused paths (input :: parser.inputs) <
      (size + 3) ^ unused paths parser.inputs := by
    rw [← unused_cons known enterable.fresh, Nat.pow_succ, Nat.mul_comm]
    exact Nat.mul_lt_mul_of_pos_left (by omega) (Nat.pow_pos (by omega))
  simp only [Parser.weight]
  omega

theorem Moves.weight {unit} {before after : Parser} (moves : Moves size before unit after)
    (confined : before.Confined paths size) (more : unit ≠ some .finished) :
    weight paths (size + 3) after.inputs < weight paths (size + 3) before.inputs := by
  have worth : 0 < (size + 3) ^ unused paths before.inputs := Nat.pow_pos (by omega)
  cases moves with
  | finished inputs => exact absurd rfl more
  | leave busy inputs =>
    obtain ⟨input, below, isInputs⟩ := exists_cons_of_ne_nil busy
    rw [isInputs] at worth
    rw [inputs, isInputs, tail_cons, Parser.weight]
    have left : 0 < (input.pending.length + 1) * (size + 3) ^ unused paths (input :: below) :=
      Nat.mul_pos (Nat.succ_pos _) worth
    omega
  | read _ consumes =>
    have left := consumes.weight paths (size + 3)
    omega
  | push input takes consumes enterable inputs =>
    have known : input.path ∈ paths :=
      (confined.paths _).mpr ((takes.includable _).mp enterable.known)
    have left := consumes.weight paths (size + 3)
    have gained := enterable.weight known
    rw [unused_ahead consumes.1] at gained
    rw [inputs]
    omega

/-! ## The buffers being read -/

/-- Which buffers are being read, and their paths. -/
def places (parser : Parser) : List (FileId × Text) :=
  parser.inputs.map fun input => (input.file, input.path)

/-- On top of what is left of the first buffers stand so many that directives pushed: their
paths can be found by an include, differ from each other and from all those below. -/
def Stacked (start : Parser) (count : Nat) (now : Parser) : Prop :=
  ∃ pushed below, pushed.length = count ∧ now.places = pushed ++ below ∧
    below <:+ start.places ∧ (pushed.map Prod.snd).Nodup ∧
    ∀ place ∈ pushed, start.Includable place.2 ∧ place.2 ∉ below.map Prod.snd

theorem places_ahead {before after : Parser} (ahead : Input.Ahead before.inputs after.inputs) :
    after.places = before.places := by
  unfold places
  generalize before.inputs = earlier at ahead ⊢
  generalize after.inputs = later at ahead ⊢
  cases ahead <;> rfl

theorem places_paths (parser : Parser) :
    parser.places.map Prod.snd = parser.inputs.map Input.path := by
  simp [places]

theorem Stacked.refl (parser : Parser) : parser.Stacked 0 parser :=
  ⟨[], parser.places, rfl, rfl, suffix_refl _, nodup_nil, by simp⟩

variable {count : Nat}

theorem Stacked.of_places {start before after : Parser} (stacked : start.Stacked count before)
    (same : after.places = before.places) : start.Stacked count after := by
  unfold Stacked
  rw [same]
  exact stacked

theorem Stacked.leave {start before after : Parser} (stacked : start.Stacked count before)
    (inputs : after.inputs = before.inputs.tail) : start.Stacked (count - 1) after := by
  obtain ⟨pushed, below, isCount, isPlaces, left, distinct, apart⟩ := stacked
  have isTail : after.places = before.places.tail := by simp [places, inputs]
  rw [isPlaces] at isTail
  subst isCount
  cases pushed with
  | nil => exact ⟨[], below.tail, rfl, isTail, (tail_suffix _).trans left, distinct, by simp⟩
  | cons place pushed =>
    exact ⟨pushed, below, rfl, isTail, left, (nodup_cons.mp distinct).2,
      fun other member => apart other (mem_cons_of_mem _ member)⟩

theorem Stacked.push {input} {start before after : Parser} (stacked : start.Stacked count before)
    (known : start.Includable input.path) (fresh : input.path ∉ before.inputs.map Input.path)
    (inputs : after.inputs = input :: before.inputs) : start.Stacked (count + 1) after := by
  obtain ⟨pushed, below, isCount, isPlaces, left, distinct, apart⟩ := stacked
  rw [← places_paths, isPlaces, map_append, mem_append, not_or] at fresh
  have isCons : after.places = (input.file, input.path) :: before.places := by
    simp [places, inputs]
  rw [isPlaces] at isCons
  refine ⟨(input.file, input.path) :: pushed, below, congrArg (· + 1) isCount, isCons, left,
    nodup_cons.mpr ⟨fresh.1, distinct⟩, forall_mem_cons.mpr ⟨⟨known, fresh.2⟩, apart⟩⟩

/-- A step that makes the stack higher has pushed a buffer; one that makes it lower has left
one, which was pushed unless none of the pushed ones is left. -/
theorem Moves.stacked {unit} {start before after : Parser} (moves : Moves size before unit after)
    (stacked : start.Stacked count before)
    (same : ∀ path, before.Includable path ↔ start.Includable path) :
    start.Stacked (count + after.inputs.length - before.inputs.length) after := by
  cases moves with
  | finished inputs =>
    rw [Nat.add_sub_cancel]
    exact stacked
  | leave busy inputs =>
    have lower := length_pos_of_ne_nil busy
    have fewer : count + after.inputs.length - before.inputs.length = count - 1 := by
      rw [inputs, length_tail]
      omega
    rw [fewer]
    exact stacked.leave inputs
  | read _ consumes =>
    rw [consumes.1.length, Nat.add_sub_cancel]
    exact stacked.of_places (places_ahead consumes.1)
  | push input takes consumes enterable inputs =>
    have more : count + after.inputs.length - before.inputs.length = count + 1 := by
      rw [inputs, length_cons, consumes.1.length]
      omega
    rw [more]
    refine (stacked.of_places (places_ahead consumes.1)).push ?_ enterable.fresh inputs
    exact (same _).mp ((takes.includable _).mp enterable.known)

theorem Stacked.depth {start now : Parser} (stacked : start.Stacked count now)
    (known : ∀ path, path ∈ paths ↔ start.Includable path) :
    now.inputs.length ≤ start.inputs.length + paths.card := by
  obtain ⟨pushed, below, _, isPlaces, left, distinct, apart⟩ := stacked
  have few : pushed.length ≤ paths.card := by
    rw [← length_map Prod.snd, ← toFinset_card_of_nodup distinct]
    refine Finset.card_le_card fun path member => ?_
    obtain ⟨place, isPlace, rfl⟩ := mem_map.mp (mem_toFinset.mp member)
    exact (known _).mpr (apart place isPlace).1
  have sum := congrArg List.length isPlaces
  have rest := left.length_le
  simp only [places, length_map, length_append] at sum rest
  omega

/-! ## Calls -/

/-- A step that finds no unit. -/
def Passes (before after : Parser) : Prop := before.step = (none, after)

/-- A call that no bound cuts short: steps that find nothing lead to one that finds the unit.
That step takes tokens, unless nothing is left to read. -/
def Finds (before : Parser) (unit : SourceUnit) (after : Parser) : Prop :=
  ∃ turn, Relation.ReflTransGen Passes before turn ∧ turn.step = (some unit, after) ∧
    if unit = .finished then turn.inputs = [] else turn.Consumes after

/-- Calls until one reports the end, with the units that the calls before it found. -/
inductive Drains (fuel : Nat) : Parser → List SourceUnit → Parser → Prop
  | ended {before after : Parser} (call : before.nextUnit fuel = (.finished, after))
      (found : before.Finds .finished after) : Drains fuel before [] after
  | unit {unit units} {before passed after : Parser} (call : before.nextUnit fuel = (unit, passed))
      (found : before.Finds unit passed) (more : unit ≠ .finished)
      (rest : Drains fuel passed units after) : Drains fuel before (unit :: units) after

theorem Finds.after {unit} {before passed after : Parser} (passes : before.Passes passed)
    (found : passed.Finds unit after) :
    before.Finds unit after := by
  obtain ⟨turn, steps, rest⟩ := found
  exact ⟨turn, .head passes steps, rest⟩

theorem Confined.nextUnit (fuel : Nat) : ∀ {parser : Parser}, parser.Confined paths size →
    weight paths (size + 3) parser.inputs < fuel →
    parser.Finds (nextUnit fuel parser).1 (nextUnit fuel parser).2 ∧
      (nextUnit fuel parser).2.Confined paths size ∧
      ((nextUnit fuel parser).1 ≠ .finished →
        weight paths (size + 3) (nextUnit fuel parser).2.inputs <
          weight paths (size + 3) parser.inputs) := by
  induction fuel with
  | zero =>
    intro parser _ light
    exact absurd light (Nat.not_lt_zero _)
  | succ fuel ih =>
    intro parser confined light
    obtain ⟨moves, later⟩ := step_moves confined
    unfold Parser.nextUnit
    rcases run : parser.step with ⟨_ | unit, passed⟩ <;> rw [run] at moves later
    · have lighter := moves.weight confined (by simp)
      obtain ⟨found, kept, fewer⟩ := ih later (by dsimp only at lighter ⊢; omega)
      exact ⟨found.after run, kept, fun more => Nat.lt_trans (fewer more) lighter⟩
    · refine ⟨⟨parser, .refl, run, ?_⟩, later, fun more =>
        moves.weight confined (by simpa using more)⟩
      cases moves with
      | finished inputs => simpa using inputs
      | read more consumes =>
        rw [if_neg (by simpa using more)]
        exact consumes

theorem Confined.drains (fuel : Nat) (confined : parser.Confined paths size)
    (light : weight paths (size + 3) parser.inputs < fuel) :
    ∃ units rest, Drains fuel parser units rest := by
  -- By induction on the weight, which every call that finds a unit makes less.
  induction heavy : weight paths (size + 3) parser.inputs using Nat.strongRecOn
    generalizing parser with
  | ind total ih =>
    obtain ⟨found, later, fewer⟩ := confined.nextUnit fuel light
    rcases call : Parser.nextUnit fuel parser with ⟨unit, passed⟩
    rw [call] at found later fewer
    dsimp only at found later fewer
    by_cases isEnd : unit = .finished
    · subst isEnd
      exact ⟨[], passed, .ended call found⟩
    · have lighter := fewer isEnd
      obtain ⟨units, rest, drains⟩ := ih _ (by omega) later (by omega) rfl
      exact ⟨unit :: units, rest, .unit call found isEnd drains⟩

theorem Drains.inputs {fuel units} {before after : Parser}
    (drains : Drains fuel before units after) : after.inputs = [] := by
  induction drains with
  | ended call _ => exact nextUnit_finished fuel call
  | unit _ _ _ _ ih => exact ih

/-! ## From the first buffers on -/

/-- Steps, with the number of buffers being read that directives pushed: it rises and falls with
the height of the stack. -/
inductive Reaches (start : Parser) : Nat → Parser → Prop
  | start : Reaches start 0 start
  | step {now} {count : Nat} (reaches : Reaches start count now) :
      Reaches start (count + now.step.2.inputs.length - now.inputs.length) now.step.2

theorem Confined.stacked {start now : Parser} (confined : start.Confined paths size)
    (reaches : start.Reaches count now) : now.Confined paths size ∧ start.Stacked count now := by
  induction reaches with
  | start => exact ⟨confined, .refl start⟩
  | step _ ih =>
    obtain ⟨now, stacked⟩ := ih
    obtain ⟨moves, later⟩ := step_moves now
    exact ⟨later, moves.stacked stacked fun path =>
      (now.paths path).symm.trans (confined.paths path)⟩

theorem Lexed.confined (lexed : parser.Lexed) :
    ∃ (paths : Finset Text) (size : Nat), parser.Confined paths size := by
  obtain ⟨size, sized⟩ := exists_sized parser
  have finite := includable_finite parser
  exact ⟨finite.toFinset, size, lexed, sized, fun path => finite.mem_toFinset⟩

theorem exists_confined (parser : Parser) (buffers : List FileId) :
    ∃ (paths : Finset Text) (size : Nat),
      (buffers.foldl enter parser.abandon).Confined paths size := by
  have lexed : parser.abandon.Lexed := forall_mem_nil _
  exact Lexed.confined (foldlRecOn buffers enter lexed fun _ lexed id _ => lexed.enter id)

/-- Asking a parser for one unit after another ends, whatever its files and virtual buffers
include: calls that are long enough are never cut short, all but the last one take tokens, and
at every moment the buffers that directives pushed have paths of their own. -/
theorem draining_ends (parser : Parser) (buffers : List FileId) :
    let start := buffers.foldl enter parser.abandon
    ∃ (paths : Finset Text) (bound : Nat), (∀ path, path ∈ paths ↔ start.Includable path) ∧
      (∀ fuel, bound ≤ fuel → ∃ units rest, Drains fuel start units rest ∧ rest.inputs = []) ∧
      ∀ count now, start.Reaches count now →
        start.Stacked count now ∧ now.inputs.length ≤ start.inputs.length + paths.card := by
  intro start
  obtain ⟨paths, size, confined⟩ := exists_confined parser buffers
  refine ⟨paths, weight paths (size + 3) start.inputs + 1, confined.paths, ?_, ?_⟩
  · intro fuel enough
    obtain ⟨units, rest, drains⟩ := confined.drains fuel enough
    exact ⟨units, rest, drains, drains.inputs⟩
  · intro count now reaches
    have stacked := (confined.stacked reaches).2
    exact ⟨stacked, stacked.depth confined.paths⟩

end Parser

end FragmentCompiler
