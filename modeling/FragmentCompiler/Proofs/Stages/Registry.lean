import FragmentCompiler.Proofs.Stages.States

/-!
# The order of the stages

Whatever was done to a pipeline, its order lists each occupied slot once, by its latest
registration, and a group passes just the enabled stages in that order.
-/

set_option autoImplicit false

namespace FragmentCompiler

open List

/-- What is done to a pipeline.  Enabling, disabling and putting back a state are all `set`. -/
inductive StageAction (α σ : Type)
  | register (id : StageId) (stage : α) (on : Bool)
  | remove (id : StageId)
  | set (id : StageId) (on : Bool)
  | dispatch (group : Group) (state : σ)
  | close

namespace StageAction

variable {α σ : Type} {id : StageId} {on : Bool}

/-- The slots after a history of actions, the latest first: an occupied one has the flag that was
last set. -/
def flagOf : List (StageAction α σ) → StageId → Option Bool
  | [], _ => none
  | .register id _ on :: earlier, other =>
    if other = id then (flagOf earlier id).or (some (on || id == .codeGenerator))
    else flagOf earlier other
  | .remove id :: earlier, other => if other = id then none else flagOf earlier other
  | .set id on :: earlier, other =>
    if other = id then (flagOf earlier id).map fun _ => on else flagOf earlier other
  | .dispatch .. :: earlier, other => flagOf earlier other
  | .close :: _, _ => none

/-- All that was ever registered, in the order of the latest registrations. -/
def registered : List (StageAction α σ) → List StageId
  | [] => []
  | .register id _ _ :: earlier =>
    if (flagOf earlier id).isSome then registered earlier
    else (registered earlier).filter (· != id) ++ [id]
  | _ :: earlier => registered earlier

theorem registered_nodup : ∀ history : List (StageAction α σ), (registered history).Nodup
  | [] => nodup_nil
  | .register id _ _ :: earlier => by
    unfold registered
    split
    · exact registered_nodup earlier
    · refine nodup_append.mpr ⟨(registered_nodup earlier).filter _, nodup_singleton id, ?_⟩
      simp
  | .remove _ :: earlier | .set .. :: earlier | .dispatch .. :: earlier | .close :: earlier =>
    registered_nodup earlier

theorem mem_registered (history : List (StageAction α σ)) (known : (flagOf history id).isSome) :
    id ∈ registered history := by
  induction history with
  | nil => cases known
  | cons action earlier ih =>
    cases action with
    | register other stage on =>
      simp only [flagOf, registered] at known ⊢
      by_cases isIt : id = other
      · subst isIt
        split_ifs with isSome
        · exact ih isSome
        · simp
      · rw [if_neg isIt] at known
        split_ifs <;> simp [isIt, ih known]
    | remove other | set other _ =>
      simp only [flagOf] at known
      split_ifs at known with isIt
      all_goals first | cases known | exact ih (by simpa [isIt] using known)
    | dispatch => exact ih known
    | close => cases known

end StageAction

namespace Pipeline

open StageAction

variable {α σ : Type} (handle : StageId → α → Group → σ → Group × α × σ)

/-- The pipeline after a history of actions, the latest first. -/
def after : List (StageAction α σ) → Pipeline α
  | [] => {}
  | .register id stage on :: earlier => ((after earlier).register id stage on).2
  | .remove id :: earlier => ((after earlier).remove id).2
  | .set id on :: earlier => ((after earlier).set id on).2
  | .dispatch group state :: earlier => ((after earlier).dispatch handle group state).2.1
  | .close :: earlier => (after earlier).close.2

/-- A pipeline as a history says: its slots have the flags last set, and its order is that of the
latest registrations. -/
structure Tracks (pipeline : Pipeline α) (history : List (StageAction α σ)) : Prop where
  flags : pipeline.flags = flagOf history
  order : pipeline.order = (registered history).filter (flagOf history · |>.isSome)

namespace Tracks

variable {pipeline : Pipeline α} {history : List (StageAction α σ)} (tracks : pipeline.Tracks history)

include tracks

theorem ordered : pipeline.Ordered := by
  refine ⟨tracks.order ▸ (registered_nodup history).filter _, fun id => ?_⟩
  rw [tracks.order, mem_filter, has_flags, tracks.flags]
  exact and_iff_right_of_imp (mem_registered history)

theorem register (id : StageId) (stage : α) (on : Bool) :
    (pipeline.register id stage on).2.Tracks (.register id stage on :: history) := by
  have isHas : pipeline.has id = (flagOf history id).isSome := by rw [has_flags, tracks.flags]
  have same := congrFun tracks.flags
  unfold Pipeline.register
  cases known : flagOf history id with
  | none =>
    rw [if_neg (by simp [isHas, known])]
    refine ⟨funext fun other => ?_, ?_⟩
    · have := same other
      by_cases isIt : other = id <;> simp_all [Pipeline.flags, flagOf]
    · have others : ∀ other ∈ registered history, ((flagOf (.register id stage on :: history)
          other).isSome && other != id) = (flagOf history other).isSome := by
        intro other _
        by_cases isIt : other = id <;> simp [flagOf, isIt, known]
      have isLast : registered (.register id stage on :: history) =
          (registered history).filter (· != id) ++ [id] := by simp [registered, known]
      rw [order_place, isLast, filter_append, filter_filter, filter_congr others, tracks.order]
      simp [flagOf]
  | some flag =>
    rw [if_pos (by simp [isHas, known])]
    have kept : flagOf (.register id stage on :: history) = flagOf history := by
      funext other
      by_cases isIt : other = id <;> simp [flagOf, isIt, known]
    exact ⟨tracks.flags.trans kept.symm, by simp [kept, registered, known, tracks.order]⟩

theorem remove (id : StageId) : (pipeline.remove id).2.Tracks (.remove id :: history) := by
  have same := congrFun tracks.flags
  refine ⟨funext fun other => ?_, ?_⟩
  · have := same other
    by_cases isIt : other = id <;> simp_all [Pipeline.flags, flagOf, slot?_remove]
  · rw [tracks.ordered.order_remove, tracks.ordered.nodup.erase_eq_filter, tracks.order,
      filter_filter]
    refine filter_congr fun other _ => ?_
    by_cases isIt : other = id <;> simp [flagOf, isIt]

theorem set (id : StageId) (on : Bool) : (pipeline.set id on).2.Tracks (.set id on :: history) := by
  refine ⟨(pipeline.flags_restore id on).trans (tracks.flags ▸ rfl), tracks.order.trans ?_⟩
  refine filter_congr fun other _ => ?_
  by_cases isIt : other = id <;> simp [flagOf, isIt]

theorem dispatch (group : Group) (state : σ) :
    (pipeline.dispatch handle group state).2.1.Tracks (.dispatch group state :: history) :=
  ⟨(funext (map_visit (fun _ _ _ => rfl) _ _ _)).trans tracks.flags,
    (visit_frame ..).1.trans tracks.order⟩

theorem close : pipeline.close.2.Tracks (.close :: history) := by
  obtain ⟨isEmpty, areFree⟩ := tracks.ordered.close
  exact ⟨funext fun id => by simp [Pipeline.flags, areFree, flagOf], by simp [isEmpty, flagOf]⟩

end Tracks

theorem after_tracks : ∀ history : List (StageAction α σ), (after handle history).Tracks history
  | [] => ⟨funext fun id => by cases id <;> rfl, rfl⟩
  | .register id stage on :: earlier => (after_tracks earlier).register id stage on
  | .remove id :: earlier => (after_tracks earlier).remove id
  | .set id on :: earlier => (after_tracks earlier).set id on
  | .dispatch group state :: earlier => (after_tracks earlier).dispatch handle group state
  | .close :: earlier => (after_tracks earlier).close

/-! ## Dispatching -/

def listing (pipeline : Pipeline α) (ids : List StageId) : List (StageEntry α) :=
  ids.filterMap fun id => (pipeline.slot? id).map fun slot => { slot with id }

theorem listing_cons (pipeline : Pipeline α) (id : StageId) (rest : List StageId) :
    pipeline.listing (id :: rest) =
      (pipeline.slot? id).toList.map ({ · with id }) ++ pipeline.listing rest := by
  cases isSlot : pipeline.slot? id <;> simp [listing, isSlot]

/-- One more stage has run, on what the earlier ones left. -/
def hand (done : List (StageEntry α) × Group × σ) (entry : StageEntry α) :
    List (StageEntry α) × Group × σ :=
  let (group, stage, state) := handle entry.id entry.stage done.2.1 done.2.2
  (done.1 ++ [{ entry with stage }], group, state)

theorem slot?_visit {handle : StageId → α → σ → α × σ} {other : StageId} (ids : List StageId)
    (apart : other ∉ ids) : ∀ (pipeline : Pipeline α) (state : σ),
      (visit handle ids pipeline state).1.slot? other = pipeline.slot? other := by
  induction ids with
  | nil => exact fun _ _ => rfl
  | cons id rest ih =>
    obtain ⟨isNot, apart⟩ := not_or.mp (mt mem_cons.mpr apart)
    intro pipeline state
    unfold visit
    split
    · rw [ih apart, slot?_place, if_neg isNot]
    · exact ih apart pipeline state

theorem visit_enabled (ids : List StageId) (distinct : ids.Nodup) :
    ∀ (pipeline : Pipeline α) (done : List (StageEntry α)) (group : Group) (state : σ),
      let last := visit (pass handle) ids pipeline (group, state)
      ((pipeline.listing ids).filter (·.enabled)).foldl (hand handle) (done, group, state) =
        (done ++ (last.1.listing ids).filter (·.enabled), last.2) ∧
      (last.1.listing ids).filter (!·.enabled) = (pipeline.listing ids).filter (!·.enabled) := by
  induction ids with
  | nil => simp [visit, listing]
  | cons id rest ih =>
    obtain ⟨isNew, distinct⟩ := nodup_cons.mp distinct
    intro pipeline done group state
    have isKept : ∀ (now : Pipeline α) (state : Group × σ),
        (visit (pass handle) rest now state).1.slot? id = now.slot? id := slot?_visit rest isNew
    unfold visit
    split
    · rename_i stage isSlot
      let passed := handle id stage group state
      have others : listing (pipeline.place id (some ⟨passed.2.1, true⟩)) rest =
          pipeline.listing rest := filterMap_congr fun other member => by
        rw [slot?_place, if_neg (ne_of_mem_of_not_mem member isNew)]
      obtain ⟨ran, rested⟩ := ih distinct (pipeline.place id (some ⟨passed.2.1, true⟩))
        (done ++ [{ stage := passed.2.1, enabled := true, id }]) passed.1 passed.2.2
      rw [others] at ran rested
      simp only [listing_cons, isSlot]
      constructor
      · simpa [isKept, hand, pass, passed] using ran
      · simpa [isKept, pass, passed] using rested
    · rename_i isOff
      obtain ⟨ran, rested⟩ := ih distinct pipeline done group state
      simp only [listing_cons, isKept]
      cases isSlot : pipeline.slot? id with
      | none => exact ⟨by simpa using ran, by simpa using rested⟩
      | some slot =>
        obtain ⟨stage, on⟩ := slot
        cases on with
        | false => exact ⟨by simpa using ran, by simpa using rested⟩
        | true => exact absurd isSlot (isOff stage)

/-- Whatever was done to a pipeline, its order lists each taken slot once, by the latest
registration, and each slot has the flag last set.  Switching a stage keeps the order and gives
the flag it had.  A group passes just the enabled stages, in that order and each on what the one
before left, and is put into the queue. -/
theorem dispatches_in_order (history : List (StageAction α σ)) :
    let pipeline := after handle history
    pipeline.order.Nodup ∧
    (∀ id, id ∈ pipeline.order ↔ (pipeline.slot? id).isSome) ∧
    pipeline.order = (registered history).filter (fun id => (pipeline.slot? id).isSome) ∧
    (∀ id, (pipeline.slot? id).map StageSlot.enabled = flagOf history id) ∧
    (∀ id on, (pipeline.set id on).2.order = pipeline.order ∧
      (pipeline.set id on).1 = flagOf history id) ∧
    pipeline.enabled = pipeline.order.filter (flagOf history · = some true) ∧
    ∀ group state,
      let ran := (pipeline.entries.filter (·.enabled)).foldl (hand handle) ([], group, state)
      let (last, next, rest) := pipeline.dispatch handle group state
      next.order = pipeline.order ∧ next.entries.filter (·.enabled) = ran.1 ∧ (last, rest) = ran.2 ∧
      next.entries.filter (!·.enabled) = pipeline.entries.filter (!·.enabled) ∧
      next.queue = pipeline.queue ++ [last] := by
  intro pipeline
  have tracks : pipeline.Tracks history := after_tracks handle history
  have ordered := tracks.ordered
  have flags := congrFun tracks.flags
  refine ⟨ordered.nodup, ordered.listed, ?_, flags, fun id on => ⟨rfl, flags id⟩, ?_,
    fun group state => ?_⟩
  · refine tracks.order.trans (filter_congr fun id _ => ?_)
    rw [← flags id]
    exact (pipeline.has_flags id).symm
  · refine filter_congr fun id _ => ?_
    rw [isEnabled_flags, flags id]
    rcases flagOf history id with _ | _ | _ <;> rfl
  · obtain ⟨ran, others⟩ := visit_enabled handle pipeline.order ordered.nodup pipeline [] group state
    obtain ⟨sameOrder, sameQueue⟩ := visit_frame (pass handle) pipeline.order pipeline (group, state)
    intro done
    have isDone : done = _ := ran
    have isEntries : (pipeline.dispatch handle group state).2.1.entries = _ :=
      congrArg (listing _) sameOrder
    refine ⟨sameOrder, ?_, ?_, ?_, congrArg (· ++ [_]) sameQueue⟩
    · rw [isDone]
      exact congrArg _ isEntries
    · rw [isDone]
    · exact (congrArg _ isEntries).trans others

end Pipeline

end FragmentCompiler
