import FragmentCompiler.Session.Startup
import Mathlib.Data.List.Nodup

/-!
# Stages with their states

A pipeline seen slot by slot: whether each stage is enabled, and which snapshot it builds.
Switching a stage and putting it back are changes of one slot; visiting the stages is none, and
only registering and removing change the order.
-/

set_option autoImplicit false

namespace FragmentCompiler

open List

/-- The registered stages in order, each with whether it is enabled. -/
abbrev StageStates := List (StageId × Bool)

def StageStates.set (states : StageStates) (id : StageId) (on : Bool) : StageStates :=
  states.map fun state => if state.1 = id then (id, on) else state

def StageStore.writer? : StageStore → Option SnapshotWriter
  | .nothing => none
  | .snapshot writer _ _ => some writer

theorem StageId.index_inj {id other : StageId} : id.index = other.index ↔ id = other := by
  cases id <;> cases other <;> decide

namespace Pipeline

variable {α β σ : Type}

section

variable (pipeline : Pipeline α) (id : StageId)

@[simp] theorem slot?_place (slot : Option (StageSlot α)) (other : StageId) :
    (pipeline.place id slot).slot? other = if other = id then slot else pipeline.slot? other := by
  simp [slot?, place, Vector.getElem_set, Fin.val_inj, StageId.index_inj, eq_comm]

@[simp] theorem slot?_order (order : List StageId) :
    ({ pipeline with order } : Pipeline α).slot? id = pipeline.slot? id := rfl

@[simp] theorem order_place (slot : Option (StageSlot α)) :
    (pipeline.place id slot).order = pipeline.order := rfl

/-- Whether a stage is enabled, for each slot that is taken. -/
def flags : Option Bool := (pipeline.slot? id).map StageSlot.enabled

theorem has_flags : pipeline.has id = (pipeline.flags id).isSome := by simp [has, flags]

theorem isEnabled_flags : pipeline.isEnabled id = (pipeline.flags id).getD false := by
  unfold isEnabled flags
  split <;> simp [*]

def states : StageStates := pipeline.entries.map fun entry => (entry.id, entry.enabled)

end

/-- The flags with one of them changed, if its slot is taken. -/
def switched (flags : StageId → Option Bool) (id : StageId) (on : Bool) (other : StageId) :
    Option Bool :=
  if other = id then (flags id).map fun _ => on else flags other

theorem switched_switched (flags : StageId → Option Bool) (id : StageId) (first second : Bool) :
    switched (switched flags id first) id second = switched flags id second := by
  funext other
  by_cases isIt : other = id <;> simp [switched, isIt, Function.comp_def]

/-- A stage of a known earlier state is put back into it; one that is not registered cannot
be. -/
def putBack (id : StageId) (previous : Option Bool) (pipeline : Pipeline α) : Pipeline α :=
  match previous with
  | some previous => pipeline.restore id previous
  | none => pipeline

section

variable (pipeline : Pipeline α) (id : StageId)

/-- Switching a stage touches no more than its flag. -/
theorem map_restore {view : StageSlot α → β} (on : Bool)
    (same : ∀ slot, view { slot with enabled := on } = view slot) (other : StageId) :
    ((pipeline.restore id on).slot? other).map view = (pipeline.slot? other).map view := by
  by_cases isIt : other = id <;> simp [restore, set, same, isIt, Function.comp_def]

theorem flags_restore (on : Bool) : (pipeline.restore id on).flags = switched pipeline.flags id on := by
  funext other
  by_cases isIt : other = id <;> simp [restore, set, flags, switched, isIt, Function.comp_def]

theorem flags_putBack (previous : Option Bool) (other : StageId) :
    (putBack id previous pipeline).flags other =
      if other = id then (pipeline.flags id).map (previous.getD ·) else pipeline.flags other := by
  cases previous with
  | none => by_cases isIt : other = id <;> simp [putBack, isIt]
  | some previous => simp [putBack, flags_restore, switched]

/-- A flag that was switched goes back to what it was. -/
@[simp] theorem map_getD (flag : Option Bool) (on : Bool) :
    (flag.map fun _ => flag.getD on) = flag := by
  cases flag <;> rfl

theorem queue_putBack (previous : Option Bool) :
    (putBack id previous pipeline).queue = pipeline.queue := by
  cases previous <;> rfl

end

theorem slot?_remove (pipeline : Pipeline α) (id other : StageId) :
    (pipeline.remove id).2.slot? other = if other = id then none else pipeline.slot? other := by
  unfold remove
  split
  · by_cases isIt : other = id <;> simp [*]
  · simp

/-! ## Visits -/

section

variable (handle : StageId → α → σ → α × σ)

theorem visit_frame (ids : List StageId) : ∀ (pipeline : Pipeline α) (state : σ),
    (visit handle ids pipeline state).1.order = pipeline.order ∧
      (visit handle ids pipeline state).1.queue = pipeline.queue := by
  induction ids with
  | nil => exact fun _ _ => ⟨rfl, rfl⟩
  | cons id rest ih =>
    intro pipeline state
    unfold visit
    split
    · exact ih _ _
    · exact ih pipeline state

variable {handle}

/-- What a stage keeps of itself stays in every slot. -/
theorem map_visit {view : StageSlot α → β}
    (same : ∀ id stage state, view ⟨(handle id stage state).1, true⟩ = view ⟨stage, true⟩)
    (ids : List StageId) : ∀ (pipeline : Pipeline α) (state : σ) (other : StageId),
      ((visit handle ids pipeline state).1.slot? other).map view = (pipeline.slot? other).map view := by
  induction ids with
  | nil => exact fun _ _ _ => rfl
  | cons id rest ih =>
    intro pipeline state other
    unfold visit
    split
    · rw [ih]
      by_cases isIt : other = id <;> simp [*]
    · exact ih pipeline state other

/-- What every stage leaves of the state, and what it makes of a changed one, holds of a visit. -/
theorem visit_hom {change : σ → σ}
    (each : ∀ id stage state, handle id stage (change state) =
      ((handle id stage state).1, change (handle id stage state).2))
    (ids : List StageId) : ∀ (pipeline : Pipeline α) (state : σ),
      visit handle ids pipeline (change state) =
        ((visit handle ids pipeline state).1, change (visit handle ids pipeline state).2) := by
  induction ids with
  | nil => exact fun _ _ => rfl
  | cons id rest ih =>
    intro pipeline state
    unfold visit
    split
    · dsimp only
      rw [each]
      exact ih _ _
    · exact ih pipeline state

theorem visit_state (view : σ → β)
    (same : ∀ id stage state, view (handle id stage state).2 = view state)
    (ids : List StageId) : ∀ (pipeline : Pipeline α) (state : σ),
      view (visit handle ids pipeline state).2 = view state := by
  induction ids with
  | nil => exact fun _ _ => rfl
  | cons id rest ih =>
    intro pipeline state
    unfold visit
    split
    · exact (ih _ _).trans (same ..)
    · exact ih pipeline state

end

/-! ## Order -/

/-- The order lists the taken slots, each once. -/
structure Ordered (pipeline : Pipeline α) : Prop where
  nodup : pipeline.order.Nodup
  listed : ∀ id, id ∈ pipeline.order ↔ pipeline.has id

namespace Ordered

variable {pipeline : Pipeline α} {id : StageId} (ordered : pipeline.Ordered)

include ordered

theorem register (stage : α) (on : Bool) : (pipeline.register id stage on).2.Ordered := by
  unfold Pipeline.register
  split
  · exact ordered
  · rename_i free
    have isNew : id ∉ pipeline.order := fun member => free ((ordered.listed id).mp member)
    refine ⟨?_, fun other => ?_⟩
    · simpa [nodup_append, ordered.nodup] using
        fun other member => ne_of_mem_of_not_mem member isNew
    · have isListed := ordered.listed other
      by_cases isIt : other = id <;> simp_all [has]

theorem order_remove : (pipeline.remove id).2.order = pipeline.order.erase id := by
  have isListed := ordered.listed id
  unfold Pipeline.remove
  split
  · rename_i free
    exact (erase_of_not_mem (by simp [isListed, has, free])).symm
  · exact (erase_eq_eraseIdx_of_idxOf rfl).symm

theorem remove : (pipeline.remove id).2.Ordered := by
  refine ⟨ordered.order_remove ▸ ordered.nodup.erase id, fun other => ?_⟩
  have isListed := ordered.listed other
  rw [ordered.order_remove, ordered.nodup.mem_erase_iff, isListed]
  by_cases isIt : other = id <;> simp [has, slot?_remove, isIt]

theorem of_parts {after : Pipeline α} (order : after.order = pipeline.order)
    (slots : ∀ id, after.has id = pipeline.has id) : after.Ordered := by
  refine ⟨order ▸ ordered.nodup, fun id => ?_⟩
  rw [order, slots]
  exact ordered.listed id

theorem closeLast (count : Nat) (enough : pipeline.order.length ≤ count) :
    (closeLast count pipeline).2.Ordered ∧ (Pipeline.closeLast count pipeline).2.order = [] := by
  induction count generalizing pipeline with
  | zero => exact ⟨ordered, length_eq_zero_iff.mp (Nat.le_zero.mp enough)⟩
  | succ count ih =>
    unfold Pipeline.closeLast
    split
    · rename_i isEmpty
      exact ⟨ordered, getLast?_eq_none_iff.mp isEmpty⟩
    · rename_i id isLast
      refine ih ordered.remove ?_
      rw [ordered.order_remove, length_erase_of_mem (mem_of_getLast? isLast)]
      omega

theorem close : pipeline.close.2.order = [] ∧ ∀ id, pipeline.close.2.slot? id = none := by
  obtain ⟨closed, isEmpty⟩ := ordered.closeLast _ (Nat.le_refl _)
  refine ⟨isEmpty, fun id => ?_⟩
  have isListed := closed.listed id
  simpa [isEmpty, has, Pipeline.close] using isListed

end Ordered

/-! ## Snapshots -/

/-- The order of the stages, and for each slot that is taken the snapshot that is built there. -/
def sinks (pipeline : Pipeline StageStore) :
    List StageId × (StageId → Option (Option SnapshotWriter)) :=
  (pipeline.order, fun id => (pipeline.slot? id).map fun slot => slot.stage.writer?)

theorem sinks_restore (pipeline : Pipeline StageStore) (id : StageId) (on : Bool) :
    (pipeline.restore id on).sinks = pipeline.sinks :=
  Prod.ext rfl (funext (pipeline.map_restore id on fun _ => rfl))

theorem sinks_putBack (pipeline : Pipeline StageStore) (id : StageId) (previous : Option Bool) :
    (putBack id previous pipeline).sinks = pipeline.sinks := by
  cases previous with
  | none => rfl
  | some previous => exact pipeline.sinks_restore id previous

end Pipeline

end FragmentCompiler
