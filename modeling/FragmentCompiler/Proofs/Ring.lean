import FragmentCompiler.Trace.Store

/-!
# The ring of events

A ring holds the latest events.  An event goes to the place after the latest one, which is
the place of the oldest once all places have been used.
-/

set_option autoImplicit false

namespace FragmentCompiler.TraceRing

open List

@[simp] theorem size_emit (ring : TraceRing) (event : TraceEvent) :
    (ring.emit event).slots.size = ring.slots.size := by
  unfold emit
  split <;> simp

@[simp] theorem level_emit (ring : TraceRing) (event : TraceEvent) :
    (ring.emit event).level = ring.level := by
  unfold emit
  split <;> rfl

/-- A new event comes last; in a full ring it takes the place of the oldest one. -/
theorem events_emit {ring : TraceRing} {event : TraceEvent} (room : ring.head < ring.slots.size)
    (admitted : ring.level.admits event) :
    (ring.emit event).events =
      (if ring.full then ring.events.tail else ring.events) ++ [event] := by
  obtain ⟨front, back, parts, isHead⟩ : ∃ front back,
      ring.slots.toList = front ++ back ∧ front.length = ring.head :=
    ⟨_, _, (take_append_drop ring.head _).symm, length_take_of_le (Nat.le_of_lt (by simpa))⟩
  have size : ring.slots.size = front.length + back.length := by
    rw [← Array.length_toList, parts, length_append]
  rw [size, ← isHead] at room
  simp only [emit, admitted, if_true, events, Array.toList_setIfInBounds, parts, ← isHead, size]
  match back with
  | [] => exact absurd room (Nat.lt_irrefl _)
  | [old] => cases ring.full <;> simp
  | old :: next :: back =>
    have short : (front.length + 1) % (front.length + (old :: next :: back).length) =
        (front ++ [event]).length := by
      rw [Nat.mod_eq_of_lt (by simp), length_append]
      rfl
    have split : (front ++ old :: next :: back).set front.length event =
        (front ++ [event]) ++ next :: back := by simp
    rw [short, split, take_left, drop_left]
    cases ring.full <;> simp

/-- What a ring is like after the events it was to keep. -/
structure Keeps (ring : TraceRing) (kept : List TraceEvent) : Prop where
  head : ring.head < ring.slots.size
  full : ring.full = decide (ring.slots.size ≤ kept.length)
  events : ring.events = kept.drop (kept.length - ring.slots.size)

namespace Keeps

variable {ring : TraceRing} {kept : List TraceEvent} (keeps : ring.Keeps kept)

include keeps

theorem head_eq (notFull : kept.length < ring.slots.size) : ring.head = kept.length := by
  have isEvents := congrArg length keeps.events
  rw [TraceRing.events, keeps.full, if_neg (by simpa using notFull)] at isEvents
  have room := keeps.head
  simp at isEvents
  omega

theorem emit {event : TraceEvent} (admitted : ring.level.admits event) :
    (ring.emit event).Keeps (kept ++ [event]) := by
  have room := keeps.head
  have advanced : (ring.emit event).head = (ring.head + 1) % ring.slots.size ∧
      (ring.emit event).full = (ring.full || decide ((ring.head + 1) % ring.slots.size = 0)) := by
    simp [TraceRing.emit, admitted]
  refine ⟨?_, ?_, ?_⟩
  · rw [advanced.1, size_emit]
    exact Nat.mod_lt _ (Nat.zero_lt_of_lt room)
  · rw [advanced.2, size_emit, keeps.full, length_append, length_singleton]
    by_cases notFull : kept.length < ring.slots.size
    · rw [keeps.head_eq notFull]
      by_cases last : kept.length + 1 = ring.slots.size
      · simp [last]
      · rw [Nat.mod_eq_of_lt (by omega)]
        simp
        omega
    · simp [Nat.le_of_not_lt notFull, Nat.le_succ_of_le]
  · rw [events_emit room admitted, keeps.events, keeps.full, size_emit]
    by_cases notFull : kept.length < ring.slots.size
    · rw [if_neg (by simpa), Nat.sub_eq_zero_of_le (Nat.le_of_lt notFull),
        Nat.sub_eq_zero_of_le (by simpa)]
      rfl
    · rw [if_pos (by simpa using notFull), tail_drop, drop_append_of_le_length (by simp; omega),
        length_append, length_singleton, Nat.sub_add_comm (Nat.le_of_not_lt notFull)]

end Keeps

theorem ofCapacity_keeps {capacity} (positive : 0 < capacity) (level : TraceLevel) :
    (ofCapacity capacity level).slots.size = capacity.toNat ∧
      (ofCapacity capacity level).Keeps [] := by
  have size : (ofCapacity capacity level).slots.size = capacity.toNat := by
    simp [ofCapacity, Int.not_le.mpr positive]
  refine ⟨size, ?_, ?_, by simp [events, ofCapacity]⟩
  · rw [size]
    exact Int.lt_toNat.mpr positive
  · rw [size, length_nil, decide_eq_false (by omega)]
    rfl

/-- What a ring keeps after a run that began with other events kept. -/
theorem foldl_emit_keeps (events : List TraceEvent) : ∀ {ring : TraceRing} {kept : List TraceEvent},
    ring.Keeps kept →
      (events.foldl emit ring).slots.size = ring.slots.size ∧
        (events.foldl emit ring).Keeps (kept ++ events.filter ring.level.admits) := by
  induction events with
  | nil => exact fun keeps => ⟨rfl, by simpa using keeps⟩
  | cons event rest ih =>
    intro ring kept keeps
    by_cases admitted : ring.level.admits event
    · have rests := ih (keeps.emit admitted)
      simpa [admitted] using rests
    · have same : ring.emit event = ring := if_neg admitted
      simpa [admitted, same] using ih keeps

/-- A ring of any positive capacity holds, whenever it is looked at, the latest of the events
that its level lets through or that are signs of life, oldest first. -/
theorem ring_holds_latest (capacity : Int) (positive : 0 < capacity) (level : TraceLevel)
    (events : List TraceEvent) :
    let admitted := events.filter fun event => level.reports event.scope || event.kind = .heartbeat
    (events.foldl emit (ofCapacity capacity level)).events =
      admitted.drop (admitted.length - min admitted.length capacity.toNat) := by
  intro admitted
  obtain ⟨size, empty⟩ := ofCapacity_keeps positive level
  obtain ⟨sameSize, keeps⟩ := foldl_emit_keeps events empty
  have isEvents := keeps.events
  have count : admitted.length - min admitted.length capacity.toNat =
      admitted.length - capacity.toNat := by omega
  rw [sameSize, size] at isEvents
  rw [count]
  exact isEvents

/-- A ring of two places that was full before its last event. -/
theorem ring_holds_latest_of_three :
    let event (name : Text) (kind : TraceKind) : TraceEvent := { kind, scope := .node, name }
    let begins := event "a" .begins
    let (first, second, third) := (event "b" .heartbeat, event "c" .heartbeat, event "d" .heartbeat)
    ([first, begins, second, third].foldl emit (ofCapacity 2 .phase)).events = [second, third] :=
  (ring_holds_latest 2 (by decide) .phase _).trans (by decide)

end FragmentCompiler.TraceRing
