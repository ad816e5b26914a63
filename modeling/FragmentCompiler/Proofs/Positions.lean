import FragmentCompiler.Source.FileSet
import Mathlib.Data.List.Induction

/-!
# Positions and lines

The position of an offset counts the line ends before it, and the bytes since the last
of them.  The lines of a buffer are the pieces between its line ends, and the position of
an offset leads to the line it stands in.  A buffer keeps its line ends as words and finds
the count by halving: both agree with plain counting as long as no word wraps.
-/

set_option autoImplicit false

namespace FragmentCompiler

open List Text Buffer

/-- In reading order. -/
def Position.Before (left right : Position) : Prop :=
  left.line < right.line ∨ left.line = right.line ∧ left.column < right.column

theorem Position.Before.trans {first second third : Position} (left : first.Before second)
    (right : second.Before third) : first.Before third := by
  unfold Before at *
  omega

theorem Position.Before.irrefl (position : Position) : ¬ position.Before position := by
  unfold Before
  omega

/-! ## Line ends -/

theorem lineEndsFrom_succ (content : Text) : ∀ offset : Nat,
    lineEndsFrom (offset + 1) content = (lineEndsFrom offset content).map (· + 1) := by
  induction content with
  | nil => exact fun _ => rfl
  | cons byte rest ih =>
    intro offset
    by_cases isEnd : byte = 10
    · simp [lineEndsFrom, isEnd, ih]
    · simp [lineEndsFrom, isEnd, ih]

theorem lineEnds_cons (byte : UInt8) (rest : Text) :
    lineEnds (byte :: rest) =
      (if byte = 10 then [0] else []) ++ (lineEnds rest).map (· + 1) := by
  unfold lineEnds
  rw [← lineEndsFrom_succ]
  by_cases isEnd : byte = 10 <;> simp [lineEndsFrom, isEnd]

theorem length_lineEnds (content : Text) : (lineEnds content).length = content.count 10 := by
  induction content with
  | nil => rfl
  | cons byte rest ih =>
    rw [lineEnds_cons]
    by_cases isEnd : byte = 10 <;> simp [isEnd, ih, Nat.add_comm]

theorem lineEnds_snoc (content : Text) (byte : UInt8) :
    lineEnds (content ++ [byte]) =
      lineEnds content ++ if byte = 10 then [content.length] else [] := by
  induction content with
  | nil => by_cases isEnd : byte = 10 <;> simp [lineEnds, lineEndsFrom, isEnd]
  | cons first rest ih =>
    rw [cons_append, lineEnds_cons, lineEnds_cons, ih]
    by_cases isEnd : byte = 10 <;> simp [isEnd]

/-- The line ends before an offset are those of the text before it. -/
theorem filter_lineEnds (content : Text) : ∀ offset : Nat,
    (lineEnds content).filter (· < offset) = lineEnds (content.take offset) := by
  induction content with
  | nil => simp [lineEnds, lineEndsFrom]
  | cons byte rest ih =>
    intro offset
    cases offset with
    | zero => simp [lineEnds, lineEndsFrom]
    | succ offset =>
      have later : ((lineEnds rest).map (· + 1)).filter (· < offset + 1) =
          (lineEnds (rest.take offset)).map (· + 1) := by
        rw [filter_map, ← ih]
        simp [Function.comp_def]
      rw [take_succ_cons, lineEnds_cons, lineEnds_cons, filter_append, later]
      by_cases isEnd : byte = 10 <;> simp [isEnd]

theorem lt_of_mem_lineEnds {content : Text} {stop : Nat} (isEnd : stop ∈ lineEnds content) :
    stop < content.length := by
  rw [← take_length (l := content), ← filter_lineEnds] at isEnd
  simpa using (mem_filter.mp isEnd).2

theorem pairwise_lineEnds (content : Text) : (lineEnds content).Pairwise (· < ·) := by
  induction content with
  | nil => exact .nil
  | cons byte rest ih =>
    rw [lineEnds_cons]
    have later : ((lineEnds rest).map (· + 1)).Pairwise (· < ·) :=
      ih.map _ fun _ _ => Nat.succ_lt_succ
    by_cases isEnd : byte = 10 <;> simp [isEnd, later]

/-! ## Where lines start -/

/-- Where the last line of a text starts. -/
def lastStart (content : Text) : Nat :=
  match (lineEnds content).getLast? with
  | some last => last + 1
  | none => 0

theorem lastStart_snoc (content : Text) (byte : UInt8) :
    lastStart (content ++ [byte]) = if byte = 10 then content.length + 1 else lastStart content := by
  unfold lastStart
  rw [lineEnds_snoc]
  by_cases isEnd : byte = 10 <;> simp [isEnd]

theorem lastStart_cons (byte : UInt8) (rest : Text) :
    lastStart (byte :: rest) =
      if byte = 10 ∨ 10 ∈ rest then lastStart rest + 1 else 0 := by
  have some_end : lineEnds rest = [] ↔ 10 ∉ rest := by
    rw [← length_eq_zero_iff, length_lineEnds, count_eq_zero]
  unfold lastStart
  rw [lineEnds_cons]
  rcases eq_nil_or_concat (lineEnds rest) with none_there | ⟨ends, last, isEnds⟩
  · have absent := some_end.mp none_there
    by_cases isEnd : byte = 10 <;> simp [isEnd, none_there, absent]
  · have present : 10 ∈ rest := by
      by_contra absent
      simp [some_end.mpr absent] at isEnds
    simp [isEnds, present, ← append_assoc]

section

variable (content : Text)

theorem lastStart_le : lastStart content ≤ content.length := by
  induction content using List.reverseRecOn with
  | nil => exact Nat.le_refl 0
  | append_singleton front byte ih =>
    rw [lastStart_snoc, length_append, length_singleton]
    split <;> omega

/-- A line starts at an offset and has not ended at another. -/
structure LineFrom (content : Text) (start offset : Nat) : Prop where
  le : start ≤ offset
  starts : start = 0 ∨ content[start - 1]? = some 10
  unended : 10 ∉ (content.take offset).drop start

theorem lineFrom_take : ∀ offset : Nat, offset ≤ content.length →
    LineFrom content (lastStart (content.take offset)) offset := by
  intro offset
  induction offset with
  | zero => exact fun _ => ⟨Nat.le_refl 0, .inl rfl, by simp⟩
  | succ offset ih =>
    intro within
    obtain ⟨le, starts, unended⟩ := ih (by omega)
    have isByte : offset < content.length := within
    rw [take_succ_eq_append_getElem isByte, lastStart_snoc, length_take_of_le (by omega)]
    by_cases isEnd : content[offset] = 10
    · rw [if_pos isEnd]
      refine ⟨Nat.le_refl _, .inr ?_, ?_⟩
      · simp [isEnd, isByte]
      · rw [drop_eq_nil_of_le (length_take_le _ _)]
        exact not_mem_nil
    · rw [if_neg isEnd]
      refine ⟨by omega, starts, ?_⟩
      rw [take_succ_eq_append_getElem isByte, drop_append_of_le_length
        (by rw [length_take_of_le (by omega)]; exact le)]
      simpa using ⟨unended, Ne.symm isEnd⟩

end

/-! ## The search -/

/-- In an index in order, the ends below one are before it and those above it after it. -/
theorem ordered_around {ends : Array UInt32} (sorted : ends.toList.Pairwise (· < ·))
    {middle : Nat} (inside : middle < ends.size) :
    (∀ stop ∈ ends.toList.take (middle + 1), stop ≤ ends[middle]) ∧
      ∀ stop ∈ ends.toList.drop middle, ends[middle] ≤ stop := by
  have isMiddle : middle < ends.toList.length := inside
  have parts := sorted
  rw [← take_append_drop middle ends.toList, drop_eq_getElem_cons isMiddle,
    pairwise_append, pairwise_cons] at parts
  obtain ⟨_, ⟨after, _⟩, before⟩ := parts
  rw [take_succ_eq_append_getElem isMiddle, drop_eq_getElem_cons isMiddle]
  constructor
  · intro stop isEarly
    obtain early | isLast := mem_append.mp isEarly
    · exact UInt32.le_of_lt (before stop early _ mem_cons_self)
    · exact UInt32.le_of_eq (mem_singleton.mp isLast)
  · intro stop isLate
    obtain rfl | late := mem_cons.mp isLate
    · exact UInt32.le_refl _
    · exact UInt32.le_of_lt (after stop late)

/-- A search that has settled what lies outside its bounds finds the ends before the
offset. -/
theorem take_endsBefore {ends : Array UInt32} (sorted : ends.toList.Pairwise (· < ·))
    (offset : UInt32) (low high : Nat) (within : high ≤ ends.size) (ordered : low ≤ high)
    (below : ∀ stop ∈ ends.toList.take low, stop < offset)
    (above : ∀ stop ∈ ends.toList.drop high, ¬ stop < offset) :
    endsBefore ends offset low high within ≤ ends.size ∧
      ends.toList.take (endsBefore ends offset low high within) =
        ends.toList.filter (· < offset) := by
  fun_induction endsBefore ends offset low high within with
  | case1 low high within unsettled middle early ih =>
    have around := (ordered_around sorted (show middle < ends.size by omega)).1
    exact ih (by omega) (fun stop isIn => UInt32.lt_of_le_of_lt (around stop isIn) early) above
  | case2 low high within unsettled middle late ih =>
    have around := (ordered_around sorted (show middle < ends.size by omega)).2
    exact ih (by omega) below fun stop isIn early =>
      late (UInt32.lt_of_le_of_lt (around stop isIn) early)
  | case3 low high within settled =>
    obtain rfl : low = high := by omega
    refine ⟨within, ?_⟩
    nth_rewrite 2 [← take_append_drop low ends.toList]
    rw [filter_append, filter_eq_self.mpr (by simpa using below),
      filter_eq_nil_iff.mpr (by simpa using above), append_nil]

/-! ## Words -/

section

variable {content : Text} (short : content.length + 1 < wordSize)

include short

theorem lt_size {value : Nat} (le : value ≤ content.length + 1) : value < UInt32.size :=
  Nat.lt_of_le_of_lt le short

theorem pairwise_lineIndex : (lineIndex content).toList.Pairwise (· < ·) := by
  unfold lineIndex
  rw [pairwise_map]
  refine (pairwise_lineEnds content).imp_of_mem fun first second less => ?_
  have := lt_of_mem_lineEnds first
  have := lt_of_mem_lineEnds second
  exact (UInt32.ofNat_lt_iff_lt (lt_size short (by omega)) (lt_size short (by omega))).mpr less

theorem filter_lineIndex {offset : Nat} (within : offset ≤ content.length) :
    (lineIndex content).toList.filter (· < .ofNat offset) =
      (lineEnds (content.take offset)).map UInt32.ofNat := by
  unfold lineIndex
  rw [filter_map, ← filter_lineEnds]
  refine congrArg _ (filter_congr fun stop isEnd => ?_)
  have := lt_of_mem_lineEnds isEnd
  exact decide_eq_decide.mpr
    (UInt32.ofNat_lt_iff_lt (lt_size short (by omega)) (lt_size short (by omega)))

/-- The search over the index of a text finds the line ends before an offset. -/
theorem endsBefore_lineIndex {offset : Nat} (within : offset ≤ content.length) :
    endsBefore (lineIndex content) (.ofNat offset) 0 (lineIndex content).size (Nat.le_refl _) =
        (lineEnds (content.take offset)).length ∧
      (lineIndex content).toList.take (lineEnds (content.take offset)).length =
        (lineEnds (content.take offset)).map UInt32.ofNat := by
  obtain ⟨le, isTake⟩ := take_endsBefore (pairwise_lineIndex short) (.ofNat offset) 0
    (lineIndex content).size (Nat.le_refl _) (Nat.zero_le _) (by simp)
    (by rw [← Array.length_toList, drop_length]; exact nofun)
  rw [filter_lineIndex short within] at isTake
  have isCount := congrArg List.length isTake
  rw [length_take_of_le (by simpa using le), length_map] at isCount
  exact ⟨isCount, isCount ▸ isTake⟩

end

/-! ## Positions -/

section

variable (content : Text)

variable {offset : Nat}

/-- A buffer finds the position of an offset as its line ends tell it. -/
theorem positionIn_lineIndex (short : content.length + 1 < wordSize)
    (within : offset ≤ content.length) :
    positionIn (lineIndex content) (.ofNat offset) =
      ⟨(content.take offset).count 10 + 1, offset - lastStart (content.take offset) + 1⟩ := by
  have wordOf : ∀ {value}, value ≤ content.length + 1 → (UInt32.ofNat value).toNat = value :=
    fun le => UInt32.toNat_ofNat_of_lt' (lt_size short le)
  have counted : (lineEnds (content.take offset)).length ≤ offset := by
    rw [length_lineEnds]
    exact Nat.le_trans count_le_length (length_take_le _ _)
  obtain ⟨isCount, isTake⟩ := endsBefore_lineIndex short within
  unfold positionIn lastStart
  rw [isCount, ← length_lineEnds]
  rcases eq_nil_or_concat (lineEnds (content.take offset)) with none_there | ⟨front, stop, isEnds⟩
  · rw [none_there, length_nil, ite_self, ← UInt32.ofNat_one, ← UInt32.ofNat_add]
    exact congrArg _ (wordOf (by omega))
  · have less : stop < offset := by
      have isEnd : stop ∈ lineEnds (content.take offset) := by simp [isEnds]
      simpa [within] using lt_of_mem_lineEnds isEnd
    rw [isEnds, concat_eq_append] at isTake counted ⊢
    have found : (lineIndex content)[front.length]? = some (UInt32.ofNat stop) := by
      simpa [getElem?_take] using congrArg (·[front.length]?) isTake
    have filled : ¬ (lineIndex content).isEmpty := by
      intro empty
      simp [Array.isEmpty_iff.mp empty] at found
    simp only [length_append, length_singleton] at counted ⊢
    rw [if_neg filled, Array.getD_eq_getD_getElem?, found, getLast?_append, getLast?_singleton]
    simp only [Option.getD_some]
    rw [← UInt32.ofNat_one, ← UInt32.ofNat_add, ← UInt32.ofNat_sub less, ← UInt32.ofNat_add,
      wordOf (by omega), wordOf (by omega)]
    rfl

theorem position_succ (short : content.length + 1 < wordSize) (within : offset < content.length) :
    (positionIn (lineIndex content) (.ofNat offset)).Before
      (positionIn (lineIndex content) (.ofNat (offset + 1))) := by
  have le := lastStart_le (content.take offset)
  rw [length_take_of_le (by omega)] at le
  rw [positionIn_lineIndex content short (by omega), positionIn_lineIndex content short within,
    take_succ_eq_append_getElem within, lastStart_snoc, count_append]
  unfold Position.Before
  by_cases isEnd : content[offset] = 10
  · left
    simp [isEnd]
  · right
    simp only [count_singleton, isEnd, beq_iff_eq, if_false, true_and, Nat.add_zero]
    omega

theorem position_before (short : content.length + 1 < wordSize) :
    ∀ {first second : Nat}, first < second → second ≤ content.length →
      (positionIn (lineIndex content) (.ofNat first)).Before
        (positionIn (lineIndex content) (.ofNat second)) := by
  intro first second less
  induction less with
  | refl => exact fun within => position_succ content short within
  | step _ ih =>
    exact fun within => (ih (by omega)).trans (position_succ content short within)

/-! ## Lines -/

theorem split_ne_nil : content.split 10 ≠ [] := by
  induction content with
  | nil => exact nofun
  | cons byte rest ih =>
    unfold split
    split
    · exact nofun
    · split <;> exact nofun

theorem length_split : (content.split 10).length = content.count 10 + 1 := by
  induction content with
  | nil => rfl
  | cons byte rest ih =>
    obtain ⟨first, others, isSplit⟩ := exists_cons_of_ne_nil (split_ne_nil rest)
    by_cases isEnd : byte = 10
    · simp [split, isEnd, ih]
    · simpa [split, isEnd, isSplit] using ih

theorem join_split : join [10] (content.split 10) = content := by
  induction content with
  | nil => rfl
  | cons byte rest ih =>
    obtain ⟨first, others, isSplit⟩ := exists_cons_of_ne_nil (split_ne_nil rest)
    rw [isSplit] at ih
    by_cases isEnd : byte = 10
    · simp [split, isEnd, isSplit, join, ih]
    · cases others with
      | nil => simpa [split, isEnd, isSplit, join] using ih
      | cons second others => simpa [split, isEnd, isSplit, join] using ih

end

theorem slice_succ (byte : UInt8) (rest : Text) (start stop : Nat) :
    slice (byte :: rest) (start + 1) (stop + 1) = slice rest start stop := by
  simp [slice]

theorem slice_zero_succ (byte : UInt8) (rest : Text) (stop : Nat) :
    slice (byte :: rest) 0 (stop + 1) = byte :: slice rest 0 stop := by
  simp [slice]

/-- The piece between two line ends. -/
def lineAt (content : Text) (index : Nat) : Text :=
  let start? : Option Nat := match index with
    | 0 => some 0
    | previous + 1 => (lineEnds content)[previous]?.map (· + 1)
  match start? with
  | none => []
  | some start => slice content start ((lineEnds content)[index]?.getD content.length)

theorem lineAt_eq_split (content : Text) : ∀ index : Nat,
    lineAt content index = (content.split 10)[index]?.getD [] := by
  induction content with
  | nil =>
    intro index
    cases index <;> simp [lineAt, lineEnds, lineEndsFrom, slice, split]
  | cons byte rest ih =>
    obtain ⟨first, others, isSplit⟩ := exists_cons_of_ne_nil (split_ne_nil rest)
    rw [isSplit] at ih
    intro index
    simp only [lineAt, lineEnds_cons, length_cons] at ih ⊢
    by_cases isEnd : byte = 10
    · simp only [isEnd, if_true, singleton_append, split, isSplit]
      rcases index with _ | _ | index
      · simp [slice]
      · simpa [slice_succ] using ih 0
      · have later := ih (index + 1)
        cases found : (lineEnds rest)[index]? <;>
          simpa [found, slice_succ] using later
    · simp only [isEnd, if_false, nil_append, split, isSplit]
      rcases index with _ | index
      · simpa [slice_zero_succ] using ih 0
      · have later := ih (index + 1)
        cases found : (lineEnds rest)[index]? <;>
          simpa [found, slice_succ] using later

/-- A line that starts where the content stops is empty in any case. -/
theorem slice_cut {content : Text} (short : content.length + 1 < wordSize) {start : Nat}
    (le : start ≤ content.length) (stop : Nat) :
    (if UInt32.ofNat content.length ≤ .ofNat start then [] else slice content start stop) =
      slice content start stop := by
  split
  · rename_i past
    rw [UInt32.ofNat_le_iff_le (lt_size short (by omega)) (lt_size short (by omega))] at past
    simp [slice, drop_eq_nil_of_le past]
  · rfl

/-- The lines of a buffer are the pieces between its line ends. -/
theorem line_eq_lineAt (path : Text) (flags : BufferFlags) (content : Text) {index : Nat}
    (short : content.length + 1 < wordSize) (within : index ≤ content.length) :
    (mk path content (lineIndex content) flags).line (.ofNat (index + 1)) =
      lineAt content index := by
  have wordOf : ∀ {value}, value ≤ content.length + 1 → (UInt32.ofNat value).toNat = value :=
    fun le => UInt32.toNat_ofNat_of_lt' (lt_size short le)
  have each : ∀ place : Nat, (lineIndex content)[place]? =
      (lineEnds content)[place]?.map UInt32.ofNat := by
    simp [lineIndex]
  have isStop : (((lineEnds content)[index]?.map UInt32.ofNat).getD
      (.ofNat content.length)).toNat = (lineEnds content)[index]?.getD content.length := by
    cases found : (lineEnds content)[index]? with
    | none => exact wordOf (by omega)
    | some stop =>
      have := lt_of_mem_lineEnds (mem_of_getElem? found)
      exact wordOf (by omega)
  have before : UInt32.ofNat (index + 1) - 1 = .ofNat index := by
    rw [UInt32.ofNat_add]
    exact UInt32.add_sub_cancel _ _
  unfold line lineAt
  simp only [before, wordOf (Nat.le_succ_of_le within), each, isStop]
  cases index with
  | zero => exact slice_cut short (Nat.zero_le _) _
  | succ previous =>
    have number : (UInt32.ofNat (previous + 2)).toNat = previous + 2 := wordOf (by omega)
    have notZero : UInt32.ofNat (previous + 2) ≠ 0 := fun same => by simp [same] at number
    have notOne : UInt32.ofNat (previous + 2) ≠ 1 := fun same => by simp [same] at number
    have twoBefore : UInt32.ofNat (previous + 2) - 2 = .ofNat previous := by
      rw [UInt32.ofNat_add]
      exact UInt32.add_sub_cancel _ _
    rw [if_neg notZero, if_neg notOne, twoBefore, wordOf (by omega)]
    dsimp only
    cases found : (lineEnds content)[previous]? with
    | none => rfl
    | some stop =>
      have less := lt_of_mem_lineEnds (mem_of_getElem? found)
      simp only [Option.map_some]
      rw [← UInt32.ofNat_one, ← UInt32.ofNat_add, wordOf (by omega)]
      exact slice_cut short less _

/-- The piece an offset stands in runs from the last line end before the offset to the
next one. -/
theorem split_at (content : Text) : ∀ offset : Nat,
    (content.split 10)[(content.take offset).count 10]? =
      some ((content.drop (lastStart (content.take offset))).takeWhile (· != 10)) := by
  induction content with
  | nil => simp [split, lastStart, lineEnds, lineEndsFrom]
  | cons byte rest ih =>
    obtain ⟨first, others, isSplit⟩ := exists_cons_of_ne_nil (split_ne_nil rest)
    intro offset
    have isFirst : first = rest.takeWhile (· != 10) := by
      simpa [isSplit, lastStart, lineEnds, lineEndsFrom] using ih 0
    cases offset with
    | zero =>
      by_cases isEnd : byte = 10 <;>
        simp [split, isEnd, isSplit, isFirst, lastStart, lineEnds, lineEndsFrom]
    | succ offset =>
      have there := ih offset
      rw [isSplit] at there
      rw [take_succ_cons, lastStart_cons]
      by_cases isEnd : byte = 10
      · simpa [split, isEnd, isSplit] using there
      · by_cases present : 10 ∈ rest.take offset
        · obtain ⟨more, isCount⟩ := Nat.exists_eq_add_one.mpr (count_pos_iff.mpr present)
          simpa [split, isEnd, isSplit, present, isCount] using there
        · simp [split, isEnd, isSplit, present, count_eq_zero.mpr present, isFirst]

/-- The buffer that a text becomes: an offset up to its end has the line that as many line
ends precede and the column that counts from where this line starts; later offsets have
later positions; the line with the number of the position starts where the column says;
and the lines joined are the text. -/
theorem positions_exact (files : FileSet) (path content : Text) (flags : BufferFlags)
    (short : content.length < wordSize - 1) :
    let (id, added) := files.add path content flags
    ∃ buffer, added.get? id = some buffer ∧ buffer.content = content ∧
      (∀ offset, offset ≤ content.length →
        let position := buffer.position offset
        (∀ other, (added.resolve ⟨id, offset, other⟩).1 = position ∧
          (added.resolve ⟨id, other, offset⟩).2 = position) ∧
        position.line = 1 + (content.take offset).count 10 ∧
        (∃ start, LineFrom content start offset ∧ position.column = offset - start + 1) ∧
        buffer.line (.ofNat position.line) =
          (content.drop (offset + 1 - position.column)).takeWhile (· != 10)) ∧
      (∀ first second, first < second → second ≤ content.length →
        (buffer.position first).Before (buffer.position second)) ∧
      (∀ first second, first ≤ content.length → second ≤ content.length →
        buffer.position first = buffer.position second → first = second) ∧
      Text.join [10] ((List.range (content.count 10 + 1)).map fun index =>
        buffer.line (.ofNat (index + 1))) = content := by
  have bound : content.length + 1 < wordSize := by omega
  have later : ∀ first second, first < second → second ≤ content.length →
      (positionIn (lineIndex content) (.ofNat first)).Before
        (positionIn (lineIndex content) (.ofNat second)) :=
    fun first second => position_before content bound
  refine ⟨⟨Path.clean path, content, lineIndex content, flags⟩, ?_, rfl, ?_, later, ?_, ?_⟩
  · simp [FileSet.get?]
  · intro offset within
    have from_start := lineFrom_take content offset within
    have counted : (content.take offset).count 10 ≤ content.length :=
      Nat.le_trans count_le_length (length_take_le' _ _)
    refine ⟨fun other => ?_, ?_, ⟨_, from_start, ?_⟩, ?_⟩
    · simp [FileSet.resolve, FileSet.get?]
    all_goals
      simp only [Buffer.position]
      rw [positionIn_lineIndex content bound within]
    · exact Nat.add_comm _ _
    · have isStart : offset + 1 - (offset - lastStart (content.take offset) + 1) =
          lastStart (content.take offset) := by
        have := from_start.le
        omega
      rw [line_eq_lineAt _ _ _ bound counted, lineAt_eq_split, split_at, isStart]
      rfl
  · intro first second inFirst inSecond same
    have isSame : positionIn (lineIndex content) (.ofNat first) =
        positionIn (lineIndex content) (.ofNat second) := same
    rcases Nat.lt_trichotomy first second with less | equal | more
    · exact absurd (isSame ▸ later first second less inSecond) (Position.Before.irrefl _)
    · exact equal
    · exact absurd (isSame ▸ later second first more inFirst) (Position.Before.irrefl _)
  · refine (congrArg (Text.join [10]) ?_).trans (join_split content)
    apply List.ext_getElem
    · simp [length_split]
    · intro index inRange inside
      have counted : index ≤ content.length := by
        have : content.count 10 ≤ content.length := count_le_length
        simp at inRange
        omega
      rw [getElem_map, getElem_range, line_eq_lineAt _ _ _ bound counted, lineAt_eq_split]
      simp [inside]

/-- Two lines, the second one empty: a line end belongs to the line it ends. -/
theorem positions_exact_two_lines : ([97, 10] : Text).length < wordSize - 1 ∧
    ∃ buffer, (FileSet.add {} [98] [97, 10] {}).2.get? 0 = some buffer ∧
      (buffer.position 1).line = 1 ∧ (buffer.position 2).line = 2 ∧
      (buffer.position 1).Before (buffer.position 2) ∧
      Text.join [10] [buffer.line 1, buffer.line 2] = [97, 10] := by
  have short : ([97, 10] : Text).length < wordSize - 1 := by decide
  obtain ⟨buffer, found, _, each, later, _, joined⟩ :=
    positions_exact {} [98] [97, 10] {} short
  exact ⟨short, buffer, found, (each 1 (by decide)).2.1, (each 2 (by decide)).2.1,
    later 1 2 (by decide) (by decide), joined⟩

end FragmentCompiler
