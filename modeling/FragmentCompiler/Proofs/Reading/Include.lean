import FragmentCompiler.Proofs.Reading.Unit
import Mathlib.Algebra.Order.BigOperators.Group.List
import Mathlib.Algebra.Order.Group.Nat
import Mathlib.Data.Fintype.Basic
import Mathlib.Data.Set.Finite.List

/-!
# What can be included

An include finds a file of the tree or a virtual buffer.  Only finitely many paths can be found,
and no text that is found is longer than the longest one there is.  A directive enters at most
one buffer, whose path is not being read yet.
-/

set_option autoImplicit false

namespace FragmentCompiler

open List

variable {path : Text}

/-! ## Texts that can be included -/

theorem shortLineEnds_length (content : Text) :
    (shortLineEnds content).length ≤ content.length := by
  fun_induction shortLineEnds content with
  | case1 rest ih => simp only [length_cons]; omega
  | case2 byte rest _ ih => simp only [length_cons]; omega
  | case3 => simp

theorem tidyContent_length (content : Text) : (tidyContent content).1.length ≤ content.length := by
  refine Nat.le_trans (shortLineEnds_length _) ?_
  unfold Text.withoutLead
  split
  · simp
  · exact Nat.le_refl _

theorem Lexer.lexWithin_length (fuel : Nat) : ∀ cursor, (lexWithin fuel cursor).length ≤ fuel := by
  induction fuel with
  | zero => exact fun _ => Nat.le_refl _
  | succ fuel ih =>
    intro cursor
    unfold lexWithin
    split
    · simp
    · simpa using ih _

theorem FileTree.isFile_length {tree : FileTree} (isFile : tree.isFile path = true) :
    path.length ≤ longestPath := by
  by_contra tooLong
  have refused : ∃ fault, tree.locate path = .error fault := by
    unfold locate
    split
    · exact ⟨_, rfl⟩
    · exact ⟨_, if_pos (Nat.lt_of_not_le tooLong)⟩
  obtain ⟨fault, isFault⟩ := refused
  simp [FileTree.isFile, status, isFault] at isFile

def FileNode.size : FileNode → Nat
  | .file content => content.length
  | .directory => 0

theorem FileTree.read_mem {content} {tree : FileTree} (isRead : tree.read path = .ok content) :
    ∃ place, (place, .file content) ∈ tree.nodes := by
  have found : tree.status path = .ok (.file content) := by
    unfold read at isRead
    split at isRead
    · rename_i isContent
      cases isRead
      exact isContent
    · cases isRead
    · cases isRead
  unfold status at found
  split at found
  · cases found
  · rename_i place _
    split at found
    · rename_i node isNode
      cases found
      unfold node? at isNode
      split at isNode
      · cases isNode
      · obtain ⟨entry, isEntry, isFile⟩ := Option.map_eq_some_iff.mp isNode
        refine ⟨entry.1, ?_⟩
        rw [← isFile]
        exact mem_of_find?_eq_some isEntry
    · cases found

theorem FileSet.get?_add (files : FileSet) (path content : Text) (flags : BufferFlags) :
    ∃ buffer, (files.add path content flags).2.get? (files.add path content flags).1 = some buffer ∧
      buffer.path = Path.clean path := by
  refine ⟨_, Array.getElem?_push_size, rfl⟩

theorem FileSet.mem_add {content flags buffer} {files : FileSet}
    (member : buffer ∈ (files.add path content flags).2.buffers) :
    buffer ∈ files.buffers ∨ buffer.content = content := by
  rcases Array.mem_push.mp member with isOld | isNew
  · exact .inl isOld
  · exact .inr (by rw [isNew])

theorem FileSet.latest?_path {files : FileSet} {id : FileId} (found : files.latest? path = some id)
    : ∃ buffer, files.get? id = some buffer ∧ buffer.path = Path.clean path := by
  have holds := find?_some found
  split at holds
  · rename_i buffer isBuffer
    exact ⟨buffer, isBuffer, by simpa using holds⟩
  · cases holds

namespace Parser

variable {size : Nat} {parser : Parser}

/-- A path that an include can find: that of a file or of a virtual buffer. -/
def Includable (parser : Parser) (path : Text) : Prop :=
  (∃ given, parser.tree.isFile given = true ∧ Path.clean given = path) ∨
    ∃ entry ∈ parser.virtuals, Path.clean entry.1 = path

theorem includable_finite (parser : Parser) : {path | parser.Includable path}.Finite := by
  have bytes : Finite UInt8 := Finite.of_injective UInt8.toFin fun _ _ => UInt8.toFin_inj.mp
  have files : {given | parser.tree.isFile given = true}.Finite :=
    (finite_length_le UInt8 FileTree.longestPath).subset fun _ => FileTree.isFile_length
  have names : {entry | entry ∈ parser.virtuals}.Finite := finite_toSet _
  refine ((files.image Path.clean).union (names.image fun entry => Path.clean entry.1)).subset ?_
  rintro path (⟨given, isFile, isPath⟩ | ⟨entry, member, isPath⟩)
  · exact .inl ⟨given, isFile, isPath⟩
  · exact .inr ⟨entry, member, isPath⟩

theorem Takes.includable {before after : Parser} (takes : before.Takes after) (path : Text) :
    after.Includable path ↔ before.Includable path := by
  unfold Includable
  rw [takes.tree, takes.virtuals]

/-- No text that can be entered is longer than a given size. -/
structure Sized (size : Nat) (parser : Parser) : Prop where
  buffers : ∀ buffer ∈ parser.files.buffers, buffer.content.length ≤ size
  virtuals : ∀ entry ∈ parser.virtuals, entry.2.length ≤ size
  files : ∀ path content, parser.tree.read path = .ok content → content.length ≤ size

theorem exists_sized (parser : Parser) : ∃ size, parser.Sized size := by
  let lengths := parser.files.buffers.toList.map (fun buffer => buffer.content.length) ++
    parser.virtuals.map (fun entry => entry.2.length) ++
    parser.tree.nodes.map fun entry => entry.2.size
  have small : ∀ length ∈ lengths, length ≤ lengths.sum := fun _ => le_sum_of_mem
  refine ⟨lengths.sum, ⟨fun buffer member => small _ ?_, fun entry member => small _ ?_,
    fun path content isRead => ?_⟩⟩
  · simp only [lengths, mem_append, mem_map]
    exact .inl (.inl ⟨buffer, Array.mem_toList_iff.mpr member, rfl⟩)
  · simp only [lengths, mem_append, mem_map]
    exact .inl (.inr ⟨entry, member, rfl⟩)
  · obtain ⟨place, member⟩ := FileTree.read_mem isRead
    refine small _ ?_
    simp only [lengths, mem_append, mem_map]
    exact .inr ⟨_, member, rfl⟩

/-! ## Directives -/

/-- A buffer that may be entered on top of others. -/
structure Enterable (size : Nat) (parser : Parser) (input : Input) : Prop where
  fresh : input.path ∉ parser.inputs.map Input.path
  known : parser.Includable input.path
  short : input.pending.length ≤ size + 1

section

variable (sized : parser.Sized size)

include sized

theorem Sized.add {content : Text} (flags : BufferFlags) (short : content.length ≤ size) :
    Sized size { parser with files := (parser.files.add path content flags).2 } where
  buffers := by
    intro buffer member
    rcases FileSet.mem_add member with isOld | isContent
    · exact sized.buffers buffer isOld
    · rw [isContent]
      exact short
  virtuals := sized.virtuals
  files := sized.files

theorem openIncluded_sized (span : Span) (name : Text) :
    (parser.openIncluded span name).2.Sized size ∧
      (parser.openIncluded span name).2.inputs = parser.inputs ∧
      ∀ id, (parser.openIncluded span name).1 = some id → ∃ buffer,
        (parser.openIncluded span name).2.files.get? id = some buffer ∧
          parser.Includable buffer.path := by
  have recorded : ∀ diagnostic, (parser.record diagnostic).Sized size := fun _ =>
    ⟨sized.buffers, sized.virtuals, sized.files⟩
  unfold openIncluded
  split
  · rename_i content isVirtual
    have member : (name, content) ∈ parser.virtuals := by
      obtain ⟨_, _, isSplit, _⟩ := lookup_eq_some_iff.mp isVirtual
      rw [isSplit]
      simp
    have known : parser.Includable (Path.clean name) := .inr ⟨_, member, rfl⟩
    split
    · rename_i id isLatest
      refine ⟨sized, rfl, fun other isOther => ?_⟩
      cases isOther
      obtain ⟨buffer, isBuffer, isPath⟩ := FileSet.latest?_path isLatest
      exact ⟨buffer, isBuffer, by rw [isPath]; exact known⟩
    · refine ⟨sized.add _ (Nat.le_trans (tidyContent_length content)
        (sized.virtuals _ member)), rfl, fun id isId => ?_⟩
      cases isId
      obtain ⟨buffer, isBuffer, isPath⟩ := parser.files.get?_add name (tidyContent content).1
        { (tidyContent content).2 with virtual := true }
      exact ⟨buffer, isBuffer, by rw [isPath]; exact known⟩
  · split
    · exact ⟨recorded _, rfl, by simp⟩
    · rename_i path isFound
      have known : parser.Includable (Path.clean path) :=
        .inl ⟨path, find?_some isFound, rfl⟩
      split
      · rename_i id files isLoaded
        unfold FileSet.load at isLoaded
        split at isLoaded
        · cases isLoaded
        · rename_i content isRead
          cases isLoaded
          refine ⟨sized.add _ (Nat.le_trans (tidyContent_length content)
            (sized.files _ _ isRead)), rfl, fun id isId => ?_⟩
          cases isId
          obtain ⟨buffer, isBuffer, isPath⟩ := parser.files.get?_add path (tidyContent content).1
            (tidyContent content).2
          exact ⟨buffer, isBuffer, by rw [isPath]; exact known⟩
      · exact ⟨recorded _, rfl, by simp⟩

/-- What a directive does to the buffers being read: at most one is entered. -/
inductive Pushes (size : Nat) (before after : Parser) : Prop
  | none (inputs : after.inputs = before.inputs)
  | one (input : Input) (enterable : before.Enterable size input)
      (inputs : after.inputs = input :: before.inputs)

theorem includeFile_pushes (span : Span) (name : Text) :
    (parser.includeFile span name).Sized size ∧
      parser.Pushes size (parser.includeFile span name) := by
  obtain ⟨after, inputs, found⟩ := openIncluded_sized sized span name
  unfold includeFile
  rcases run : parser.openIncluded span name with ⟨_ | id, later⟩ <;>
    rw [run] at after inputs found
  · exact ⟨after, .none inputs⟩
  · obtain ⟨buffer, isBuffer, known⟩ := found id rfl
    dsimp only at after inputs isBuffer ⊢
    rw [isBuffer]
    split
    · exact ⟨⟨after.buffers, after.virtuals, after.files⟩, .none inputs⟩
    · rename_i unused
      have member : buffer ∈ later.files.buffers := Array.mem_of_getElem? isBuffer
      unfold enter
      rw [isBuffer]
      refine ⟨⟨after.buffers, after.virtuals, after.files⟩,
        .one _ ⟨?_, known, ?_⟩ (congrArg (List.cons _) inputs)⟩
      · intro inUse
        obtain ⟨input, isInput, isPath⟩ := mem_map.mp inUse
        rw [← inputs] at isInput
        exact unused (any_eq_true.mpr ⟨input, isInput, by simpa using isPath⟩)
      · refine Nat.le_trans (Lexer.lexWithin_length _ _) ?_
        exact Nat.succ_le_succ (after.buffers buffer member)

theorem directive_pushes (token : Token) :
    (parser.directive token).2.Sized size ∧ parser.Pushes size (parser.directive token).2 := by
  cases directive_directs parser.takesPragmas token with
  | included name _ run =>
    rw [run]
    exact includeFile_pushes sized token.span name
  | pragma _ _ _ _ run =>
    rw [run parser rfl]
    exact ⟨sized, .none rfl⟩
  | remark diagnostic _ _ run =>
    rw [run parser rfl]
    exact ⟨⟨sized.buffers, sized.virtuals, sized.files⟩, .none rfl⟩

end

end Parser

end FragmentCompiler
