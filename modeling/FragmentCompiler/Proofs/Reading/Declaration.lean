import FragmentCompiler.Proofs.Reading.Basic

/-!
# Reading declarations

A function is declared after its parameters and its body are read, so the numbers it
owns are smaller than its own and larger than those of everything read before.
-/

set_option autoImplicit false

namespace FragmentCompiler

open List Declarations

/-! ## Raw declarations -/

/-- A number stands for the parameter at a place. -/
def Declarations.IsParameter (decls : Declarations) (index : Nat) (id : DeclId) : Prop :=
  ∃ data, decls.asVariable id = some data ∧ data.storage = .parameter ∧ data.slot = index ∧
    data.initial = none

variable {before after : Declarations}

variable {id : DeclId}

theorem Declarations.IsParameter.congr {index} (same : after.get? id = before.get? id)
    (known : before.IsParameter index id) : after.IsParameter index id := by
  obtain ⟨data, found, rest⟩ := known
  exact ⟨data, (asVariable_congr same).trans found, rest⟩

/-- The parameter at a place. -/
def Decl.IsParameter (index : Nat) (decl : Decl) : Prop :=
  ∃ data, decl.body = .variable data ∧ data.storage = .parameter ∧ data.slot = index ∧
    data.initial = none

/-- A function as the grammar makes it, its numbers being larger than `base`. -/
structure Function.Raw (data : Function) (decls : Declarations) (base id : Nat) : Prop where
  result : data.result.IsResult
  ordered : data.owned.Pairwise (· < ·)
  above : ∀ other ∈ data.owned, base < other
  below : ∀ other ∈ data.owned, other < id
  entries : ∀ other ∈ data.owned, decls.RawVariable other
  parameters : ∀ (index : Nat) (other : DeclId), data.parameters[index]? = some other →
    decls.IsParameter index other
  locals : ∀ other ∈ (data.body.map Stmt.declared).getD [], decls.IsStored .local other
  body : ∀ statement, data.body = some statement → statement.Raw
  block : ∀ statement, data.body = some statement → ∃ span body, statement = .block span body

/-- What is declared at top level, as the grammar makes it. -/
inductive DeclBody.Raw (decls : Declarations) (base id : Nat) : DeclBody → Prop
  | variable {data : Variable} (raw : data.Raw) (isGlobal : data.storage = .global) :
      Raw decls base id (.variable data)
  | function {data} (raw : data.Raw decls base id) : Raw decls base id (.function data)
  | wrapper {data} (raw : data.Raw decls base id) (isVoid : data.result = .void)
      (alone : data.parameters = []) (present : data.body.isSome = true) :
      Raw decls base id (.wrapper data)

/-- A number stands for a declaration at top level that nobody has checked yet. -/
def Declarations.RawRoot (decls : Declarations) (base : Nat) (id : DeclId) : Prop :=
  base < id ∧ ∃ decl, decls.get? id = some decl ∧ decl.invalid = false ∧
    decl.body.Raw decls base id

theorem Function.Raw.congr {data : Function} {base less id : Nat}
    (raw : data.Raw before base id) (lower : less ≤ base)
    (same : ∀ other, base < other → other < id → after.get? other = before.get? other) :
    data.Raw after less id := { raw with
  above := fun other member => Nat.lt_of_le_of_lt lower (raw.above other member)
  entries := fun other member =>
    (raw.entries other member).congr (same other (raw.above other member) (raw.below other member))
  parameters := by
    intro index other isParameter
    have member : other ∈ data.owned :=
      mem_append_left _ (mem_of_getElem? isParameter)
    exact (raw.parameters index other isParameter).congr
      (same other (raw.above other member) (raw.below other member))
  locals := by
    intro other inBody
    have member : other ∈ data.owned := mem_append_right _ inBody
    exact (raw.locals other inBody).congr
      (same other (raw.above other member) (raw.below other member)) }

theorem DeclBody.Raw.congr {body : DeclBody} {base less id : Nat}
    (raw : body.Raw before base id) (lower : less ≤ base)
    (same : ∀ other, base < other → other < id → after.get? other = before.get? other) :
    body.Raw after less id := by
  cases raw with
  | «variable» raw isGlobal => exact .variable raw isGlobal
  | function raw => exact .function (raw.congr lower same)
  | wrapper raw isVoid alone present =>
    exact .wrapper (raw.congr lower same) isVoid alone present

theorem Declarations.RawRoot.congr {base less} (raw : before.RawRoot base id) (lower : less ≤ base)
    (same : ∀ other, base < other → other ≤ id → after.get? other = before.get? other) :
    after.RawRoot less id := by
  obtain ⟨above, decl, found, valid, body⟩ := raw
  exact ⟨Nat.lt_of_le_of_lt lower above, decl, (same id above (Nat.le_refl _)).trans found, valid,
    body.congr lower fun other isAbove less => same other isAbove (Nat.le_of_lt less)⟩

variable {decls : Declarations}

theorem Declarations.RawRoot.le_count {base} (raw : decls.RawRoot base id) : id ≤ decls.count := by
  obtain ⟨_, decl, found, _⟩ := raw
  exact le_count_of_get? found

/-- Declarations at top level that nobody has checked yet; the numbers each of them
owns lie between the one before it and its own. -/
inductive Declarations.RawGroup (decls : Declarations) : Nat → Group → Prop
  | nil (base : Nat) : RawGroup decls base []
  | cons {base : Nat} {id : DeclId} {rest : Group} (first : decls.RawRoot base id)
      (others : RawGroup decls id rest) : RawGroup decls base (id :: rest)

theorem Declarations.RawGroup.congr {base group less} (raw : before.RawGroup base group)
    (lower : less ≤ base)
    (same : ∀ id, base < id → id ≤ before.count → after.get? id = before.get? id) :
    after.RawGroup less group := by
  induction raw generalizing less with
  | nil base => exact .nil less
  | cons first others ih =>
    have known := first.le_count
    exact .cons
      (first.congr lower fun other above less => same other above (Nat.le_trans less known))
      (ih (Nat.le_refl _) fun other above => same other (Nat.lt_trans first.1 above))

theorem Declarations.RawGroup.append {base first middle second} (left : decls.RawGroup base first)
    (right : decls.RawGroup middle second) (grown : base ≤ middle)
    (below : ∀ id ∈ first, id ≤ middle) : decls.RawGroup base (first ++ second) := by
  induction left with
  | nil base => exact right.congr grown fun _ _ _ => rfl
  | @cons base id rest head others ih =>
    exact .cons head (ih (below id mem_cons_self)
      fun other member => below other (mem_cons_of_mem _ member))

theorem Declarations.RawGroup.le_count {base group} (raw : decls.RawGroup base group) :
    ∀ id ∈ group, id ≤ decls.count := by
  induction raw with
  | nil base => simp
  | cons first others ih =>
    exact forall_mem_cons.mpr ⟨first.le_count, ih⟩

/-- A single declaration, or variables. -/
def Declarations.Together (decls : Declarations) (group : Group) : Prop :=
  ∀ id ∈ group, group = [id] ∨ ∃ data, decls.asVariable id = some data

/-- What taking in text does to a parser: entries are added, all of them raw, and
diagnostics about the text. -/
structure Parser.Takes (before after : Parser) : Prop extends before.Furthers after where
  count : before.decls.count ≤ after.decls.count
  kept : ∀ id, id ≤ before.decls.count → after.decls.get? id = before.decls.get? id
  made : ∀ id, before.decls.count < id → id ≤ after.decls.count →
    after.decls.RawVariable id ∨ after.decls.RawRoot before.decls.count id

namespace Parser.Reads

variable {base parser : Parser} {made : List Decl}

section

variable (reads : base.Reads made parser)

include reads

theorem count_eq : parser.decls.count = base.decls.count + made.length := by
  have lengths := congrArg List.length reads.entries
  simpa [Declarations.count] using lengths

theorem count : base.decls.count ≤ parser.decls.count := by
  rw [reads.count_eq]
  exact Nat.le_add_right _ _

theorem kept (known : id ≤ base.decls.count) : parser.decls.get? id = base.decls.get? id := by
  cases id with
  | zero => rfl
  | succ index =>
    have inside : index < base.decls.entries.toList.length := by
      rw [Array.length_toList]
      exact known
    rw [get?_succ, get?_succ, ← Array.getElem?_toList, reads.entries,
      getElem?_append_left inside, Array.getElem?_toList]

theorem get?_made (index : Nat) :
    parser.decls.get? (base.decls.count + index + 1) = made[index]? := by
  have apart : base.decls.entries.toList.length = base.decls.count := Array.length_toList
  rw [get?_succ, ← Array.getElem?_toList, reads.entries,
    getElem?_append_right (by omega), apart, Nat.add_sub_cancel_left]

theorem rawVariable (above : base.decls.count < id)
    (below : id ≤ parser.decls.count) : parser.decls.RawVariable id := by
  obtain ⟨index, rfl⟩ := Nat.exists_eq_add_of_lt above
  have inside : index < made.length := by
    have known : base.decls.count + index + 1 ≤ base.decls.count + made.length :=
      reads.count_eq ▸ below
    omega
  have found := reads.get?_made index
  rw [getElem?_eq_getElem inside] at found
  obtain ⟨_, valid, data, isData, raw, _⟩ := reads.raw _ (getElem_mem inside)
  exact ⟨_, data, found, valid, isData, raw⟩

theorem takes : base.Takes parser := { reads with
  count := reads.count
  kept := fun _ => reads.kept
  made := fun _ above below => .inl (reads.rawVariable above below) }

end

end Parser.Reads

theorem Parser.Takes.refl {parser : Parser} (lexed : parser.Lexed) : parser.Takes parser :=
  (Parser.Reads.refl lexed).takes

theorem Parser.Takes.trans {first second third : Parser} (left : first.Takes second)
    (right : second.Takes third) : first.Takes third where
  toFurthers := left.toFurthers.trans right.toFurthers
  count := Nat.le_trans left.count right.count
  kept := fun id known =>
    (right.kept id (Nat.le_trans known left.count)).trans (left.kept id known)
  made := by
    intro id above below
    by_cases early : id ≤ second.decls.count
    · rcases left.made id above early with isVariable | isRoot
      · exact .inl (isVariable.congr (right.kept id early))
      · exact .inr (isRoot.congr (Nat.le_refl _)
          fun other _ less => right.kept other (Nat.le_trans less early))
    · rcases right.made id (Nat.lt_of_not_le early) below with isVariable | isRoot
      · exact .inl isVariable
      · exact .inr (isRoot.congr left.count fun _ _ _ => rfl)

namespace Parser

variable {base parser later : Parser} {made new : List Decl} {storage : Storage}
  {ids more : List DeclId}

/-- After some declarations variables were made, with these numbers. -/
def Adds (base : Parser) (storage : Storage) (made : List Decl) (ids : List DeclId)
    (after : Parser) : Prop :=
  ∃ new, base.Reads (made ++ new) after ∧ (∀ decl ∈ new, decl.IsRaw storage) ∧
    ids = List.range' (base.decls.count + made.length + 1) new.length

theorem Reads.adds (reads : base.Reads made parser) : base.Adds storage made [] parser :=
  ⟨[], by rwa [append_nil], forall_mem_nil _, rfl⟩

theorem Adds.append (stored : ∀ decl ∈ new, decl.IsRaw storage)
    (isIds : ids = List.range' (base.decls.count + made.length + 1) new.length)
    (adds : base.Adds storage (made ++ new) more parser) :
    base.Adds storage made (ids ++ more) parser := by
  obtain ⟨last, reads, storedLast, isMore⟩ := adds
  refine ⟨new ++ last, by rwa [← append_assoc],
    forall_mem_append.mpr ⟨stored, storedLast⟩, ?_⟩
  rw [isIds, isMore, length_append, length_append, ← range'_append_1]
  congr 2
  omega

theorem Reads.declare {decl} (reads : base.Reads made parser) (raw : decl.IsRaw storage) :
    base.Reads (made ++ [decl]) { parser with decls := (parser.decls.add decl).2 } := { reads with
  entries := by
    rw [← append_assoc, ← reads.entries]
    exact Array.toList_push
  raw := forall_mem_append.mpr ⟨reads.raw, by simpa using ⟨storage, raw⟩⟩ }

theorem Reads.one {decl} (reads : base.Reads (made ++ [decl]) parser) (raw : decl.IsRaw storage) :
    base.Adds storage made [base.decls.count + made.length + 1] parser :=
  ⟨[decl], reads, by simpa using raw, rfl⟩

/-! ## Groups -/

/-- Declarations at top level were read, at least one; a wrapper only where `wraps`. -/
structure Groups (before : Parser) (wraps : Prop) (group : Group) (after : Parser) : Prop where
  takes : before.Takes after
  ahead : Input.Ahead before.inputs after.inputs
  files : after.files = before.files
  raw : after.decls.RawGroup before.decls.count group
  some : group ≠ []
  plain : wraps ∨ ∀ id ∈ group, after.decls.IsPlain id
  together : after.decls.Together group

theorem rawGroup_range (decls : Declarations) (count : Nat) : ∀ least,
    (∀ index < count, ∃ decl, decls.get? (least + index + 1) = some decl ∧ decl.IsRaw .global) →
    decls.RawGroup least (List.range' (least + 1) count) := by
  induction count with
  | zero => exact fun least _ => .nil least
  | succ count ih =>
    intro least entries
    obtain ⟨decl, found, valid, data, isData, raw, isGlobal⟩ := entries 0 (Nat.succ_pos _)
    refine .cons ⟨Nat.lt_succ_self _, decl, found, valid, ?_⟩ (ih _ fun index inside => ?_)
    · rw [isData]
      exact .variable raw isGlobal
    · rw [Nat.add_assoc least 1, Nat.add_comm 1]
      exact entries (index + 1) (Nat.succ_lt_succ inside)

theorem Adds.groups {wraps} (adds : base.Adds .global [] ids parser) (some : ids ≠ []) :
    base.Groups wraps ids parser := by
  obtain ⟨new, reads, stored, isIds⟩ := adds
  have each : ∀ id ∈ ids, ∃ decl data, parser.decls.get? id = Option.some decl ∧
      decl.body = .variable data := by
    intro id member
    obtain ⟨low, high⟩ := mem_range'_1.mp (isIds ▸ member)
    have inTable : id ≤ parser.decls.count := by
      rw [reads.count_eq, nil_append]
      exact Nat.le_of_lt_succ (by rw [length_nil] at high; omega)
    obtain ⟨decl, data, found, _, body, _⟩ := reads.rawVariable low inTable
    exact ⟨decl, data, found, body⟩
  refine ⟨reads.takes, reads.ahead, reads.files, ?_, some, .inr fun id member => ?_,
    fun id member => ?_⟩
  rotate_left
  · obtain ⟨decl, data, found, body⟩ := each id member
    exact ⟨decl, found, by simp [body]⟩
  · obtain ⟨decl, data, found, body⟩ := each id member
    exact .inr ⟨data, asVariable_of_get? found body⟩
  rw [isIds]
  refine rawGroup_range _ _ _ fun index inside => ⟨new[index], ?_, stored _ (getElem_mem _)⟩
  rw [reads.get?_made, nil_append, getElem?_eq_getElem inside]

theorem function_raw {data : Function} (result : data.result.IsResult)
    (isIds : data.parameters = List.range' (base.decls.count + 1) made.length)
    (places : ∀ (index : Nat) (decl : Decl), made[index]? = some decl → decl.IsParameter index)
    (adds : base.Adds .local made ((data.body.map Stmt.declared).getD []) parser)
    (body : ∀ statement, data.body = some statement →
      statement.Raw ∧ ∃ span body, statement = .block span body)
    (kept : ∀ id, id ≤ parser.decls.count → decls.get? id = parser.decls.get? id) :
    data.Raw decls base.decls.count (parser.decls.count + 1) := by
  obtain ⟨new, reads, stored, isLocals⟩ := adds
  have count := reads.count_eq
  have owned : data.owned = List.range' (base.decls.count + 1) (made ++ new).length := by
    rw [Function.owned, isIds, isLocals, length_append, ← range'_append_1]
    congr 2
    omega
  have inside : ∀ other ∈ data.owned, base.decls.count < other ∧ other ≤ parser.decls.count := by
    intro other member
    obtain ⟨low, high⟩ := mem_range'_1.mp (owned ▸ member)
    rw [Nat.add_right_comm, ← count] at high
    exact ⟨low, Nat.le_of_lt_succ high⟩
  have found : ∀ index, index < (made ++ new).length →
      decls.get? (base.decls.count + index + 1) = (made ++ new)[index]? := by
    intro index less
    rw [kept _ (by omega), reads.get?_made]
  exact {
    result
    ordered := by
      rw [owned]
      exact pairwise_lt_range'
    above := fun other member => (inside other member).1
    below := fun other member => Nat.lt_succ_of_le (inside other member).2
    entries := fun other member => (reads.rawVariable (inside other member).1
      (inside other member).2).congr (kept other (inside other member).2)
    parameters := by
      intro index other isOther
      rw [isIds] at isOther
      obtain ⟨less, isNumber⟩ := List.getElem?_eq_some_iff.mp isOther
      rw [length_range'] at less
      rw [getElem_range', Nat.one_mul, Nat.add_right_comm] at isNumber
      rw [← isNumber]
      obtain ⟨data, isData, rest⟩ := places index _ (getElem?_eq_getElem less)
      refine ⟨data, asVariable_of_get? ((found index ?_).trans ?_) isData, rest⟩
      · rw [length_append]
        omega
      · rw [getElem?_append_left less, getElem?_eq_getElem less]
    locals := by
      intro other member
      rw [isLocals] at member
      obtain ⟨index, less, rfl⟩ := mem_range'.mp member
      obtain ⟨_, data, isData, _, isLocal⟩ := stored _ (getElem_mem less)
      refine ⟨data, asVariable_of_get? ?_ isData, isLocal⟩
      have known := found (made.length + index) (by rw [length_append]; omega)
      rw [getElem?_append_right (Nat.le_add_right _ _), Nat.add_sub_cancel_left,
        getElem?_eq_getElem less] at known
      rw [← known, Nat.one_mul, Nat.add_right_comm, Nat.add_assoc base.decls.count]
    body := fun statement isBody => (body statement isBody).1
    block := fun statement isBody => (body statement isBody).2 }

theorem Reads.group {wraps body} (reads : base.Reads made parser) (name : Text) (span : Span)
    (plain : wraps ∨ ∀ data, body ≠ .wrapper data)
    (raw : ∀ decls, (∀ id, id ≤ parser.decls.count → decls.get? id = parser.decls.get? id) →
      body.Raw decls base.decls.count (parser.decls.count + 1)) :
    base.Groups wraps [parser.decls.count + 1]
      { parser with decls := (parser.decls.add { name, span, body }).2 } := by
  have kept : ∀ id, id ≤ parser.decls.count →
      (parser.decls.add { name, span, body }).2.get? id = parser.decls.get? id :=
    fun id known => get?_add_of_le _ _ known
  have root : (parser.decls.add { name, span, body }).2.RawRoot base.decls.count
      (parser.decls.count + 1) :=
    ⟨Nat.lt_succ_of_le reads.count, _, get?_add_self _ _, rfl, raw _ kept⟩
  refine ⟨⟨⟨reads.surroundings, reads.lexed, reads.reports⟩, ?_,
    fun id known => (kept id (Nat.le_trans known reads.count)).trans (reads.kept known), ?_⟩,
    reads.ahead, reads.files, .cons root (.nil _), cons_ne_nil _ _,
    plain.imp_right fun plain id isId => ?_, fun id isId => .inl (by rw [mem_singleton.mp isId])⟩
  · rw [count_add]
    exact Nat.le_succ_of_le reads.count
  · intro id above below
    rw [count_add] at below
    rcases Nat.lt_or_ge parser.decls.count id with late | early
    · rw [Nat.le_antisymm below late]
      exact .inr root
    · exact .inl ((reads.rawVariable above early).congr (kept id early))
  · rw [mem_singleton.mp isId]
    exact ⟨_, get?_add_self _ _, plain⟩

end Parser

end FragmentCompiler
