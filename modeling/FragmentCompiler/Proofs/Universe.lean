import FragmentCompiler.Machine.Basic

/-!
# Growing and shrinking universes

A universe grows by declaring names.  Rolling back to a mark undoes exactly the
declarations made after the mark was taken.  The order lists the declared names, each
once and in the order of the first declaration in force.
-/

set_option autoImplicit false

namespace FragmentCompiler

open List

/-! ## The table of names -/

theorem Machine.lookup_put {α} (name other : Text) (value : α) (table : List (Text × α)) :
    (put name value table).lookup other =
      if other = name then some value else table.lookup other := by
  induction table with
  | nil =>
    by_cases same : other = name
    · simp [put, same]
    · have differs : (other == name) = false := by simpa using same
      simp [put, List.lookup_cons, differs, same]
  | cons entry rest ih =>
    obtain ⟨known, old⟩ := entry
    by_cases isName : known = name
    · subst isName
      by_cases same : other = known
      · simp [put, same]
      · have differs : (other == known) = false := by simpa using same
        simp [put, List.lookup_cons, differs, same]
    · have passes : (known == name) = false := by simpa using isName
      simp only [put, passes, Bool.false_eq_true, if_false]
      by_cases isKnown : other = known
      · subst isKnown
        simp [isName]
      · have differs : (other == known) = false := by simpa using isKnown
        simp only [List.lookup_cons, differs]
        exact ih

namespace Universe

theorem assign_eq_put (name : Text) (meaning : Meaning) (table : List (Text × Meaning)) :
    assign name meaning table = Machine.put name meaning table := by
  induction table with
  | nil => rfl
  | cons entry rest ih => simp only [assign, Machine.put, ih]

theorem lookup_assign (name other : Text) (meaning : Meaning) (table : List (Text × Meaning)) :
    (assign name meaning table).lookup other =
      if other = name then some meaning else table.lookup other := by
  rw [assign_eq_put, Machine.lookup_put]

theorem assign_cons_of_ne {known name} (different : known ≠ name) (meaning first : Meaning)
    (rest : List (Text × Meaning)) :
    assign name meaning ((known, first) :: rest) = (known, first) :: assign name meaning rest := by
  simp [assign, different]

theorem assign_assign_of_lookup (name : Text) (meaning old : Meaning)
    (table : List (Text × Meaning)) (found : table.lookup name = some old) :
    assign name old (assign name meaning table) = table := by
  induction table with
  | nil => simp at found
  | cons entry rest ih =>
    obtain ⟨known, first⟩ := entry
    by_cases isName : known = name
    · subst isName
      have firstEq : first = old := by simpa using found
      simp [assign, firstEq]
    · rw [List.lookup_cons, beq_false_of_ne (Ne.symm isName)] at found
      rw [assign_cons_of_ne isName, assign_cons_of_ne isName, ih found]

theorem filter_assign_of_lookup (name : Text) (meaning : Meaning)
    (table : List (Text × Meaning)) (unknown : table.lookup name = none) :
    (assign name meaning table).filter (fun entry => entry.1 != name) = table := by
  induction table with
  | nil => simp [assign]
  | cons entry rest ih =>
    obtain ⟨known, first⟩ := entry
    by_cases isName : known = name
    · subst isName
      simp at unknown
    · rw [List.lookup_cons, beq_false_of_ne (Ne.symm isName)] at unknown
      rw [assign_cons_of_ne isName, filter_cons_of_pos (by simpa using isName), ih unknown]

/-! ## Declaring names -/

theorem lookup_declare (names : Universe) (name other : Text) (meaning : Meaning) :
    (names.declare name meaning).lookup other =
      if other = name then some meaning else names.lookup other :=
  lookup_assign name other meaning names.names

theorem lookup_declare_self (names : Universe) (name : Text) (meaning : Meaning) :
    (names.declare name meaning).lookup name = some meaning := by
  simp [lookup_declare]

theorem lookup_declare_of_ne {other name} (names : Universe) (meaning : Meaning)
    (different : other ≠ name) :
    (names.declare name meaning).lookup other = names.lookup other := by
  simp [lookup_declare, different]

theorem lookup_declare_cases {name meaning other found} {old : Universe}
    (known : (old.declare name meaning).lookup other = some found) :
    other = name ∧ found = meaning ∨ old.lookup other = some found := by
  rw [lookup_declare] at known
  split at known
  · rename_i isName
    exact .inl ⟨isName, (Option.some.inj known).symm⟩
  · exact .inr known

theorem undo_declare (names : Universe) (name : Text) (meaning : Meaning) :
    { (names.declare name meaning).undo { name, before := names.lookup name } with
      changes := names.changes } = names := by
  cases before : names.lookup name with
  | none =>
    have table := filter_assign_of_lookup name meaning names.names before
    simp [declare, undo, before, table]
  | some old =>
    have table := assign_assign_of_lookup name meaning old names.names before
    simp [declare, undo, before, table]

/-- A name may be declared: what every program has is neither replaced nor declared. -/
def Admits (names : Universe) (name : Text) (meaning : Meaning) : Prop :=
  meaning.isBuiltin = false ∧
    ∀ earlier, names.lookup name = some earlier → earlier.isBuiltin = false

/-- One universe comes from another by declaring names. -/
inductive Grows (names : Universe) : Universe → Prop
  | refl : Grows names names
  | declare {later name meaning} (grown : Grows names later) (admits : later.Admits name meaning) :
      Grows names (later.declare name meaning)

theorem Grows.trans {first second third} (left : Grows first second) (right : Grows second third) :
    Grows first third := by
  induction right with
  | refl => exact left
  | declare _ admits ih => exact ih.declare admits

theorem Grows.mark_le {before} {after : Universe} (grown : Grows before after) :
    before.mark ≤ after.mark := by
  induction grown with
  | refl => exact Nat.le_refl _
  | declare _ _ ih => exact Nat.le_succ_of_le ih

theorem rollback_self (names : Universe) : names.rollback names.mark = names := by
  unfold rollback mark
  cases changes : names.changes with
  | nil => rfl
  | cons change rest => simp [undoDownTo]

theorem rollback_declare (names : Universe) (name : Text) (meaning : Meaning) (point : Nat)
    (kept : point ≤ names.mark) :
    (names.declare name meaning).rollback point = names.rollback point := by
  have notYet : ¬ names.changes.length < point := Nat.not_lt.mpr kept
  have undone := undo_declare names name meaning
  change undoDownTo point ({ name, before := names.lookup name } :: names.changes)
    (names.declare name meaning) = undoDownTo point names.changes names
  rw [undoDownTo, if_neg notYet]
  exact congrArg (undoDownTo point names.changes) undone

/-- Rolling back to a mark gives back the universe as it was when the mark was taken:
the same table, the same order of export and the same log. -/
theorem rollback_of_grows {before} {after : Universe} (grown : Grows before after) :
    after.rollback before.mark = before := by
  induction grown with
  | refl => exact rollback_self before
  | @declare later name meaning grown _ ih =>
    rw [rollback_declare later name meaning before.mark grown.mark_le]
    exact ih

/-! ## The order of names -/

/-- The order lists the declared names, each once, and what every program has is known. -/
structure Tidy (names : Universe) : Prop where
  builtins : ∀ which : Builtin, names.lookup which.name = some (.builtin which)
  nodup : names.order.Nodup
  listed : ∀ name, name ∈ names.order ↔
    ∃ meaning, names.lookup name = some meaning ∧ meaning.isBuiltin = false

theorem lookup_fresh (name : Text) :
    ({} : Universe).lookup name = (Builtin.ofText? name).map .builtin := by
  unfold lookup Builtin.ofText?
  induction Builtin.all with
  | nil => rfl
  | cons builtin rest ih =>
    rw [map_cons, lookup_cons, find?_cons, ih, BEq.comm]
    cases builtin.name == name <;> rfl

theorem tidy_fresh : ({} : Universe).Tidy where
  builtins := fun which => by cases which <;> rfl
  nodup := .nil
  listed := fun name => by
    refine ⟨fun never => (not_mem_nil never).elim, ?_⟩
    rintro ⟨meaning, known, declared⟩
    obtain ⟨which, _, rfl⟩ := Option.map_eq_some_iff.mp ((lookup_fresh name).symm.trans known)
    cases declared

theorem order_declare (names : Universe) (name : Text) (meaning : Meaning) :
    (names.declare name meaning).order =
      names.order ++ if (names.lookup name).isNone then [name] else [] := by
  simp only [declare]
  split <;> simp

theorem Tidy.declare {name meaning} {names : Universe} (tidy : names.Tidy)
    (admits : names.Admits name meaning) : (names.declare name meaning).Tidy where
  builtins := fun which => by
    have different : which.name ≠ name := fun same => by
      cases admits.2 _ (same ▸ tidy.builtins which)
    rw [lookup_declare_of_ne names meaning different]
    exact tidy.builtins which
  nodup := by
    rw [order_declare]
    cases before : names.lookup name with
    | some _ => simpa using tidy.nodup
    | none =>
      have unlisted : name ∉ names.order := fun member => by
        obtain ⟨_, known, _⟩ := (tidy.listed name).mp member
        rw [before] at known
        cases known
      simp only [Option.isNone_none, if_true, nodup_append]
      refine ⟨tidy.nodup, by simp, fun other member _ isName => ?_⟩
      rintro rfl
      exact unlisted (mem_singleton.mp isName ▸ member)
  listed := fun other => by
    rw [order_declare, mem_append, tidy.listed, lookup_declare]
    by_cases isName : other = name
    · subst isName
      cases before : names.lookup other with
      | none => simp [admits.1]
      | some earlier => simp [admits.1, admits.2 earlier before]
    · cases (names.lookup name).isNone <;> simp [isName]

end Universe

end FragmentCompiler
