import FragmentCompiler.Proofs.Session.Run

/-!
# Marks and exports

However names are declared, marked and rolled back, the names known are those of the
declarations in force, and rolling back to a mark gives back what was known there.  What a
session exports lists each valid global once.
-/

set_option autoImplicit false

namespace FragmentCompiler

open List

namespace Universe

/-! ## Marks -/

/-- How names were declared, marked and rolled back: the declarations in force, oldest
first, and for each mark that may still be used, latest first, those in force and the names
known when it was taken.  Rolling back to a mark gives up the later ones. -/
inductive Course : List (Text × Meaning) → List (List (Text × Meaning) × Universe) →
    Universe → Prop
  | fresh : Course [] [] {}
  | declare {declared : List (Text × Meaning)} {marks : List (List (Text × Meaning) × Universe)}
      {names : Universe} {name : Text} {meaning : Meaning} (course : Course declared marks names)
      (admits : names.Admits name meaning) :
      Course (declared ++ [(name, meaning)]) marks (names.declare name meaning)
  | mark {declared : List (Text × Meaning)} {marks : List (List (Text × Meaning) × Universe)}
      {names : Universe} (course : Course declared marks names) :
      Course declared ((declared, names) :: marks) names
  | rollback {declared : List (Text × Meaning)} {names : Universe}
      {later earlier : List (List (Text × Meaning) × Universe)}
      {point : List (Text × Meaning) × Universe}
      (course : Course declared (later ++ point :: earlier) names) :
      Course point.1 (point :: earlier) (names.rollback point.2.mark)

/-- The names known are those of the declarations in force. -/
structure Reflects (names : Universe) (declared : List (Text × Meaning)) : Prop where
  tidy : names.Tidy
  order : names.order = (declared.map Prod.fst).eraseDups
  lookup : ∀ name, names.lookup name =
    (declared.reverse.lookup name).or ((Builtin.ofText? name).map .builtin)

theorem Reflects.declare {declared name meaning} {names : Universe}
    (reflects : names.Reflects declared) (admits : names.Admits name meaning) :
    (names.declare name meaning).Reflects (declared ++ [(name, meaning)]) where
  tidy := reflects.tidy.declare admits
  order := by
    have known : names.lookup name = none ↔ name ∉ declared.map Prod.fst := by
      rw [← mem_eraseDups, ← reflects.order, reflects.tidy.listed]
      cases before : names.lookup name with
      | none => simp
      | some earlier => simp [admits.2 earlier before]
    rw [order_declare, reflects.order, map_append, eraseDups_append]
    congr 1
    by_cases isNew : names.lookup name = none
    · simp [isNew, List.removeAll, known.mp isNew, eraseDups_cons]
    · have isOld : name ∈ declared.map Prod.fst := not_not.mp (mt known.mpr isNew)
      simp [isNew, List.removeAll, isOld]
  lookup := fun other => by
    rw [lookup_declare, reverse_append, reverse_singleton, singleton_append,
      lookup_cons]
    by_cases isName : other = name
    · simp [isName]
    · have differs : (other == name) = false := by simpa using isName
      simp only [isName, if_false, differs]
      exact reflects.lookup other

/-- Each mark shows what was known there, and the later ones grew from it. -/
def Stacked : List (List (Text × Meaning) × Universe) → Universe → Prop
  | [], _ => True
  | point :: earlier, names =>
    Grows point.2 names ∧ point.2.Reflects point.1 ∧ Stacked earlier point.2

theorem Stacked.grows {marks} {names later : Universe} (stacked : Stacked marks names)
    (grown : Grows names later) : Stacked marks later := by
  cases marks with
  | nil => trivial
  | cons point earlier => exact ⟨stacked.1.trans grown, stacked.2⟩

theorem Stacked.at_mark {later point earlier} : ∀ {names : Universe},
      Stacked (later ++ point :: earlier) names →
        Grows point.2 names ∧ point.2.Reflects point.1 ∧ Stacked earlier point.2 := by
  induction later with
  | nil => exact id
  | cons first rest ih =>
    rintro names ⟨grown, _, stacked⟩
    obtain ⟨fromPoint, others⟩ := ih stacked
    exact ⟨fromPoint.trans grown, others⟩

theorem Course.reflects {declared marks} {names : Universe} (course : Course declared marks names) :
    names.Reflects declared ∧ Stacked marks names := by
  induction course with
  | fresh => exact ⟨⟨tidy_fresh, rfl, lookup_fresh⟩, trivial⟩
  | declare _ admits ih => exact ⟨ih.1.declare admits, ih.2.grows (Grows.refl.declare admits)⟩
  | mark _ ih => exact ⟨ih.1, .refl, ih⟩
  | rollback _ ih =>
    obtain ⟨grown, reflects, stacked⟩ := ih.2.at_mark
    rw [rollback_of_grows grown]
    exact ⟨reflects, .refl, reflects, stacked⟩

end Universe

namespace Analysis

variable {analysis : Analysis} {name : Text} {id : DeclId}

/-! ## Exports -/

/-- A declaration that is worth keeping. -/
def ValidGlobal (analysis : Analysis) (name : Text) (id : DeclId) : Prop :=
  ∃ meaning decl, analysis.names.lookup name = some meaning ∧ meaning.isBuiltin = false ∧
    meaning.decl = id ∧ analysis.decls.get? id = some decl ∧ decl.invalid = false

/-- Entries list the valid globals, each once and in the order of their numbers. -/
def ListsGlobals (analysis : Analysis) (listed : List ArchivedDecl) : Prop :=
  ∃ entries : List (DeclId × ArchivedDecl), listed = entries.map Prod.snd ∧
    entries.Pairwise (fun left right => left.1 < right.1) ∧
    (listed.map ArchivedDecl.name).Nodup ∧
    ∀ name id, analysis.ValidGlobal name id ↔ ∃ entry, (id, entry) ∈ entries ∧ entry.name = name

theorem exportName_known {meaning} (known : analysis.names.lookup name = some meaning)
    (declared : meaning.isBuiltin = false) :
    ∃ kind : Decl → Text, analysis.exportName name = (analysis.decls.get? meaning.decl).bind fun decl =>
      if decl.invalid then none
      else some (meaning.decl,
        { kind := kind decl, name, source := analysis.decls.render meaning.decl }) := by
  refine ⟨fun decl => if !meaning.isFunction then ArchivedDecl.variableKind
    else if decl.isPrototype then ArchivedDecl.prototypeKind
    else ArchivedDecl.functionKind, ?_⟩
  unfold exportName
  rw [known]
  cases meaning with
  | builtin => cases declared
  | «variable» | function =>
    dsimp only
    cases analysis.decls.get? _ <;> rfl

theorem validGlobal_of_exportName {entry}
    (isExported : analysis.exportName name = some (id, entry)) :
    analysis.ValidGlobal name id ∧ entry.name = name := by
  cases known : analysis.names.lookup name with
  | none =>
    unfold exportName at isExported
    rw [known] at isExported
    cases isExported
  | some meaning =>
    cases declared : meaning.isBuiltin with
    | true =>
      cases meaning with
      | builtin =>
        unfold exportName at isExported
        rw [known] at isExported
        cases isExported
      | «variable» | function => cases declared
    | false =>
      obtain ⟨kind, isEntry⟩ := exportName_known known declared
      rw [isEntry] at isExported
      obtain ⟨decl, found, valid⟩ := Option.bind_eq_some_iff.mp isExported
      split at valid
      · cases valid
      · rename_i isValid
        cases valid
        exact ⟨⟨meaning, decl, known, declared, rfl, found, Bool.eq_false_iff.mpr isValid⟩, rfl⟩

theorem ValidGlobal.exportName (valid : analysis.ValidGlobal name id) :
    ∃ entry, analysis.exportName name = some (id, entry) ∧ entry.name = name := by
  obtain ⟨meaning, decl, known, declared, rfl, found, isValid⟩ := valid
  obtain ⟨kind, isEntry⟩ := exportName_known known declared
  exact ⟨_, by rw [isEntry, found]; simp only [Option.bind_some, isValid]; rfl, rfl⟩

/-- A declaration is behind one name only. -/
theorem Named.name_unique {first second} (named : analysis.Named)
    (left : analysis.ValidGlobal first id) (right : analysis.ValidGlobal second id) :
    first = second := by
  have named_so : ∀ {name : Text}, analysis.ValidGlobal name id →
      ∃ decl, analysis.decls.get? id = some decl ∧ decl.name = name := by
    rintro name ⟨meaning, _, known, declared, rfl, _⟩
    have suits := named name meaning known
    cases meaning with
    | builtin => cases declared
    | «variable» =>
      obtain ⟨decl, _, found, isName, _⟩ := suits
      exact ⟨decl, found, isName⟩
    | function => exact suits.1
  obtain ⟨decl, found, rfl⟩ := named_so left
  obtain ⟨decl', found', rfl⟩ := named_so right
  rw [found] at found'
  cases found'
  rfl

theorem exported_lists (named : analysis.Named) (tidy : analysis.names.Tidy) :
    analysis.ListsGlobals analysis.exported := by
  let entries := analysis.names.order.filterMap analysis.exportName
  let sorted := entries.mergeSort fun left right => left.1 ≤ right.1
  have same : sorted.Perm entries := mergeSort_perm _ _
  have distinct : entries.Pairwise fun left right =>
      left.1 ≠ right.1 ∧ left.2.name ≠ right.2.name := by
    refine List.Pairwise.filterMap _ (fun first second differ => ?_) tidy.nodup
    rintro ⟨id, entry⟩ isEntry ⟨other, another⟩ isAnother
    obtain ⟨valid, rfl⟩ := validGlobal_of_exportName isEntry
    obtain ⟨valid', rfl⟩ := validGlobal_of_exportName isAnother
    refine ⟨?_, differ⟩
    rintro rfl
    exact differ (named.name_unique valid valid')
  have apart := (same.pairwise_iff fun differ => ⟨differ.1.symm, differ.2.symm⟩).mpr distinct
  have ordered : sorted.Pairwise fun left right => left.1 ≤ right.1 := by
    refine (@List.pairwise_mergeSort _ (fun left right => decide (left.1 ≤ right.1))
      ?_ ?_ entries).imp of_decide_eq_true
    · simpa using fun first second third left right => Nat.le_trans left right
    · simpa using fun first second => Nat.le_total first second
  refine ⟨sorted, rfl, ?_, ?_, fun name id => ?_⟩
  · exact (ordered.and apart).imp fun both =>
      Nat.lt_of_le_of_ne both.1 both.2.1
  · show (List.map _ (List.map _ sorted)).Nodup
    rw [map_map]
    exact pairwise_map.mpr (apart.imp fun differ => differ.2)
  · constructor
    · intro valid
      obtain ⟨entry, isExported, isName⟩ := valid.exportName
      obtain ⟨meaning, _, known, declared, _⟩ := valid
      exact ⟨entry, same.mem_iff.mpr (mem_filterMap.mpr
        ⟨name, (tidy.listed name).mpr ⟨meaning, known, declared⟩, isExported⟩), isName⟩
    · rintro ⟨entry, member, rfl⟩
      obtain ⟨name, _, isExported⟩ := mem_filterMap.mp (same.mem_iff.mp member)
      obtain ⟨valid, rfl⟩ := validGlobal_of_exportName isExported
      exact valid

end Analysis

namespace Session

theorem Reachable.tidy {session} (reachable : Reachable session) :
    session.analysis.Named ∧ session.analysis.names.Tidy := by
  let holds (session : Session) : Prop :=
    session.analysis.Named ∧ session.analysis.names.Tidy
  refine @Reachable.induct session holds (fun front back options tree => ?_)
    (fun session orderly held manner text => ?_) (fun session after alike held => ?_) reachable
  · have ready := (steady_fresh front back options tree).ready
    exact ⟨ready.named, ready.tidy⟩
  · refine orderly.take_induction held fun _ stands isOpen => ?_
    obtain ⟨after, _⟩ := stands.take isOpen manner text
    exact ⟨after.ready.named, after.ready.tidy⟩
  · refine ⟨held.1.extends alike.names ?_, ?_⟩
    · rw [alike.decls]
      exact .refl _
    · rw [alike.names]
      exact held.2

/-- However names were declared, marked and rolled back: rolling back to a mark gives back
the names known when it was taken, with their order; the order has the declared names once
each, by their first declaration in force; and what every program has stays known.  What a
session exports lists the valid globals once each, by increasing number. -/
theorem marks_restore_names {declared : List (Text × Meaning)}
    {marks : List (List (Text × Meaning) × Universe)} {names : Universe}
    (course : Universe.Course declared marks names) {session : Session}
    (reachable : Reachable session) :
    (∀ point ∈ marks, names.rollback point.2.mark = point.2) ∧
      names.order = (declared.map Prod.fst).eraseDups ∧ names.order.Nodup ∧
      (∀ name, name ∈ names.order ↔
        ∃ meaning, names.lookup name = some meaning ∧ meaning.isBuiltin = false) ∧
      (∀ name, names.lookup name =
        (declared.reverse.lookup name).or ((Builtin.ofText? name).map .builtin)) ∧
      (∀ which : Builtin, names.lookup which.name = some (.builtin which)) ∧
      session.analysis.names.Tidy ∧ session.analysis.ListsGlobals session.analysis.exported := by
  obtain ⟨reflects, stacked⟩ := course.reflects
  refine ⟨fun point member => ?_, reflects.order, reflects.tidy.nodup, reflects.tidy.listed,
    reflects.lookup, reflects.tidy.builtins, reachable.tidy.2,
    Analysis.exported_lists reachable.tidy.1 reachable.tidy.2⟩
  obtain ⟨later, earlier, rfl⟩ := List.append_of_mem member
  exact Universe.rollback_of_grows stacked.at_mark.1

/-- A function is announced, a mark taken, the function defined, another mark taken and a
variable declared. -/
theorem marks_restore_names_nested :
    let announced := ({} : Universe).declare [102] (.function 1)
    let defined := announced.declare [102] (.function 2)
    let names := defined.declare [120] (.variable 3)
    let session := (fresh {} {} { noBootstrap := true } (.empty [])).serve
      (.take (.compiled .asIs) "int f(); int x; int f() \x7b return x; \x7d")
    names.rollback defined.mark = defined ∧ names.rollback announced.mark = announced ∧
      names.order = [[102], [120]] ∧
      session.analysis.names.order = [[102], [120]] ∧
      session.analysis.ListsGlobals session.analysis.exported := by
  intro announced defined names session
  have course : Universe.Course [([102], .function 1), ([102], .function 2), ([120], .variable 3)]
      [([([102], .function 1), ([102], .function 2)], defined),
        ([([102], .function 1)], announced)] names := by
    refine ((((Universe.Course.fresh.declare ⟨rfl, ?_⟩).mark).declare ⟨rfl, ?_⟩).mark).declare
      ⟨rfl, ?_⟩
    · exact fun earlier known => nomatch known
    · exact fun earlier known => by cases known; rfl
    · exact fun earlier known => nomatch known
  obtain ⟨restores, isOrder, _, _, _, _, _, lists⟩ :=
    marks_restore_names course ((Reachable.opened (opens_bare [])).served _)
  exact ⟨restores _ List.mem_cons_self, restores _ (List.mem_cons_of_mem _ List.mem_cons_self),
    isOrder, by decide +kernel, lists⟩

end Session

end FragmentCompiler
