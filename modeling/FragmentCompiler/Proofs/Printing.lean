import FragmentCompiler.Proofs.Checking.Basic

/-!
# What a printed declaration depends on

Printing a declaration looks at its own entry and those of the variables it owns.  So the
texts worth keeping stay the same as long as the names and their declarations do.
-/

set_option autoImplicit false

namespace FragmentCompiler

open List

namespace Declarations

variable {decls decls' : Declarations}

theorem renderVariable_congr {id : DeclId} (same : decls'.get? id = decls.get? id) :
    decls'.renderVariable id = decls.renderVariable id := by
  unfold renderVariable
  rw [same]

theorem renderVariables_congr {ids} (depth : Nat)
    (same : ∀ id ∈ ids, decls'.get? id = decls.get? id) :
    decls'.renderVariables depth ids = decls.renderVariables depth ids := by
  unfold renderVariables
  rw [map_congr_left fun id member => by rw [renderVariable_congr (same id member)]]

mutual

theorem renderStmt_congr (depth : Nat) (stmt : Stmt)
    (same : ∀ id ∈ stmt.declared, decls'.get? id = decls.get? id) :
    decls'.renderStmt depth stmt = decls.renderStmt depth stmt := by
  cases stmt with
  | block span body => rw [renderStmt, renderStmt, renderBody_congr (depth + 1) body same]
  | declare span ids =>
    rw [renderStmt, renderStmt]
    exact renderVariables_congr depth same
  | branch span condition yes no =>
    rw [renderStmt, renderStmt,
      renderStmt_congr depth yes fun id member => same id (mem_append_left _ member),
      renderElse_congr depth no fun id member => same id (mem_append_right _ member)]
  | loop span condition body => rw [renderStmt, renderStmt, renderStmt_congr depth body same]
  | «return» span value => cases value <;> rw [renderStmt, renderStmt]
  | expression | echo | «break» | «continue» | empty => rw [renderStmt, renderStmt]

theorem renderBody_congr (depth : Nat) (body : List Stmt)
    (same : ∀ id ∈ Stmt.declaredAll body, decls'.get? id = decls.get? id) :
    decls'.renderBody depth body = decls.renderBody depth body := by
  cases body with
  | nil => rw [renderBody, renderBody]
  | cons first rest =>
    rw [renderBody, renderBody,
      renderStmt_congr depth first fun id member => same id (mem_append_left _ member),
      renderBody_congr depth rest fun id member => same id (mem_append_right _ member)]

theorem renderElse_congr (depth : Nat) (no : Option Stmt)
    (same : ∀ id ∈ Stmt.declaredOption no, decls'.get? id = decls.get? id) :
    decls'.renderElse depth no = decls.renderElse depth no := by
  cases no with
  | none => rw [renderElse, renderElse]
  | some no => rw [renderElse, renderElse, renderStmt_congr depth no same]

end

theorem render_congr {id : DeclId}
    (same : decls.Intact decls' id) :
    decls'.render id = decls.render id := by
  unfold render
  rw [same id (.inl rfl)]
  cases found : decls.get? id with
  | none => rfl
  | some decl =>
    dsimp only
    cases isFunction : decl.asFunction with
    | none => rw [renderVariable_congr (same id (.inl rfl))]
    | some data =>
      have isOwned : decls.owned id = data.owned := by
        unfold owned asFunction
        rw [found]
        simp [isFunction]
      have mine : ∀ other ∈ data.owned, decls'.get? other = decls.get? other :=
        fun other member => same other (.inr (isOwned ▸ member))
      have parameters : data.parameters.map decls'.renderParameter =
          data.parameters.map decls.renderParameter := by
        refine map_congr_left fun other member => ?_
        unfold renderParameter
        rw [mine other (mem_append_left _ member)]
      dsimp only
      rw [parameters]
      cases isBody : data.body with
      | none => rfl
      | some body =>
        dsimp only
        rw [renderStmt_congr 0 body fun other member => mine other ?_]
        unfold Function.owned
        rw [isBody]
        exact mem_append_right _ member

end Declarations

namespace Analysis

theorem exported_congr {before after : Analysis} (named : before.Named)
    (grounded : before.decls.Grounded) (names : after.names = before.names)
    (kept : ∀ id, id ≤ before.decls.count → after.decls.get? id = before.decls.get? id) :
    after.exported = before.exported := by
  have same : after.exportName = before.exportName := by
    funext name
    unfold exportName
    rw [names]
    cases known : before.names.lookup name with
    | none => rfl
    | some meaning =>
      have low := named.le_count known
      have family : ∀ other, before.decls.Family meaning.decl other →
          after.decls.get? other = before.decls.get? other := by
        intro other isFamily
        refine kept other (Nat.le_trans ?_ low)
        rcases isFamily with isId | isOwned
        · exact Nat.le_of_eq isId
        · exact Nat.le_of_lt (grounded.owned_below meaning.decl other isOwned)
      have entry := kept meaning.decl low
      have text := Declarations.render_congr family
      cases meaning with
      | builtin which => rfl
      | «variable» id => simp only [entry, text]
      | function id => simp only [entry, text]
  unfold exported
  rw [same, names]

end Analysis

end FragmentCompiler
