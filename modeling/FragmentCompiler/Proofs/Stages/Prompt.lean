import FragmentCompiler.Proofs.Stages.Batch

/-!
# Wrappers typed at a prompt

The variables of a wrapper become global as far as their names are free, and values of
expressions without a semicolon are shown.  What becomes global is accepted as a
declaration of its own; what stays in the wrapper keeps its number.
-/

set_option autoImplicit false

namespace FragmentCompiler

open List Stmt Declarations

theorem Declarations.IsStarted.congr {before after : Declarations} {id : DeclId}
    (same : after.get? id = before.get? id) (started : before.IsStarted id) :
    after.IsStarted id := by
  obtain ⟨decl, data, found, rest⟩ := started
  exact ⟨decl, data, same.trans found, rest⟩

theorem Declarations.IsStarted.le_count {decls : Declarations} {id : DeclId}
    (started : decls.IsStarted id) : id ≤ decls.count := by
  obtain ⟨_, _, found, _⟩ := started
  exact le_count_of_get? found

/-! ## Shown values -/

namespace Declarations

open Stmt

theorem declaredAll_map_echoUnterminated (statements : List Stmt) :
    declaredAll (statements.map echoUnterminated) = declaredAll statements := by
  induction statements with
  | nil => rfl
  | cons first rest ih =>
    have same : (echoUnterminated first).declared = first.declared := by
      unfold echoUnterminated
      split <;> rfl
    rw [map_cons, declaredAll, declaredAll, same, ih]

theorem mentionsAll_map_echoUnterminated (statements : List Stmt) :
    mentionsAll (statements.map echoUnterminated) = mentionsAll statements := by
  induction statements with
  | nil => rfl
  | cons first rest ih =>
    have same : (echoUnterminated first).mentions = first.mentions := by
      unfold echoUnterminated
      split
      · simp [mentions]
      · rfl
    rw [map_cons, mentionsAll, mentionsAll, same, ih]

theorem get?_echoIn (decls : Declarations) (id : DeclId) :
    (decls.echoIn id).get? id = decls.get? id ∨
      ∃ decl data span body, decls.get? id = some decl ∧ decl.body = .wrapper data ∧
        data.body = some (.block span body) ∧
        (decls.echoIn id).get? id = some
          { decl with
            body := .wrapper
              { data with body := some (.block span (body.map echoUnterminated)) } } := by
  unfold echoIn
  rw [get?_modify_self]
  cases found : decls.get? id with
  | none => exact .inl rfl
  | some decl =>
    rw [Option.map_some]
    rcases isWrapper : decl.body with data | data | data
    · exact .inl rfl
    · exact .inl rfl
    · cases isBody : data.body with
      | none => exact .inl (by simp only [isBody])
      | some statement =>
        cases statement with
        | block span body =>
          exact .inr ⟨decl, data, span, body, rfl, isWrapper, isBody, by simp only [isBody]⟩
        | _ => exact .inl (by simp only [isBody])

theorem owned_echoIn (decls : Declarations) (id other : DeclId) :
    (decls.echoIn id).owned other = decls.owned other := by
  by_cases isId : other = id
  · subst isId
    rcases decls.get?_echoIn other with same |
      ⟨decl, data, span, body, found, isWrapper, isBody, found'⟩
    · exact owned_congr same
    · rw [owned_of_get? found', owned_of_get? found, isWrapper]
      simp [DeclBody.owned, Function.owned, isBody, declared, declaredAll_map_echoUnterminated]
  · exact owned_congr (get?_modify_of_ne decls _ isId)

theorem echoIn_reworks (decls : Declarations) (id : DeclId) :
    decls.Reworks (decls.Family id) (decls.echoIn id) where
  count := count_modify _ _ _
  kept := fun _ strange => get?_modify_of_ne decls _ fun isId => strange (.inl isId)
  learns := by
    intro other decl found
    by_cases isId : other = id
    · subst isId
      rcases decls.get?_echoIn other with
        same | ⟨decl', data, span, body, found', isWrapper, isBody, isEcho⟩
      · exact ⟨decl, same.trans found, .refl decl⟩
      · cases found.symm.trans found'
        refine ⟨_, isEcho, rfl, ?_, fun known => known⟩
        rw [isWrapper]
        exact ⟨rfl, rfl, by rw [isBody]; rfl⟩
    · exact ⟨decl, (get?_modify_of_ne decls _ isId).trans found, .refl decl⟩
  grounded := fun grounded => grounded.congr (decls.owned_echoIn id)

theorem echoIn_adjusts : Adjusts echoIn := ⟨echoIn_reworks, owned_echoIn⟩

theorem Settled.echoIn {decls : Declarations} {id : DeclId} (settled : decls.Settled id)
    (grounded : decls.Grounded) : (decls.echoIn id).Settled id := by
  have grown := (decls.echoIn_reworks id).learns
  have mine : ∀ other ∈ decls.owned id, (decls.echoIn id).get? other = decls.get? other :=
    fun other member => get?_modify_of_ne _ _ (Nat.ne_of_lt (grounded.owned_below id other member))
  rcases decls.get?_echoIn id with same | ⟨decl, data, span, body, found, isWrapper, isBody, isEcho⟩
  · refine settled.extends grown fun other family => ?_
    rcases family with isId | isOwned
    · rw [isId, same]
    · exact mine other isOwned
  · intro decl' found' other member
    cases isEcho.symm.trans found'
    have isOwned : decls.owned id = data.owned := by
      rw [owned_of_get? found, isWrapper]
      rfl
    have starts : (decls.echoIn id).startMentions (declaredAll body) =
        decls.startMentions (declaredAll body) :=
      startMentions_congr fun id inBody => mine id (isOwned ▸ mem_owned_of_declared isBody inBody)
    have isMentioned : other ∈ decl.body.mentions decls := by
      rw [isWrapper]
      simp only [DeclBody.mentions, Function.mentions, isBody, Option.map_some, Option.getD_some,
        mentions, declared, mentionsAll_map_echoUnterminated,
        declaredAll_map_echoUnterminated] at member ⊢
      rwa [starts] at member
    refine (settled decl found other isMentioned).imp (fun inOwned => ?_) fun isGlobal =>
      isGlobal.extends grown
    rw [isWrapper] at inOwned
    simpa [DeclBody.owned, Function.owned, isBody, declared, declaredAll_map_echoUnterminated]
      using inOwned

end Declarations

namespace Analysis

variable {analysis known : Analysis} {decl : Decl} {base id : DeclId}
  {deferrals flaws lookups prompts : Prop} {data : Variable}

/-! ## One variable -/

/-- What promoting variables comes to. -/
structure Extracted (before : Analysis) (promoted : List DeclId) (after : Analysis) : Prop where
  evolves : before.EvolvesBy (· ∈ promoted) [] [] after
  owned : ∀ other, after.decls.owned other = before.decls.owned other
  alone : ∀ id ∈ promoted, before.decls.owned id = []
  accepted : ∀ (deferrals lookups : Prop) (base : Nat), ∀ id ∈ promoted, base < id →
    after.Accepted deferrals lookups base id
  globals : ∀ id ∈ promoted, after.decls.IsGlobal id

def globalized (decl : Decl) (data : Variable) : Decl :=
  { decl with
    body := .variable
      { data with storage := .global, slot := 0, hoisted := data.initial, initial := none }
    promoted := true }

open Declarations

theorem globalized_evolves (ready : analysis.Ready) (found : analysis.decls.get? id = some decl)
    (body : decl.body = .variable data) (isLocal : data.storage = .local) :
    analysis.EvolvesBy (· = id) [] []
      (analysis.updateDecls fun decls => decls.modify id fun decl => globalized decl data) := by
  refine updateDecls_evolves ready (count_modify _ _ _)
    (fun other strange => get?_modify_of_ne _ _ strange) ?_ ?_
  · refine extends_modify _ _ _ fun known isKnown => ?_
    rw [found] at isKnown
    cases isKnown
    refine ⟨rfl, ?_, fun known => known⟩
    rw [body]
    exact ⟨rfl, fun isGlobal => nomatch isLocal.symm.trans isGlobal⟩
  · exact ready.grounded.modify fun _ _ other member => absurd member not_mem_nil

theorem promote_of_free
    (found : analysis.decls.get? id = some decl) (body : decl.body = .variable data)
    (isLocal : data.storage = .local) (free : analysis.names.lookup decl.name = none) :
    analysis.promote id = (true,
      { analysis.updateDecls fun decls => decls.modify id fun decl => globalized decl data with
        names := analysis.names.declare decl.name (.variable id) }) := by
  unfold promote
  simp only [found, body, isLocal, free]
  rfl

theorem globalized_extracted (ready : analysis.Ready) (found : analysis.decls.get? id = some decl)
    (valid : decl.invalid = false) (body : decl.body = .variable data)
    (isLocal : data.storage = .local) (isValue : data.type.IsValue)
    (free : analysis.names.lookup decl.name = none) :
    analysis.Extracted [id]
      { analysis.updateDecls fun decls => decls.modify id fun decl => globalized decl data with
        names := analysis.names.declare decl.name (.variable id) } := by
  have changed := (globalized_evolves ready found body isLocal).mono fun other isId =>
    mem_singleton.mpr isId
  have found' : (analysis.decls.modify id fun decl => globalized decl data).get? id =
      some (globalized decl data) := by
    rw [get?_modify_self, found]
    rfl
  have owned : ∀ other, (analysis.decls.modify id fun decl => globalized decl data).owned other =
      analysis.decls.owned other := by
    intro other
    by_cases isId : other = id
    · rw [isId, owned_of_get? found', owned_of_get? found, body]
      rfl
    · exact owned_congr (get?_modify_of_ne _ _ isId)
  have alone : analysis.decls.owned id = [] := by
    rw [owned_of_get? found, body]
    rfl
  have bounded := le_count_of_get? found
  refine ⟨changed.trans (declare_evolves changed.ready (mem_singleton.mpr rfl) ?_ ?_ ?_) ?_,
    owned, ?_, ?_, ?_⟩
  · exact ⟨_, _, found', rfl, rfl, rfl, isValue⟩
  · intro earlier known
    exact nomatch free.symm.trans known
  · intro result types ⟨other, known, _⟩
    exact nomatch free.symm.trans known
  · exact forall_mem_singleton.mpr bounded
  · exact forall_mem_singleton.mpr alone
  · intro deferrals lookups base other member above
    cases mem_singleton.mp member
    have isOwned := (owned id).trans alone
    refine ⟨⟨_, found', valid, .variable rfl isValue (by simp)⟩, ?_, ?_, ?_, ?_⟩
    · exact isOwned ▸ List.Pairwise.nil
    · exact isOwned ▸ fun other member => absurd member not_mem_nil
    · exact fun other family => family.alone isOwned ▸ above
    · intro known isKnown
      cases found'.symm.trans isKnown
      exact Universe.lookup_declare_self _ _ _
  · intro other member
    cases mem_singleton.mp member
    exact ⟨_, asVariable_of_get? found' rfl, rfl⟩

theorem promote_cases (ready : analysis.Ready) (started : analysis.decls.IsStarted id) :
    (analysis.promote id).1 = false ∧ (analysis.promote id).2 = analysis ∨
      (analysis.promote id).1 = true ∧ analysis.Extracted [id] (analysis.promote id).2 := by
  obtain ⟨decl, data, found, valid, body, isLocal, isValue⟩ := started
  by_cases free : analysis.names.lookup decl.name = none
  · right
    rw [promote_of_free found body isLocal free]
    exact ⟨rfl, globalized_extracted ready found valid body isLocal isValue free⟩
  · left
    unfold promote
    simp [found, body, free]

/-! ## The variables of a wrapper -/

theorem Extracted.nil (ready : analysis.Ready) : analysis.Extracted [] analysis :=
  ⟨.refl ready _, fun _ => rfl, by simp, by simp, by simp⟩

theorem Extracted.append {left right} {first second third : Analysis}
    (before : first.Extracted left second)
    (after : second.Extracted right third) (distinct : (left ++ right).Nodup)
    (known : ∀ id ∈ left ++ right, id ≤ first.decls.count) :
    first.Extracted (left ++ right) third where
  evolves := (before.evolves.mono fun _ member => mem_append_left _ member).trans
    (after.evolves.mono fun _ member => mem_append_right _ member) known
  owned := fun other => (after.owned other).trans (before.owned other)
  alone := by
    exact forall_mem_append.mpr ⟨before.alone, fun id inRight =>
      (before.owned id).symm.trans (after.alone id inRight)⟩
  accepted := by
    intro deferrals lookups base id member above
    rcases mem_append.mp member with inLeft | inRight
    · have accepted := before.accepted deferrals lookups base id inLeft above
      refine accepted.extends after.evolves.learns (Nat.le_refl _) fun other family => ?_
      refine after.evolves.kept other (accepted.le_count other family) fun inRight => ?_
      cases family.alone ((before.owned id).trans (before.alone id inLeft))
      exact (nodup_append.mp distinct).2.2 id inLeft id inRight rfl
    · exact after.accepted deferrals lookups base id inRight above
  globals := by
    exact forall_mem_append.mpr ⟨fun id inLeft =>
      (before.globals id inLeft).extends after.evolves.learns.decls, after.globals⟩

theorem Extracted.startMentions {promoted ids} {later : Analysis}
    (extracted : known.Extracted promoted later)
    (started : ∀ id ∈ ids, known.decls.IsStarted id) (apart : ∀ id ∈ ids, id ∉ promoted) :
    (∀ id ∈ ids, later.decls.IsStarted id) ∧
      later.decls.startMentions ids = known.decls.startMentions ids := by
  have same : ∀ id ∈ ids, later.decls.get? id = known.decls.get? id := fun id member =>
    extracted.evolves.kept id (started id member).le_count (apart id member)
  exact ⟨fun id member => (started id member).congr (same id member), startMentions_congr same⟩

theorem promoteAll_extracted (ids : List DeclId) :
    ∀ {analysis : Analysis}, analysis.Ready → ids.Nodup →
      (∀ id ∈ ids, analysis.decls.IsStarted id) →
      let (run, after) := analysis.promoteAll ids
      analysis.Extracted run.promoted after ∧ (run.promoted ++ run.kept).Perm ids ∧
        declaredAll run.assignments = [] ∧
        ∀ other ∈ mentionsAll run.assignments,
          other ∈ run.promoted ∨ other ∈ analysis.decls.startMentions ids := by
  induction ids with
  | nil => exact fun ready _ _ => ⟨.nil ready, .refl _, rfl, forall_mem_nil _⟩
  | cons id rest ih =>
    intro analysis ready distinct started
    obtain ⟨notInRest, distinctRest⟩ := nodup_cons.mp distinct
    have startedRest : ∀ other ∈ rest, analysis.decls.IsStarted other :=
      fun other member => started other (mem_cons_of_mem _ member)
    rw [promoteAll]
    rcases promote_cases ready (started id mem_cons_self) with
      ⟨isKept, same⟩ | ⟨isDone, first⟩
    · obtain ⟨extracted, perm, declares, mentioned⟩ := ih ready distinctRest startedRest
      simp only [isKept, same, Bool.false_eq_true, if_false]
      exact ⟨extracted, perm_middle.trans (perm.cons id), declares, fun other member =>
        (mentioned other member).imp_right (mem_append_right _)⟩
    · obtain ⟨startedAfter, sameMentions⟩ := first.startMentions startedRest fun other member isId =>
        notInRest (mem_singleton.mp isId ▸ member)
      obtain ⟨extracted, perm, declares, mentioned⟩ := ih first.evolves.ready distinctRest startedAfter
      rw [sameMentions] at mentioned
      obtain ⟨decl, data, found, _, body, _⟩ := started id mem_cons_self
      have isData := asVariable_of_get? found body
      have isVariable : decl.asVariable = some data := by simp [Decl.asVariable, body]
      have perm' := perm.cons id
      simp only [isDone, if_true, found, isVariable, declaredAll_append, mentionsAll_append, declares,
        append_nil, mem_append]
      refine ⟨.append first extracted ?_ ?_, perm', ?_, ?_⟩
      · exact (sublist_append_left _ _).nodup (perm'.nodup_iff.mpr distinct)
      · intro other member
        exact (started other (perm'.mem_iff.mp (mem_append_left _ member))).le_count
      · split <;> rfl
      · rintro other (mine | inRest)
        · rw [mem_startMentions]
          split at mine
          · rename_i value _ _ _ isSome
            have isInitial : data.initial = some value := by rw [Option.some.inj isSome]
            simp only [assignmentOf, mentionsAll, mentions, Expr.mentions,
              append_nil, singleton_append, mem_cons] at mine
            rcases mine with isId | inValue
            · exact .inl (isId ▸ mem_cons_self)
            · exact .inr ⟨id, mem_cons_self, data, isData,
                Variable.mentions_of_initial isInitial ▸ inValue⟩
          · exact absurd mine not_mem_nil
        · exact (mentioned other inRest).imp (mem_cons_of_mem _) (mem_append_right _)

theorem extractStatements_extracted (statements : List Stmt) :
    ∀ {analysis : Analysis}, analysis.Ready → (declaredAll statements).Nodup →
      (∀ id ∈ declaredAll statements, analysis.decls.IsStarted id) →
      let ((promoted, statements'), after) := analysis.extractStatements statements
      analysis.Extracted promoted after ∧
        (promoted ++ declaredAll statements').Perm (declaredAll statements) ∧
        ∀ other ∈ mentionsAll statements', other ∈ promoted ∨
          other ∈ mentionsAll statements ++ analysis.decls.startMentions (declaredAll statements) := by
  induction statements with
  | nil => exact fun ready _ _ => ⟨.nil ready, .refl _, forall_mem_nil _⟩
  | cons first rest ih =>
    intro analysis ready distinct started
    have startedRest : ∀ id ∈ declaredAll rest, analysis.decls.IsStarted id :=
      fun id member => started id (mem_append_right _ member)
    obtain ⟨distinctFirst, distinctRest, apart⟩ := nodup_append.mp distinct
    have whole : ∀ other, other ∈ mentionsAll (first :: rest) ++
          analysis.decls.startMentions (declaredAll (first :: rest)) ↔
        (other ∈ first.mentions ∨ other ∈ analysis.decls.startMentions first.declared) ∨
          other ∈ mentionsAll rest ++ analysis.decls.startMentions (declaredAll rest) := by
      intro other
      simp only [mentionsAll, declaredAll, startMentions, flatMap_append, mem_append]
      tauto
    simp only [whole]
    cases first with
    | declare span ids =>
      obtain ⟨extracted, perm, declares, mentioned⟩ := promoteAll_extracted ids ready distinctFirst
        fun id member => started id (mem_append_left _ member)
      obtain ⟨startedAfter, sameMentions⟩ := extracted.startMentions startedRest
        fun id member promoted => apart id (perm.mem_iff.mp (mem_append_left _ promoted)) id member rfl
      obtain ⟨extractedRest, permRest, mentionedRest⟩ :=
        ih extracted.evolves.ready distinctRest startedAfter
      have keeps : ∀ kept : List DeclId,
          declaredAll (if kept.isEmpty then [] else [declare span kept]) = kept ∧
            mentionsAll (if kept.isEmpty then [] else [declare span kept]) = [] := by
        intro kept
        cases kept <;> simp [declaredAll, declared, mentionsAll, mentions]
      rw [extractStatements]
      simp only [declaredAll_append, mentionsAll_append, declares, keeps, nil_append, append_nil,
        mem_append]
      have whole := perm.append permRest
      rw [append_assoc] at whole
      have shuffled := (perm_append_comm_assoc (analysis.promoteAll ids).1.kept _ _).append_left
        (analysis.promoteAll ids).1.promoted |>.symm.trans whole
      rw [← append_assoc] at shuffled
      refine ⟨extracted.append extractedRest ?_ ?_, shuffled, ?_⟩
      · exact (sublist_append_left _ _).nodup (shuffled.nodup_iff.mpr distinct)
      · intro id member
        exact (started id (shuffled.mem_iff.mp (mem_append_left _ member))).le_count
      · rintro other (inFirst | inRest)
        · exact (mentioned other inFirst).imp .inl fun starts => .inl (.inr starts)
        · exact (mentionedRest other inRest).imp .inr
            fun inOld => .inr (sameMentions ▸ mem_append.mp inOld)
    | _ =>
      obtain ⟨extracted, perm, mentioned⟩ := ih ready distinctRest startedRest
      refine ⟨extracted, (perm_append_comm_assoc _ _ _).trans (perm.append_left _), ?_⟩
      intro other member
      rcases mem_append.mp member with inFirst | inRest
      · exact .inr (.inl (.inl inFirst))
      · exact (mentioned other inRest).imp_right .inr

/-! ## One wrapper -/

/-- What promoting the variables of a declaration comes to. -/
structure Unwrapped (before : Analysis) (flaws deferrals lookups : Prop) (base id : DeclId)
    (promoted : List DeclId) (after : Analysis) : Prop where
  evolves : before.EvolvesBy (fun other => other = id ∨ other ∈ promoted) [] [] after
  fits : after.Fits flaws True deferrals lookups base id
  accepted : ∀ other ∈ promoted, after.Accepted deferrals lookups base other
  owned : ∀ other, other ≠ id → after.decls.owned other = before.decls.owned other
  alone : ∀ other ∈ promoted, before.decls.owned other = []
  distinct : promoted.Nodup
  taken : ∀ other ∈ promoted, other ∈ before.decls.owned id ∧ other ≠ id
  left : ∀ other ∈ after.decls.owned id, other ∈ before.decls.owned id ∧ other ∉ promoted

theorem Fits.prompt (fits : known.Fits flaws prompts deferrals lookups base id) :
    known.Fits flaws True deferrals lookups base id :=
  fits.imp_right (Or.imp_right fun isPrompt => ⟨trivial, isPrompt.2⟩)

theorem Unwrapped.same (ready : analysis.Ready)
    (fits : analysis.Fits flaws False deferrals lookups base id) :
    analysis.Unwrapped flaws deferrals lookups base id [] analysis :=
  ⟨.refl ready _, fits.prompt, by simp, fun _ _ => rfl, by simp, .nil, by simp, by simp⟩

theorem Extracted.unwrapped {promoted body} {before middle : Analysis}
    (extracted : before.Extracted promoted middle)
    (accepted : before.Accepted deferrals lookups base id) {data : Function}
    (found : before.decls.get? id = some decl) (isWrapper : decl.body = .wrapper data)
    (isBody : data.body = some body) (alone : data.parameters = []) {body' : Stmt}
    (perm : (promoted ++ body'.declared).Perm body.declared) (valid : decl.invalid = false)
    (mentioned : ∀ other ∈ body'.mentions, other ∈ promoted ∨
      other ∈ body.mentions ++ before.decls.startMentions body.declared) :
    before.Unwrapped flaws deferrals lookups base id promoted
      (middle.updateDecls fun decls =>
        decls.modifyFunction id fun data => { data with body := some body' }) := by
  have isOwned : before.decls.owned id = body.declared := by
    rw [owned_of_get? found, isWrapper]
    simp [DeclBody.owned, Function.owned, isBody, alone]
  have inOwned : ∀ other, other ∈ promoted → other ∈ before.decls.owned id := by
    intro other member
    rw [isOwned]
    exact perm.mem_iff.mp (mem_append_left _ member)
  have notPromoted : id ∉ promoted := fun member =>
    Nat.lt_irrefl id (accepted.below id (inOwned id member))
  have distinct : (promoted ++ body'.declared).Nodup :=
    perm.nodup_iff.mpr ((isOwned ▸ accepted.ordered).imp fun less => Nat.ne_of_lt less)
  have foundMiddle : middle.decls.get? id = some decl :=
    (extracted.evolves.kept id (le_count_of_get? found) notPromoted).trans found
  have isData : middle.decls.asFunction id = some data := by
    unfold asFunction
    rw [foundMiddle]
    simp [Decl.asFunction, isWrapper]
  generalize isAfter : middle.updateDecls (fun decls =>
    decls.modifyFunction id fun data => { data with body := some body' }) = after
  have decls : after.decls =
      middle.decls.modifyFunction id fun data => { data with body := some body' } := isAfter ▸ rfl
  have others : ∀ other, other ≠ id → after.decls.get? other = middle.decls.get? other := by
    intro other different
    rw [decls]
    exact get?_modifyFunction_of_ne _ _ different
  have changed : middle.EvolvesBy (fun other => other = id ∨ other ∈ promoted) [] [] after := by
    rw [← isAfter]
    refine updateDecls_evolves extracted.evolves.ready (count_modifyFunction _ _ _)
      (fun other strange => get?_modifyFunction_of_ne _ _ fun isId =>
        strange (.inl isId)) ?_ ?_
    · refine extends_modifyFunction _ _ _ fun known isKnown => ?_
      cases isData.symm.trans isKnown
      exact ⟨rfl, rfl, by simp [isBody]⟩
    · refine extracted.evolves.ready.grounded.modifyFunction fun known isKnown other member => ?_
      cases isData.symm.trans isKnown
      refine accepted.below other ?_
      rw [isOwned]
      refine perm.mem_iff.mp (mem_append_right _ ?_)
      simpa [Function.owned, alone] using member
  have found' : after.decls.get? id =
      some { decl with body := .wrapper { data with body := some body' } } :=
    decls ▸ modifyFunction_get?_wrapper _ _ _ foundMiddle isWrapper
  have bounded : ∀ other, other = id ∨ other ∈ promoted → other ≤ before.decls.count := by
    intro other isOwn
    rcases isOwn with isId | member
    · exact accepted.le_count other (.inl isId)
    · exact accepted.le_count other (.inr (inOwned other member))
  have stays : ∀ other ∈ body'.declared, other ∈ body.declared ∧ other ∉ promoted := by
    intro other member
    exact ⟨perm.mem_iff.mp (mem_append_right _ member),
      fun isPromoted => (nodup_append.mp distinct).2.2 other isPromoted other member rfl⟩
  have kept : ∀ other ∈ body'.declared, after.decls.get? other = before.decls.get? other := by
    intro other member
    obtain ⟨inBody, notPromoted⟩ := stays other member
    rw [← isOwned] at inBody
    exact (others other (Nat.ne_of_lt (accepted.below other inBody))).trans
      (extracted.evolves.kept other (accepted.le_count other (.inr inBody)) notPromoted)
  have settled : after.decls.Settled id := by
    intro decl' isDecl' other member
    cases found'.symm.trans isDecl'
    have isMentioned : other ∈ promoted ∨
        other ∈ body.mentions ++ before.decls.startMentions body.declared := by
      have split : other ∈ body'.mentions ++ after.decls.startMentions body'.declared := by
        simpa [DeclBody.mentions, Function.mentions] using member
      rw [startMentions_congr kept] at split
      rcases mem_append.mp split with inBody | inStarts
      · exact mentioned other inBody
      · obtain ⟨id', member', rest⟩ := mem_startMentions.mp inStarts
        exact .inr (mem_append_right _ (mem_startMentions.mpr ⟨id', (stays id' member').1, rest⟩))
    have isGlobal : ∀ {other : DeclId}, other ∈ promoted → after.decls.IsGlobal other :=
      fun isPromoted => (extracted.globals _ isPromoted).extends changed.learns.decls
    rcases isMentioned with isPromoted | isOld
    · exact .inr (isGlobal isPromoted)
    · have inDecl : other ∈ decl.body.mentions before.decls := by
        rw [isWrapper]
        simpa [DeclBody.mentions, Function.mentions, isBody] using isOld
      rcases accepted.settled decl found other inDecl with inOwned | global
      · rw [← owned_of_get? found, isOwned] at inOwned
        rcases mem_append.mp (perm.mem_iff.mpr inOwned) with isPromoted | stays
        · exact .inr (isGlobal isPromoted)
        · exact .inl (mem_append_right _ stays)
      · exact .inr (global.extends (extracted.evolves.learns.decls.trans changed.learns.decls))
  refine ⟨(extracted.evolves.mono fun other member => .inr member).trans changed bounded,
    .inr (.inr ⟨trivial, settled, _, _, found', valid, rfl, rfl⟩), fun other member => ?_,
    fun other different => (owned_congr (others other different)).trans (extracted.owned other),
    extracted.alone, (nodup_append.mp distinct).1, fun other member => ⟨inOwned other member,
      fun isId => notPromoted (isId ▸ member)⟩, fun other member => ?_⟩
  · have isAccepted := extracted.accepted deferrals lookups base other member
      (accepted.above other (.inr (inOwned other member)))
    refine isAccepted.extends changed.learns (Nat.le_refl _) fun number family => ?_
    cases family.alone ((extracted.owned other).trans (extracted.alone other member))
    exact others other fun isId => notPromoted (isId ▸ member)
  · have isOwned' : after.decls.owned id = body'.declared := by
      rw [owned_of_get? found']
      simp [DeclBody.owned, Function.owned, alone]
    rw [isOwned]
    exact stays other (isOwned' ▸ member)

theorem Accepted.wrapper_declared {body} (accepted : known.Accepted deferrals lookups base id)
    {data : Function} {span : Span} (found : known.decls.get? id = some decl)
    (isWrapper : decl.body = .wrapper data) (isBody : data.body = some (.block span body)) :
    data.parameters = [] ∧ (declaredAll body).Nodup ∧
      ∀ other ∈ declaredAll body, known.decls.IsStarted other := by
  obtain ⟨decl', found', _, sound⟩ := accepted.valid
  cases found.symm.trans found'
  rw [isWrapper] at sound
  cases sound with
  | wrapper sound _ alone _ =>
    obtain ⟨_, _, _, isBlock, inside, _⟩ := sound.body _ isBody
    cases isBlock
    refine ⟨alone, ?_, inside.declared_isStarted⟩
    have ordered := accepted.ordered
    rw [owned_of_get? found, isWrapper, DeclBody.owned, Function.owned, isBody] at ordered
    exact (pairwise_append.mp ordered).2.1.imp fun less => Nat.ne_of_lt less

theorem extract_unwrapped (ready : analysis.Ready)
    (fits : analysis.Fits flaws False deferrals lookups base id) :
    analysis.Unwrapped flaws deferrals lookups base id (analysis.extract id).1
      (analysis.extract id).2 := by
  unfold extract
  split
  · rename_i blockSpan body _ _ _ found
    have accepted : analysis.Accepted deferrals lookups base id := by
      rcases fits with accepted | ⟨_, decl, found', marked⟩ | ⟨never, _⟩
      · exact accepted
      · cases found.symm.trans found'
        cases marked
      · exact never.elim
    obtain ⟨alone, distinct, started⟩ := accepted.wrapper_declared found rfl rfl
    obtain ⟨extracted, perm, mentioned⟩ := extractStatements_extracted body ready distinct started
    generalize analysis.extractStatements body = run at extracted perm mentioned
    obtain ⟨⟨promoted, statements⟩, middle⟩ := run
    dsimp only at extracted perm mentioned ⊢
    split
    · rename_i isEmpty
      cases List.isEmpty_iff.mp isEmpty
      have sameEntries : analysis.decls.Intact middle.decls id := fun other family =>
        extracted.evolves.kept other (accepted.le_count other family) not_mem_nil
      refine ⟨extracted.evolves.mono fun other member => .inr member,
        (fits.extends extracted.evolves.learns sameEntries).prompt, by simp,
        fun other _ => extracted.owned other, by simp, .nil, by simp, fun other member => ?_⟩
      exact ⟨extracted.owned id ▸ member, not_mem_nil⟩
    · exact extracted.unwrapped accepted found rfl rfl alone perm rfl mentioned
  · exact .same ready fits

/-! ## Groups -/

section Unwrapped

variable {before middle after : Analysis} {flaws deferrals lookups : Prop} {base id : DeclId}
  {promoted rest rest' : List DeclId}

section

variable (first : before.Unwrapped flaws deferrals lookups base id promoted middle)

include first

theorem Unwrapped.family {root other} (isRoot : root ∈ promoted ∨ root = id)
    (family : middle.decls.Family root other) : before.decls.Family id other := by
  rcases isRoot with member | isId
  · rw [family.alone ((first.owned root (first.taken root member).2).trans (first.alone root member))]
    exact .inr (first.taken root member).1
  · rw [isId] at family
    exact family.imp_right fun isOwned => (first.left other isOwned).1

theorem Unwrapped.strange {root other}
    (batch : before.Batch flaws False deferrals lookups base (id :: rest))
    (member : root ∈ rest) (family : before.decls.Family root other) :
    middle.decls.get? other = before.decls.get? other := by
  refine first.evolves.kept other (batch.tail.within root member other family).2 fun isOwn => ?_
  have apart := (pairwise_cons.mp batch.apart).1 root member other
  rcases isOwn with isId | isPromoted
  · exact apart (.inl isId) family
  · exact apart (.inr (first.taken other isPromoted).1) family

theorem Unwrapped.others (batch : before.Batch flaws False deferrals lookups base (id :: rest)) :
    middle.Batch flaws False deferrals lookups base rest := by
  have owned : ∀ root ∈ rest, middle.decls.owned root = before.decls.owned root :=
    fun root member => owned_congr (first.strange batch member (.inl rfl))
  refine ⟨fun root member => (batch.tail.each root member).extends first.evolves.learns
    fun other family => first.strange batch member family, fun root member other family => ?_,
    batch.tail.apart.congr owned⟩
  obtain ⟨above, below⟩ :=
    batch.tail.within root member other (family.of_owned (owned root member))
  exact ⟨above, Nat.le_trans below first.evolves.count⟩

theorem Unwrapped.cons (batch : before.Batch flaws False deferrals lookups base (id :: rest))
    (others : middle.Regroups rest rest' after)
    (batchAfter : after.Batch flaws True deferrals lookups base rest') :
    before.Regroups (id :: rest) (promoted ++ id :: rest') after ∧
      after.Batch flaws True deferrals lookups base (promoted ++ id :: rest') := by
  have apart : ∀ root ∈ rest, ∀ other, before.decls.Family id other →
      ¬ before.decls.Family root other := (pairwise_cons.mp batch.apart).1
  have familiesRest : ∀ other, middle.decls.Families rest other → before.decls.Families rest other := by
    intro other ⟨root, member, family⟩
    exact ⟨root, member,
      (Declarations.Family.congr (first.strange batch member (.inl rfl))).mp family⟩
  -- What comes later touches no number of the first declaration.
  have same : ∀ root, root ∈ promoted ∨ root = id → ∀ other, middle.decls.Family root other →
      after.decls.get? other = middle.decls.get? other := by
    intro root isRoot other family
    have isFirst := first.family isRoot family
    refine others.evolves.kept other (Nat.le_trans
      (batch.within id mem_cons_self other isFirst).2 first.evolves.count) fun isOwn => ?_
    obtain ⟨root', member, family'⟩ := familiesRest other isOwn
    exact apart root' member other isFirst family'
  have familyFirst : ∀ root, root ∈ promoted ∨ root = id → ∀ other,
      after.decls.Family root other → before.decls.Family id other := by
    intro root isRoot other family
    exact first.family isRoot ((Declarations.Family.congr (same root isRoot root (.inl rfl))).mp family)
  have inFirst : ∀ other, other = id ∨ other ∈ promoted → before.decls.Family id other := by
    intro other isOwn
    exact isOwn.imp_right fun member => (first.taken other member).1
  have bounded : ∀ other, before.decls.Families (id :: rest) other → other ≤ before.decls.count :=
    fun other ⟨root, member, family⟩ => (batch.within root member other family).2
  have evolves : before.EvolvesBy (before.decls.Families (id :: rest)) [] [] after := by
    refine (first.evolves.mono fun other isOwn => ⟨id, mem_cons_self, inFirst other isOwn⟩).trans
      (others.evolves.mono fun other isOwn => ?_) bounded
    obtain ⟨root, member, family⟩ := familiesRest other isOwn
    exact ⟨root, mem_cons_of_mem _ member, family⟩
  have single : ∀ root ∈ promoted, ∀ other, after.decls.Family root other → other = root := by
    intro root member other family
    refine family.alone ((owned_congr (same root (.inl member) root (.inl rfl))).trans ?_)
    exact (first.owned root (first.taken root member).2).trans (first.alone root member)
  have strange : ∀ root, root ∈ promoted ∨ root = id → ∀ root' ∈ rest', ∀ other,
      after.decls.Family root other → ¬ after.decls.Family root' other := by
    intro root isRoot root' member other family family'
    obtain ⟨root'', member', family''⟩ :=
      familiesRest other (others.families other ⟨root', member, family'⟩)
    exact apart root'' member' other (familyFirst root isRoot other family) family''
  have isMember : ∀ root, root ∈ promoted ++ id :: rest' ↔
      (root ∈ promoted ∨ root = id) ∨ root ∈ rest' := by
    intro root
    rw [mem_append, mem_cons, or_assoc]
  refine ⟨⟨evolves, fun other ⟨root, member, family⟩ => ?_, fun root member => ?_,
    fun name meaning known => ?_⟩, fun root member => ?_, fun root member other family => ?_, ?_⟩
  · rcases (isMember root).mp member with isFirst | inRest
    · exact ⟨id, mem_cons_self, familyFirst root isFirst other family⟩
    · obtain ⟨root', member', family'⟩ := familiesRest other (others.families other ⟨root, inRest, family⟩)
      exact ⟨root', mem_cons_of_mem _ member', family'⟩
  · rcases mem_cons.mp member with isId | inRest
    · exact (isMember root).mpr (.inl (.inr isId))
    · exact (isMember root).mpr (.inr (others.stays root inRest))
  · rcases others.covered name meaning known with isMiddle | inRest
    · rcases first.evolves.covered name meaning isMiddle with old | isOwn | never | ⟨_, never, _⟩
      · exact .inl old
      · exact .inr ((isMember _).mpr (.inl isOwn.symm))
      · exact absurd never not_mem_nil
      · exact absurd never not_mem_nil
    · exact .inr ((isMember _).mpr (.inr inRest))
  · rcases (isMember root).mp member with (isPromoted | isId) | inRest
    · exact .inl ((first.accepted root isPromoted).extends others.evolves.learns (Nat.le_refl _)
        (same root (.inl isPromoted)))
    · rw [isId]
      exact first.fits.extends others.evolves.learns (same id (.inr rfl))
    · exact batchAfter.each root inRest
  · rcases (isMember root).mp member with isFirst | inRest
    · obtain ⟨above, below⟩ :=
        batch.within id mem_cons_self other (familyFirst root isFirst other family)
      exact ⟨above, Nat.le_trans below evolves.count⟩
    · exact batchAfter.within root inRest other family
  · refine pairwise_append.mpr ⟨?_, .cons (fun root' member other family =>
      strange id (.inr rfl) root' member other family) batchAfter.apart, ?_⟩
    · refine first.distinct.imp_of_mem fun {root root'} member member' different other family family' => ?_
      exact different ((single root member other family).symm.trans (single root' member' other family'))
    · intro root member root' inOthers other family family'
      rcases mem_cons.mp inOthers with isId | inRest
      · subst isId
        cases single root member other family
        have isMiddle := (Declarations.Family.congr (same root' (.inr rfl) root' (.inl rfl))).mp family'
        rcases isMiddle with isId | isOwned
        · exact (first.taken root member).2 isId
        · exact (first.left root isOwned).2 member
      · exact strange root (.inl member) root' inRest other family family'

end

end Unwrapped

theorem extractGroup_regroups (group : Group) :
    ∀ {analysis : Analysis} {flaws deferrals lookups : Prop} {base : Nat}, analysis.Ready →
      analysis.Batch flaws False deferrals lookups base group →
      analysis.Regroups group (analysis.extractGroup group).1 (analysis.extractGroup group).2 ∧
        (analysis.extractGroup group).2.Batch flaws True deferrals lookups base
          (analysis.extractGroup group).1 := by
  induction group with
  | nil => exact fun ready _ => ⟨.refl ready [], .nil _ _ _ _ _ _⟩
  | cons id rest ih =>
    intro analysis flaws deferrals lookups base ready batch
    have first := extract_unwrapped ready (batch.each id mem_cons_self)
    obtain ⟨others, batchAfter⟩ := ih first.evolves.ready (first.others batch)
    exact first.cons batch others batchAfter

theorem Fits.echoIn
    (grounded : known.decls.Grounded) (fits : known.Fits flaws prompts deferrals lookups base id) :
    (known.updateDecls fun decls => decls.echoIn id).Fits flaws True deferrals lookups base id := by
  have grown : known.Extends (known.updateDecls fun decls => decls.echoIn id) :=
    .of_decls (known.decls.echoIn_reworks id).learns rfl
  rcases known.decls.get?_echoIn id with
    same | ⟨decl, data, span, body, found, isWrapper, isBody, isEcho⟩
  · refine fits.prompt.extends grown fun other family => ?_
    rcases family with isId | isOwned
    · rw [isId]
      exact same
    · exact get?_modify_of_ne _ _
        (Nat.ne_of_lt (grounded.owned_below id other isOwned))
  · have opened : known.decls.Settled id → decl.invalid = false →
        (known.updateDecls fun decls => decls.echoIn id).decls.IsOpened id :=
      fun settled valid => ⟨settled.echoIn grounded, _, _, isEcho, valid, rfl, rfl⟩
    rcases fits with accepted | ⟨isFlaw, decl', found', marked⟩ |
      ⟨_, settled, decl', _, found', valid, _⟩
    · obtain ⟨decl', found', valid, _⟩ := accepted.valid
      cases found.symm.trans found'
      exact .inr (.inr ⟨trivial, opened accepted.settled valid⟩)
    · cases found.symm.trans found'
      exact .inr (.inl ⟨isFlaw, _, isEcho, marked⟩)
    · cases found.symm.trans found'
      exact .inr (.inr ⟨trivial, opened settled valid⟩)

theorem Batch.echoIn {group} (grounded : known.decls.Grounded)
    (batch : known.Batch flaws prompts deferrals lookups base group) :
    (known.updateDecls fun decls => group.foldl echoIn decls).Batch flaws True deferrals
      lookups base group :=
  batch.foldl echoIn_adjusts (fun grounded fits => fits.echoIn grounded) grounded

end Analysis

end FragmentCompiler
