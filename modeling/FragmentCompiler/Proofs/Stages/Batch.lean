import FragmentCompiler.Proofs.Checking.Fetching
import FragmentCompiler.Proofs.Lowering.Mention

/-!
# Groups on their way through the stages

Checking leaves every declaration of a group either accepted or marked as invalid.  The
stages change entries of these declarations only.  A wrapper typed at a prompt is taken
apart, and is no longer typed as a function would be.
-/

set_option autoImplicit false

namespace FragmentCompiler

open List

namespace Declarations

variable {after before : Declarations}

/-- One table comes from another by changing entries with a number of `own`, none of
which changes its head. -/
structure Reworks (own : DeclId → Prop) (before after : Declarations) : Prop where
  count : after.count = before.count
  kept : ∀ id, ¬ own id → after.get? id = before.get? id
  learns : before.Extends after
  grounded : before.Grounded → after.Grounded

theorem Reworks.refl (own : DeclId → Prop) (decls : Declarations) : decls.Reworks own decls :=
  ⟨rfl, fun _ _ => rfl, .refl decls, id⟩

theorem Reworks.trans {own} {first second third : Declarations} (left : first.Reworks own second)
    (right : second.Reworks own third) :
    first.Reworks own third :=
  ⟨right.count.trans left.count, fun id strange => (right.kept id strange).trans (left.kept id strange),
    left.learns.trans right.learns, fun grounded => right.grounded (left.grounded grounded)⟩

theorem Reworks.mono {own wider} (reworks : before.Reworks own after)
    (more : ∀ id, own id → wider id) : before.Reworks wider after :=
  { reworks with kept := fun id strange => reworks.kept id fun isOwn => strange (more id isOwn) }

/-- A number stands for a wrapper. -/
def IsWrapper (decls : Declarations) (id : DeclId) : Prop :=
  ∃ decl data, decls.get? id = some decl ∧ decl.body = .wrapper data

theorem IsInvalid.congr {id : DeclId} (same : after.get? id = before.get? id)
    (isInvalid : before.IsInvalid id) : after.IsInvalid id := by
  obtain ⟨decl, found, marked⟩ := isInvalid
  exact ⟨decl, same.trans found, marked⟩

/-- No declaration owns a number of another. -/
def Apart (decls : Declarations) (ids : List DeclId) : Prop :=
  ids.Pairwise fun first second => ∀ other, decls.Family first other → ¬ decls.Family second other

theorem Apart.congr {ids} (same : ∀ id ∈ ids, after.owned id = before.owned id)
    (apart : before.Apart ids) : after.Apart ids := by
  refine apart.imp_of_mem fun {first second} inFirst inSecond isApart other family family' => ?_
  exact isApart other (family.of_owned (same first inFirst)) (family'.of_owned (same second inSecond))

theorem RawGroup.apart {base group} {decls : Declarations} (raw : decls.RawGroup base group) :
    decls.Apart group := by
  induction raw with
  | nil base => exact .nil
  | @cons base first rest root others ih =>
    refine .cons (fun second inRest other family family' => ?_) ih
    have upper := root.family_le other family
    have lower := (others.above second inRest other family').1
    exact Nat.lt_irrefl _ (Nat.lt_of_lt_of_le lower upper)

/-- A change of one declaration: it touches its own entries only, and nobody owns
anything else afterwards. -/
structure Adjusts (change : Declarations → DeclId → Declarations) : Prop where
  reworks : ∀ (decls : Declarations) (id : DeclId),
    decls.Reworks (decls.Family id) (change decls id)
  owned : ∀ (decls : Declarations) (id other : DeclId),
    (change decls id).owned other = decls.owned other

section Adjusts

variable {change : Declarations → DeclId → Declarations} (adjusts : Adjusts change)

include adjusts

theorem Adjusts.family (decls : Declarations) (id root other : DeclId) :
    (change decls id).Family root other ↔ decls.Family root other := by
  unfold Family
  rw [adjusts.owned]

theorem Adjusts.owned_foldl (group : Group) (other : DeclId) (decls : Declarations) :
    (group.foldl change decls).owned other = decls.owned other :=
  foldlRecOn (motive := fun now => now.owned other = decls.owned other) group change
    rfl fun now same id _ => (adjusts.owned now id other).trans same

theorem Adjusts.foldl (group : Group) :
    ∀ decls : Declarations, decls.Reworks (decls.Families group) (group.foldl change decls) := by
  induction group with
  | nil => exact fun decls => .refl _ decls
  | cons id rest ih =>
    intro decls
    refine ((adjusts.reworks decls id).mono fun other family =>
      ⟨id, mem_cons_self, family⟩).trans ((ih (change decls id)).mono ?_)
    intro other ⟨root, member, family⟩
    exact ⟨root, mem_cons_of_mem _ member, (adjusts.family decls id root other).mp family⟩

end Adjusts

end Declarations

namespace Analysis

variable {known : Analysis} {base id : DeclId} {deferrals flaws lookups prompts : Prop}

theorem reworks_evolves {own change} {analysis : Analysis} (ready : analysis.Ready)
    (reworks : analysis.decls.Reworks own (change analysis.decls)) :
    analysis.EvolvesBy own [] [] (analysis.updateDecls change) :=
  updateDecls_evolves ready reworks.count reworks.kept reworks.learns
    (reworks.grounded ready.grounded)

/-- A declaration after checking.  With `flaws` it may be invalid, with `prompts` it may be
a wrapper that was taken apart. -/
def Fits (known : Analysis) (flaws prompts deferrals lookups : Prop) (base id : DeclId) : Prop :=
  known.Accepted deferrals lookups base id ∨ (flaws ∧ known.decls.IsInvalid id) ∨
    (prompts ∧ known.decls.IsOpened id)

theorem Fits.extends {before after : Analysis} (grown : before.Extends after)
    (fits : before.Fits flaws prompts deferrals lookups base id)
    (same : before.decls.Intact after.decls id) :
    after.Fits flaws prompts deferrals lookups base id := by
  rcases fits with accepted | ⟨isFlaw, isInvalid⟩ | ⟨isPrompt, opened⟩
  · exact .inl (accepted.extends grown (Nat.le_refl _) same)
  · exact .inr (.inl ⟨isFlaw, isInvalid.congr (same id (.inl rfl))⟩)
  · exact .inr (.inr ⟨isPrompt, opened.extends grown.decls same⟩)

theorem Fits.of_same {before after : Analysis}
    (fits : before.Fits flaws prompts deferrals lookups base id)
    (decls : after.decls = before.decls) (names : after.names = before.names) :
    after.Fits flaws prompts deferrals lookups base id :=
  fits.extends (.of_same decls names) fun _ _ => by rw [decls]

/-- Declarations after checking, all of whose numbers are larger than `base` and none of
which owns a number of another. -/
structure Batch (known : Analysis) (flaws prompts deferrals lookups : Prop) (base : Nat)
    (group : Group) : Prop where
  each : ∀ id ∈ group, known.Fits flaws prompts deferrals lookups base id
  within : ∀ id ∈ group, ∀ other, known.decls.Family id other →
    base < other ∧ other ≤ known.decls.count
  apart : known.decls.Apart group

theorem Batch.nil (known : Analysis) (flaws prompts deferrals lookups : Prop) (base : Nat) :
    known.Batch flaws prompts deferrals lookups base [] := ⟨by simp, by simp, .nil⟩

theorem Batch.tail {rest} (batch : known.Batch flaws prompts deferrals lookups base (id :: rest)) :
    known.Batch flaws prompts deferrals lookups base rest :=
  ⟨fun other member => batch.each other (mem_cons_of_mem _ member),
    fun other member => batch.within other (mem_cons_of_mem _ member),
    (pairwise_cons.mp batch.apart).2⟩

theorem AcceptedAll.batch {ids} (accepted : known.AcceptedAll deferrals lookups base ids)
    (flaws prompts : Prop) : known.Batch flaws prompts deferrals lookups base ids :=
  ⟨fun id member => .inl (accepted.each id member),
    fun id member other family => ⟨(accepted.each id member).above other family,
      (accepted.each id member).le_count other family⟩, accepted.apart⟩

/-! ## What a stage may do -/

/-- A stage makes one group of another: it touches entries of the group only, and every
name it adds stands for a declaration of the new group. -/
structure Regroups (before : Analysis) (group group' : Group) (after : Analysis) : Prop where
  evolves : before.EvolvesBy (before.decls.Families group) [] [] after
  families : ∀ other, after.decls.Families group' other → before.decls.Families group other
  stays : ∀ id ∈ group, id ∈ group'
  covered : ∀ name meaning, after.names.lookup name = some meaning →
    before.names.lookup name = some meaning ∨ meaning.decl ∈ group'

theorem Regroups.refl {analysis : Analysis} (ready : analysis.Ready) (group : Group) :
    analysis.Regroups group group analysis :=
  ⟨.refl ready _, fun _ family => family, fun _ member => member, fun _ _ known => .inl known⟩

theorem Regroups.trans {group group' group''} {first second third : Analysis}
    (left : first.Regroups group group' second) (right : second.Regroups group' group'' third)
    (bounded : ∀ other, first.decls.Families group other → other ≤ first.decls.count) :
    first.Regroups group group'' third where
  evolves := left.evolves.trans (right.evolves.mono left.families) bounded
  families := fun other family => left.families other (right.families other family)
  stays := fun id member => right.stays id (left.stays id member)
  covered := by
    intro name meaning known
    rcases right.covered name meaning known with isMiddle | inLast
    · exact (left.covered name meaning isMiddle).imp_right (right.stays _)
    · exact .inr inLast

theorem Batch.bounded {group} (batch : known.Batch flaws prompts deferrals lookups base group) :
    ∀ other, known.decls.Families group other → other ≤ known.decls.count :=
  fun other ⟨id, member, family⟩ => (batch.within id member other family).2

/-! ## Stages that change one declaration after another -/

section Adjusts

variable {change : Declarations → DeclId → Declarations}
  {flaws prompts deferrals lookups prompts' deferrals' lookups' : Prop} {base : Nat}

theorem fits_foldl {group} (adjusts : Declarations.Adjusts change)
    (fits : ∀ {known : Analysis} {id : DeclId}, known.decls.Grounded →
      known.Fits flaws prompts deferrals lookups base id →
      (known.updateDecls fun decls => change decls id).Fits flaws prompts' deferrals' lookups' base id) :
    ∀ {known : Analysis}, known.decls.Grounded → known.decls.Apart group →
      (∀ id ∈ group, known.Fits flaws prompts deferrals lookups base id) →
      ∀ id ∈ group, (known.updateDecls fun decls => group.foldl change decls).Fits flaws
        prompts' deferrals' lookups' base id := by
  induction group with
  | nil => simp
  | cons id rest ih =>
    intro known grounded apart each
    obtain ⟨apartFirst, apartRest⟩ := pairwise_cons.mp apart
    have first := adjusts.reworks known.decls id
    have later := adjusts.foldl rest (change known.decls id)
    have grounded' : (known.updateDecls fun decls => change decls id).decls.Grounded :=
      first.grounded grounded
    have grownFirst : known.Extends (known.updateDecls fun decls => change decls id) :=
      .of_decls first.learns rfl
    have grownRest : (known.updateDecls fun decls => change decls id).Extends
        (known.updateDecls fun decls => rest.foldl change (change decls id)) :=
      .of_decls later.learns rfl
    have apartRest' : (known.updateDecls fun decls => change decls id).decls.Apart rest :=
      .congr (fun other _ => adjusts.owned known.decls id other) apartRest
    have others := ih grounded' apartRest'
      fun other member => (each other (mem_cons_of_mem _ member)).extends grownFirst
        fun number family => first.kept number fun family' =>
          apartFirst other member number family' family
    intro other member
    rcases mem_cons.mp member with isId | inRest
    · subst isId
      refine (fits grounded (each other mem_cons_self)).extends grownRest
        fun number family => later.kept number fun ⟨root, inRest, family'⟩ => ?_
      exact apartFirst root inRest number ((adjusts.family known.decls other other number).mp family)
        ((adjusts.family known.decls other root number).mp family')
    · exact others other inRest

theorem Batch.foldl {group} (adjusts : Declarations.Adjusts change)
    (fits : ∀ {known : Analysis} {id : DeclId}, known.decls.Grounded →
      known.Fits flaws prompts deferrals lookups base id →
      (known.updateDecls fun decls => change decls id).Fits flaws prompts' deferrals' lookups' base id)
    (grounded : known.decls.Grounded)
    (batch : known.Batch flaws prompts deferrals lookups base group) :
    (known.updateDecls fun decls => group.foldl change decls).Batch flaws prompts' deferrals' lookups'
      base group := by
  have owned : ∀ other, (known.updateDecls fun decls => group.foldl change decls).decls.owned other =
      known.decls.owned other := fun other => adjusts.owned_foldl group other known.decls
  have count := (adjusts.foldl group known.decls).count
  refine ⟨fits_foldl adjusts fits grounded batch.apart batch.each, fun id member other family => ?_,
    batch.apart.congr fun other _ => owned other⟩
  obtain ⟨above, below⟩ := batch.within id member other (family.of_owned (owned id))
  exact ⟨above, Nat.le_trans below (Nat.le_of_eq count.symm)⟩

theorem regroups_foldl (adjusts : Declarations.Adjusts change) (ready : known.Ready) (group : Group)
    : known.Regroups group group (known.updateDecls fun decls => group.foldl change decls) := by
  refine ⟨reworks_evolves ready (adjusts.foldl group known.decls), fun other family => ?_,
    fun _ member => member, fun _ _ known => .inl known⟩
  obtain ⟨id, member, family⟩ := family
  exact ⟨id, member, family.imp_right fun isOwned =>
    adjusts.owned_foldl group id known.decls ▸ isOwned⟩

end Adjusts

end Analysis

end FragmentCompiler
