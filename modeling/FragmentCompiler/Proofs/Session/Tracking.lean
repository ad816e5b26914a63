import FragmentCompiler.Proofs.Lowering.Unit
import FragmentCompiler.Proofs.Session.Intake

/-!
# What a call without errors has gathered

While no error is counted, every declaration that was dispatched is accepted, every name
that was learned stands for one of them, and the pending unit holds the code of exactly
these declarations.
-/

set_option autoImplicit false

namespace FragmentCompiler

open List

namespace Analysis

/-- Since `start` an analysis has learned the declarations `ids`, which were dispatched, and
`waiting`, which are checked only. -/
structure Tracks (start : Analysis) (leeway : Leeway) (ids waiting : List DeclId)
    (now : Analysis) : Prop where
  placed : ∀ id ∈ ids, now.Placed leeway start.decls.count id
  waits : ∀ id ∈ waiting, now.Accepted leeway.deferrals False start.decls.count id
  covered : ∀ name meaning, now.names.lookup name = some meaning →
    start.names.lookup name = some meaning ∨ meaning.decl ∈ ids ∨ meaning.decl ∈ waiting

section Tracks

variable {start now after : Analysis} {leeway : Leeway}
  {ids waiting : List DeclId}

theorem Tracks.refl (start : Analysis) (leeway : Leeway) : start.Tracks leeway [] [] start :=
  ⟨by simp, by simp, fun _ _ known => .inl known⟩

section

variable (tracks : start.Tracks leeway ids waiting now)

include tracks

theorem Tracks.of_same (decls : after.decls = now.decls) (names : after.names = now.names) :
    start.Tracks leeway ids waiting after where
  placed := fun id member =>
    (tracks.placed id member).extends (.of_same decls names) fun _ _ => by rw [decls]
  waits := fun id member =>
    (tracks.waits id member).extends (.of_same decls names) (Nat.le_refl _) fun _ _ => by rw [decls]
  covered := by rw [names]; exact tracks.covered

theorem Tracks.read (keeps : start.Keeps ids waiting now) {parser : Parser}
    (takes : now.parser.Takes parser) : start.Tracks leeway ids waiting { now with parser } := by
  have follows := takes_follows keeps.follows.ready takes keeps.follows.count
  have same := keeps.read_same takes
  exact ⟨fun id member => (tracks.placed id member).extends follows.learns
      (same id (mem_append_left _ member)),
    fun id member => (tracks.waits id member).extends follows.learns (Nat.le_refl _)
      (same id (mem_append_right _ member)), tracks.covered⟩

theorem Tracks.check {base group reports} (keeps : start.Keeps ids waiting now)
    {fetched : List DeclId} (raw : now.decls.RawGroup base group) (low : start.decls.count ≤ base)
    (below : now.decls.Below base (ids ++ waiting))
    (checked : now.GroupChecked base group after)
    (evolves : now.EvolvesBy (now.decls.Families group) fetched reports after)
    (fine : ∀ entry ∈ reports, entry.isError = false)
    (accepted : ∀ id ∈ group, after.Accepted after.Defers False base id)
    (defers : after.Defers → leeway.deferrals) :
    start.Tracks leeway ids (group ++ (waiting ++ fetched)) after := by
  have same := keeps.check_same raw below evolves
  refine ⟨fun id member => (tracks.placed id member).extends evolves.learns
      (same id (mem_append_left _ member)), fun id member => ?_, fun name meaning known => ?_⟩
  · rcases mem_append.mp member with inGroup | others
    · exact (accepted id inGroup).weaken (.refl after) defers (fun never => never) low
        fun _ _ => rfl
    · rcases mem_append.mp others with old | new
      · exact (tracks.waits id old).extends evolves.learns (Nat.le_refl _)
          (same id (mem_append_right _ old))
      · exact (evolves.accepted.each id new).weaken (.refl after) defers
          (fun never => never) keeps.follows.count fun _ _ => rfl
  · rcases evolves.covered name meaning known with old | ⟨root, inGroup, family⟩ | new |
      ⟨entry, isEntry, isError⟩
    · refine (tracks.covered name meaning old).imp_right (Or.imp_right fun waits => ?_)
      exact mem_append_right _ (mem_append_left _ waits)
    · have isRoot := (accepted root inGroup).names_root evolves.ready.named known
        (family.of_owned (checked.owned root inGroup).symm)
      exact .inr (.inr (mem_append_left _ (isRoot ▸ inGroup)))
    · exact .inr (.inr (mem_append_right _ (mem_append_right _ new)))
    · rw [fine entry isEntry] at isError
      cases isError

end

theorem Tracks.regroup {group rest group'} (tracks : start.Tracks leeway ids (group ++ rest) now)
    (keeps : start.Keeps ids (group ++ rest) now) (regroups : now.Regroups group group' after)
    (fits : ∀ id ∈ group', after.Placed leeway start.decls.count id) :
    start.Tracks leeway (ids ++ group') rest after := by
  have same := keeps.others regroups
  refine ⟨fun id member => ?_, fun id member => ?_, fun name meaning known => ?_⟩
  · rcases mem_append.mp member with old | new
    · exact (tracks.placed id old).extends regroups.evolves.learns
        (same id (mem_append_left _ old))
    · exact fits id new
  · exact (tracks.waits id (mem_append_right _ member)).extends regroups.evolves.learns
      (Nat.le_refl _) (same id (mem_append_right _ member))
  · rcases regroups.covered name meaning known with old | new
    · rcases tracks.covered name meaning old with isOld | inIds | waits
      · exact .inl isOld
      · exact .inr (.inl (mem_append_left _ inIds))
      · rcases mem_append.mp waits with inGroup | inRest
        · exact .inr (.inl (mem_append_right _ (regroups.stays _ inGroup)))
        · exact .inr (.inr inRest)
    · exact .inr (.inl (mem_append_right _ new))

end Tracks

end Analysis

end FragmentCompiler
