import BridgeService.Synchronizer.Isolation

/-!
# What a block carries over

A block that is committed marks no deposit as ready, forgets no leaf of a
rollup exit tree and keeps every complete entry of the exit roots table, apart
from a removal that forbids it.
-/

namespace BridgeService

open List

variable {H : Type} [DecidableEq H] [Externals H]

/-- What of some tables is left in later ones. -/
structure Tables.Carries (base t : Tables H) : Prop where
  ready : ∀ d, d ∈ t.deposit → d.readyForClaim = true → d ∈ base.deposit
  rollupExit : ∀ row, row ∈ base.rollupExit → row ∈ t.rollupExit
  removals : base.removeExitRoot <+: t.removeExitRoot
  entries : ∀ row, row ∈ base.exitRoot → row.exitRoots ≠ [] →
    ∃ row', row' ∈ t.exitRoot ∧ row'.id = row.id ∧
      row'.networkID = row.networkID ∧ row'.exitRoots = row.exitRoots ∧
      (t.removeExitRoot = base.removeExitRoot → row'.allowed = row.allowed)

omit [DecidableEq H] [Externals H] in
theorem Tables.Carries.refl (t : Tables H) : t.Carries t where
  ready := fun _ stored _ => stored
  rollupExit := fun _ stored => stored
  removals := prefix_rfl
  entries := fun row stored _ =>
    ⟨row, stored, rfl, rfl, rfl, fun _ => rfl⟩

variable {ctx : BlockContext H} {t t' : Tables H} {event : Event H}

omit [DecidableEq H] in
private theorem DepositsPushed.ready {height : Nat}
    {deposits : List (Deposit H)} (pushed : DepositsPushed height deposits t t')
    {d : DepositRow H} (stored : d ∈ t'.deposit)
    (ready : d.readyForClaim = true) : d ∈ t.deposit := by
  induction pushed with
  | nil => exact stored
  | cons id fresh next others induction =>
    rcases Rows.mem_push.mp (induction stored) with old | rfl
    · exact old
    · contradiction

theorem Applies.ready (applies : Applies ctx t event t') {d : DepositRow H}
    (stored : d ∈ t'.deposit) (ready : d.readyForClaim = true) :
    d ∈ t.deposit := by
  cases applies with
  | globalExitRootL1 id two fresh =>
    rw [BlockContext.completeL2_eq] at stored
    exact stored
  | removeL2GER low high found =>
    obtain ⟨old, oldIn, same⟩ := Tables.mem_setReady.mp stored
    split at same
    · simp [same] at ready
    · rw [same]
      exact oldIn
  | deposit pushed => exact pushed.ready stored ready
  | verifyBatch nonzero positive known added =>
    cases added with
    | known => exact stored
    | new => exact stored
  | backwardLET notL1 previous enough reached =>
    exact (mem_filter.mp stored).1
  | forwardLET previous pushed reached => exact pushed.ready stored ready
  | _ => exact stored

theorem Tables.Carries.applies (carried : ctx.committed.Carries t)
    (separated : ctx.committed.Separated)
    (applies : Applies ctx t event t') : ctx.committed.Carries t' where
  ready := fun d stored ready =>
    carried.ready d (applies.ready stored ready) ready
  rollupExit := by
    intro row stored
    obtain ⟨added, _, same⟩ := applies.changes.rollupExit
    rw [same]
    exact mem_append_left _ (carried.rollupExit row stored)
  removals := carried.removals.trans applies.changes.removals
  entries := by
    intro row stored complete
    obtain ⟨middle, middleIn, sameID, sameNetwork, sameRoots, allowed⟩ :=
      carried.entries row stored complete
    obtain ⟨change, added, keeps, _, _, same⟩ := applies.changes.exitRoot
    obtain ⟨exitRoots, allow, changed, roots, allowed'⟩ := keeps middle
    have unlisted : ∀ ger,
        middle.id ∉ (ctx.committed.getL2ExitRootsByGER ger).map
          GlobalExitRoot.id := by
      intro ger listed
      rw [sameID] at listed
      exact complete (Tables.of_mem_getL2ExitRootsByGER separated stored
        listed).2.1
    rw [same]
    refine ⟨_, mem_append_left _ (mem_map_of_mem middleIn), ?_⟩
    rw [changed]
    refine ⟨sameID, sameNetwork, (roots unlisted).trans sameRoots, ?_⟩
    intro unchanged
    have back : t.removeExitRoot = ctx.committed.removeExitRoot := by
      have later := applies.changes.removals
      rw [unchanged] at later
      exact later.eq_of_length_le carried.removals.length_le
    exact (allowed' (unchanged.trans back.symm)).trans (allowed back)

theorem AppliesAll.carries {events : List (Event H)}
    (applied : AppliesAll ctx events t t')
    (separated : ctx.committed.Separated)
    (carried : ctx.committed.Carries t) : ctx.committed.Carries t' := by
  induction applied with
  | nil => exact carried
  | cons applies others induction =>
    exact induction (carried.applies separated applies)

theorem BlockCommits.carries {height : Nat} {s : ClientSynchronizer}
    {order : H → List Order} {block : Block H} {w : World H}
    (commits : BlockCommits height s order block w t)
    (separated : w.committed.Separated) : w.committed.Carries t := by
  obtain ⟨blockID, start, events, added, ordered, applied⟩ := commits
  obtain ⟨rows, rfl, _⟩ := added.rest_eq
  apply AppliesAll.carries applied separated
  exact
    { ready := fun _ stored _ => stored
      rollupExit := fun _ stored => stored
      removals := prefix_rfl
      entries := fun row stored _ =>
        ⟨row, stored, rfl, rfl, rfl, fun _ => rfl⟩ }

end BridgeService
