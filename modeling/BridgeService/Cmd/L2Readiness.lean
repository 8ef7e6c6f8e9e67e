import BridgeService.Claimtxman.Flagged
import BridgeService.Cmd.Script
import BridgeService.Synchronizer.Carried

/-!
# Deposits between L2 networks

A deposit from one L2 network to another is marked by the manager of its
origin, when an entry of the origin has it in its rollup exit tree.  The
destination may not have such an entry yet.  If it always has one when the
manager of the origin takes the entry, then every deposit that is ready is
covered by an entry of its destination.
-/

namespace BridgeService

open ErrorState

variable {H : Type}

namespace Tables

private theorem deleteBlocks_eq_self {t : Tables H}
    {gone : BlockRow H → Bool}
    (kept : ∀ row, row ∈ t.block → gone row = false) :
    t.deleteBlocks gone = t := by
  have none : t.block.filter gone = [] := by
    simpa using kept
  have all : (t.block.filter fun row => !gone row) = t.block := by
    simpa using kept
  rw [deleteBlocks, deleteDeposits, none]
  simp [all]

theorem reset_eq_self {t : Tables H} {blockNumber networkID : Nat}
    (kept : ∀ row, row ∈ t.block →
      row ∈ (t.reset blockNumber networkID).block) :
    t.reset blockNumber networkID = t := by
  apply deleteBlocks_eq_self
  intro row stored
  have stays := (List.mem_filter.mp (kept row stored)).2
  rwa [Bool.not_eq_true'] at stays

end Tables

section Coverage

variable [Externals H] {height : Nat} {t t' : Tables H} {d : DepositRow H}

namespace Tables

/-- An allowed entry of the destination has the deposit in its rollup exit
tree. -/
def CoveredOnL2 (height : Nat) (t : Tables H) (d : DepositRow H) : Prop :=
  ∃ entry rollupExitRoot, entry ∈ t.exitRoot ∧
    entry.networkID = d.destNet ∧ entry.allowed = true ∧
    entry.exitRoots[1]? = some rollupExitRoot ∧
    t.InRollupTree height rollupExitRoot d

/-- Every deposit between L2 networks that is ready is covered by an allowed
entry of its destination. -/
def L2ReadySound (height : Nat) (t : Tables H) : Prop :=
  ∀ d, d ∈ t.deposit → d.networkID ≠ 0 → d.destNet ≠ 0 →
    d.destNet ≠ d.networkID → d.readyForClaim = true →
    t.CoveredOnL2 height d

theorem InRollupTree.carried {rollupExitRoot : H}
    (covered : t.InRollupTree height rollupExitRoot d)
    (carried : t.Carries t') : t'.InRollupTree height rollupExitRoot d := by
  obtain ⟨row, stored, rest⟩ := covered
  exact ⟨row, carried.rollupExit row stored, rest⟩

theorem CoveredOnL2.carried (covered : t.CoveredOnL2 height d)
    (carried : t.Carries t')
    (unremoved : t'.removeExitRoot = t.removeExitRoot) :
    t'.CoveredOnL2 height d := by
  obtain ⟨entry, root, stored, onNetwork, allowed, second, inside⟩ := covered
  have complete : entry.exitRoots ≠ [] := by
    intro empty
    simp [empty] at second
  obtain ⟨entry', entryIn, _, network, roots, keeps⟩ :=
    carried.entries entry stored complete
  exact ⟨entry', root, entryIn, network.trans onNetwork,
    (keeps unremoved).trans allowed, roots ▸ second,
    inside.carried carried⟩

theorem L2ReadySound.carried (sound : t.L2ReadySound height)
    (carried : t.Carries t')
    (unremoved : t'.removeExitRoot = t.removeExitRoot) :
    t'.L2ReadySound height := by
  intro d stored notL1 notToL1 different ready
  exact (sound d (carried.ready d stored ready) notL1 notToL1 different
    ready).carried carried unremoved

end Tables

end Coverage

structure World.Undisturbed (w w' : World H) : Prop where
  blocks : ∀ row, row ∈ w.committed.block → row ∈ w'.committed.block
  removals : w'.committed.removeExitRoot = w.committed.removeExitRoot

theorem DepositRow.ready_eq_self {d : DepositRow H}
    (ready : d.readyForClaim = true) :
    { d with readyForClaim := true } = d := by
  rw [← ready]

def World.Marks (w' : World H) (deposit : DepositRow H) : Prop :=
  deposit.readyForClaim = false ∧
    { deposit with readyForClaim := true } ∈ w'.committed.deposit

namespace Deployment

variable [DecidableEq H] [Externals H] {d : Deployment} {height : Nat}
  {start w w' : World H}

/-- When a manager takes an entry of its own network and marks deposits of the
network that the entry has in its rollup exit tree, these are already covered
by entries of their destinations. -/
def DestinationsAhead (d : Deployment) (height : Nat) (w w' : World H) :
    Prop :=
  ∀ networkID, networkID ∈ d.networkIDs → ∀ ger rest,
    w.exitRootEvents networkID = ger :: rest →
    w'.exitRootEvents networkID = rest →
    ¬(ger.blockID ≠ 0 ∧ ger.networkID = 0) →
    ∀ rollupExitRoot, ger.exitRoots[1]? = some rollupExitRoot →
    ∀ deposit, deposit ∈ w.committed.deposit → w'.Marks deposit →
      deposit.networkID = networkID → deposit.destNet ≠ 0 →
      deposit.destNet ≠ networkID →
      w.committed.InRollupTree height rollupExitRoot deposit →
      w.committed.CoveredOnL2 height deposit

theorem Step.carries (step : d.Step height w w')
    (sound : d.Sound height w) :
    w.committed.Carries w'.committed ∨
      (∃ s blockNumber, s ∈ d.synchronizers ∧
        s.resetState blockNumber w = .ok () w' ∧
        w'.committed = w.committed.reset blockNumber s.networkID) ∨
      ∃ networkID ger rest, networkID ∈ d.networkIDs ∧
        w.exitRootEvents networkID = ger :: rest ∧
        w'.exitRootEvents networkID = rest ∧
        StatusUpdated (d.manager networkID) ger w.committed
          w'.committed := by
  cases step.change sound with
  | kept same =>
    rw [same]
    exact .inl (.refl _)
  | block s deployed order gers gers' block emitted inOrder ran commits =>
    exact .inl (commits.carries sound.separated)
  | reset s deployed blockNumber ran committed =>
    exact .inr (.inl ⟨s, blockNumber, deployed, ran, committed⟩)
  | trusted networkID deployed lastGER mainnet rollup added =>
    obtain ⟨id, fresh, committed⟩ := added.committed
    rw [committed]
    exact .inl
      { ready := fun _ stored _ => stored
        rollupExit := fun _ stored => stored
        removals := List.prefix_rfl
        entries := fun row stored _ =>
          ⟨row, List.mem_append_left _ stored, rfl, rfl, rfl,
            fun _ => rfl⟩ }
  | status networkID deployed ger rest pending received updated =>
    exact .inr (.inr ⟨networkID, ger, rest, deployed, pending,
      received, updated⟩)

omit [Externals H] in
theorem statusUpdated_rest {tm : ClaimTxManager} {ger : GlobalExitRoot H}
    {t t' : Tables H} (updated : StatusUpdated tm ger t t') :
    t'.exitRoot = t.exitRoot ∧ t'.rollupExit = t.rollupExit := by
  let holds : Tables H → Prop := fun other =>
    other.exitRoot = t.exitRoot ∧ other.rollupExit = t.rollupExit
  have closed : ∀ other matching, holds other →
      holds (other.setReady true matching) :=
    fun _ _ same => same
  exact updated.preserves closed ⟨rfl, rfl⟩

private theorem Step.l2ReadySound
    (nonzero : ∀ deposit : Deposit H, hashDeposit deposit ≠ hashZero)
    (sound : d.Sound height w) (step : d.Step height w w')
    (undisturbed : w.Undisturbed w')
    (ahead : d.DestinationsAhead height w w')
    (ready : w.committed.L2ReadySound height) :
    w'.committed.L2ReadySound height := by
  rcases step.carries sound with carried |
    ⟨s, blockNumber, _, _, committed⟩ |
    ⟨networkID, ger, rest, deployed, pending, received, updated⟩
  · exact ready.carried carried undisturbed.removals
  · have blocks := undisturbed.blocks
    rw [committed] at blocks
    rw [committed, Tables.reset_eq_self blocks]
    exact ready
  have l1 := sound.readyL1
  obtain ⟨entries, rollupExit⟩ := statusUpdated_rest updated
  have covered : ∀ deposit, w.committed.CoveredOnL2 height deposit →
      w'.committed.CoveredOnL2 height deposit := by
    rintro deposit ⟨entry, root, stored, rest⟩
    refine ⟨entry, root, entries ▸ stored, ?_⟩
    rw [Tables.InRollupTree, rollupExit]
    exact rest
  intro deposit stored notL1 notToL1 different marked
  rcases updated.marks l1.consistent.tables l1.injective nonzero
    (fun networkID => (l1.consistent.capacity networkID).le) rfl stored with
    old | ⟨old, oldIn, rfl, how⟩
  · exact covered deposit (ready deposit old notL1 notToL1 different marked)
  · by_cases before : old.readyForClaim = true
    · rw [DepositRow.ready_eq_self before] at different ⊢
      exact covered old (ready old oldIn notL1 notToL1 different before)
    cases how with
    | toL1 _ _ _ destination _ => exact absurd destination notToL1
    | fromL1 _ _ origin _ _ => exact absurd origin notL1
    | fromL2 l2 root origin destination inside =>
      have origin : old.networkID = networkID := origin
      apply covered
      exact ahead networkID deployed ger rest pending received l2 _ root
        old oldIn ⟨eq_false_of_ne_true before, stored⟩ origin notToL1
        (origin ▸ different) inside

/-- In a run without resets and removals, in which the destinations are ahead
whenever a manager takes an entry, every deposit between L2 networks that is
ready is covered by an entry of its destination. -/
theorem l2_ready_covered_of_destinations_ahead
    (nonzero : ∀ deposit : Deposit H, hashDeposit deposit ≠ hashZero)
    (ready : ∀ s, s ∈ d.synchronizers → s.Ready height start)
    (empty : start.committed = Tables.empty)
    (run : d.RunWhere height (fun w w' => w.Undisturbed w' ∧
      d.DestinationsAhead height w w') start w) :
    w.committed.L2ReadySound height := by
  refine (run.induct (fun w => w.committed.L2ReadySound height) ?_
    (sound_initial ready empty) ?_).2
  · intro w w' sound step guard holds
    exact step.l2ReadySound nonzero sound guard.1 guard.2 holds
  · rw [empty]
    nofun

section Samples

def crossDeposit : Deposit Digest :=
  { (sampleDeposit 1 0 : Deposit Digest) with destinationNetwork := 2 }

def crossLocalRoot : Digest :=
  treeRoot 2 [hashDeposit crossDeposit]

def crossGer (exitRoots : List Digest) : GlobalExitRoot Digest :=
  { blockID := 0
    blockNumber := 0
    exitRoots := exitRoots
    globalExitRoot := hash hashZero (treeRoot 2 [crossLocalRoot])
    networkID := 0
    id := 0 }

def crossL1Block : Block Digest :=
  { (depositBlock 2 [] : Block Digest) with
    globalExitRoots := [crossGer [hashZero, treeRoot 2 [crossLocalRoot]]]
    verifiedBatches :=
      [{ blockNumber := 2
         rollupID := 1
         localExitRoot := crossLocalRoot }] }

def crossL2Block (number : Nat) : Block Digest :=
  { (depositBlock number [] : Block Digest) with
    globalExitRoots := [crossGer []] }

def crossL1Order : Digest → List Order := fun _ =>
  [{ name := .verifyBatchOrder
     pos := 0 },
   { name := .globalExitRootsOrder
     pos := 0 }]

def crossL2Order : Digest → List Order := fun _ =>
  [{ name := .globalExitRootsOrder
     pos := 0 }]

/-- The destination of every deposit of the network has an entry with the
rollup exit root that the manager takes. -/
def EntriesAhead (d : Deployment) (w w' : World H) : Prop :=
  ∀ networkID, networkID ∈ d.networkIDs →
    ∀ ger, ger ∈ (w.exitRootEvents networkID).head? →
    w'.exitRootEvents networkID = (w.exitRootEvents networkID).tail →
    ∀ deposit, deposit ∈ w.committed.deposit →
      deposit.networkID = networkID → deposit.destNet ≠ networkID →
      ∃ entry, entry ∈ w.committed.exitRoot ∧
        entry.networkID = deposit.destNet ∧ entry.allowed = true ∧
        entry.exitRoots[1]? = ger.exitRoots[1]?

omit [DecidableEq H] in
theorem EntriesAhead.destinationsAhead (ahead : d.EntriesAhead w w') :
    d.DestinationsAhead height w w' := by
  intro networkID deployed ger rest pending received _ root second deposit
    stored _ origin _ different inside
  have head : ger ∈ (w.exitRootEvents networkID).head? := by
    rw [pending]
    rfl
  have tail : w'.exitRootEvents networkID =
      (w.exitRootEvents networkID).tail := by
    rw [pending, received]
    rfl
  obtain ⟨entry, entryIn, onNetwork, allowed, roots⟩ :=
    ahead networkID deployed ger head tail deposit stored origin different
  exact ⟨entry, root, entryIn, onNetwork, allowed, roots.trans second, inside⟩

instance : Decidable (w.Undisturbed w') :=
  decidable_of_iff ((∀ row, row ∈ w.committed.block →
      row ∈ w'.committed.block) ∧
    w'.committed.removeExitRoot = w.committed.removeExitRoot)
    ⟨fun both => ⟨both.1, both.2⟩, fun both => ⟨both.1, both.2⟩⟩

instance : Decidable (d.EntriesAhead w w') :=
  inferInstanceAs (Decidable (∀ networkID, networkID ∈ d.networkIDs → _))

/-- The manager of the origin takes the entry before the destination has
it. -/
theorem l2_ready_deposit_uncovered :
    ∃ w : World Digest, sampleDeployment.RunWhere 2 World.Undisturbed
        (World.start 2 [0, 1, 2]) w ∧
      ¬w.committed.L2ReadySound 2 := by
  have followed : sampleDeployment.follows 2 World.Undisturbed
      (fun w => decide (∃ d, d ∈ w.committed.deposit ∧ d.networkID = 1 ∧
        d.destNet = 2 ∧ d.readyForClaim = true ∧
        ∀ entry, entry ∈ w.committed.exitRoot → entry.networkID ≠ 2))
      [.block 1 (depositOrder 1) (depositBlock 1 [crossDeposit]),
        .block 0 crossL1Order crossL1Block,
        .block 1 crossL2Order (crossL2Block 3), .send 1, .handle 1]
      (World.start 2 [0, 1, 2]) = true := by
    decide +kernel
  obtain ⟨w, run, checked⟩ := run_of_follows followed
  obtain ⟨d, stored, origin, destination, ready, none⟩ :=
    of_decide_eq_true checked
  refine ⟨w, run, fun sound => ?_⟩
  obtain ⟨entry, _, entryIn, onNetwork, _⟩ := sound d stored
    (by omega) (by omega) (by omega) ready
  exact none entry entryIn (onNetwork.trans destination)

theorem l2_ready_deposit_covered :
    ∃ w : World Digest, sampleDeployment.Run 2 (World.start 2 [0, 1, 2]) w ∧
      (∃ d, d ∈ w.committed.deposit ∧ d.networkID = 1 ∧ d.destNet = 2 ∧
        d.readyForClaim = true) ∧
      w.committed.L2ReadySound 2 := by
  have followed : sampleDeployment.follows 2
      (fun w w' : World Digest => w.Undisturbed w' ∧
        sampleDeployment.EntriesAhead w w')
      (fun w => decide (∃ d, d ∈ w.committed.deposit ∧ d.networkID = 1 ∧
        d.destNet = 2 ∧ d.readyForClaim = true))
      [.block 1 (depositOrder 1) (depositBlock 1 [crossDeposit]),
        .block 0 crossL1Order crossL1Block,
        .block 2 crossL2Order (crossL2Block 4),
        .block 1 crossL2Order (crossL2Block 3), .send 1, .handle 1]
      (World.start 2 [0, 1, 2]) = true := by
    decide +kernel
  obtain ⟨w, run, checked⟩ := run_of_follows followed
  have guarded : sampleDeployment.RunWhere 2
      (fun w w' => w.Undisturbed w' ∧
        sampleDeployment.DestinationsAhead 2 w w')
      (World.start 2 [0, 1, 2]) w :=
    run.weaken fun _ _ guard => ⟨guard.1, guard.2.destinationsAhead⟩
  refine ⟨w, run.run, of_decide_eq_true checked, ?_⟩
  exact l2_ready_covered_of_destinations_ahead Digest.hashDeposit_ne_zero
    (sampleDeployment_ready Digest.hash_injective 2 (by decide)) rfl guarded

end Samples

end Deployment

end BridgeService
