import BridgeService.Cmd.L2Readiness

/-!
# Readiness after a reorganisation

A reset deletes the entries of one network, while the deposits that they made
ready belong to another one and stay ready.  If ready deposits also have an
entry in or below the block to which their destination is reset, and managers
only mark deposits by entries that are still stored, then every deposit that is
ready is covered by an entry of its destination.
-/

namespace BridgeService

open ErrorState List

variable {H : Type} [DecidableEq H] [Externals H]

namespace Tables

variable {height : Nat} {t t' : Tables H} {d : DepositRow H}

/-- The destination of the deposit has an entry for it: for an L1 deposit one
with the deposit in the tree of its mainnet exit root, and for a deposit to L1
one with the deposit in its rollup exit tree. -/
structure Covered (height : Nat) (t : Tables H) (d : DepositRow H) :
    Prop where
  onL2 : d.networkID = 0 → d.destNet ≠ 0 →
    ∃ entry mainnetExitRoot, entry ∈ t.exitRoot ∧ entry.networkID = d.destNet ∧
      entry.exitRoots[0]? = some mainnetExitRoot ∧
      d.InTree height mainnetExitRoot
  onL1 : d.networkID ≠ 0 → d.destNet = 0 →
    ∃ entry rollupExitRoot, entry ∈ t.exitRoot ∧ entry.networkID = 0 ∧
      entry.exitRoots[1]? = some rollupExitRoot ∧
      t.InRollupTree height rollupExitRoot d

/-- Every ready deposit between L1 and an L2 network is covered by an entry of
its destination. -/
def ReadyCovered (height : Nat) (t : Tables H) : Prop :=
  ∀ d, d ∈ t.deposit → d.readyForClaim = true → t.Covered height d

/-- The block with the id is a block of the network above the number. -/
def Above (t : Tables H) (blockNumber networkID blockID : Nat) : Prop :=
  ∃ block, block ∈ t.block ∧ block.id = blockID ∧
    block.networkID = networkID ∧ blockNumber < block.blockNum

/-- If entries of a network cover a ready deposit, then also one does that is
not in a block of the network above the number.  For deposits to L1 the leaf of
the rollup exit tree is not in such a block either.  Only the rows of the
network itself are looked at, so that the deposits are never in such blocks. -/
structure ResetKeepsCover (height blockNumber networkID : Nat)
    (t : Tables H) : Prop where
  onL2 : ∀ deposit, deposit ∈ t.deposit → deposit.readyForClaim = true →
    deposit.networkID = 0 → networkID ≠ 0 → deposit.destNet = networkID →
    ∀ entry root, entry ∈ t.exitRoot → entry.networkID = networkID →
      entry.exitRoots[0]? = some root → deposit.InTree height root →
      ∃ entry' root', entry' ∈ t.exitRoot ∧ entry'.networkID = networkID ∧
        ¬t.Above blockNumber networkID entry'.blockID ∧
        entry'.exitRoots[0]? = some root' ∧ deposit.InTree height root'
  onL1 : ∀ deposit, deposit ∈ t.deposit → deposit.readyForClaim = true →
    deposit.networkID ≠ 0 → networkID = 0 → deposit.destNet = 0 →
    ∀ entry leaf, entry ∈ t.exitRoot → entry.networkID = 0 →
      leaf ∈ t.rollupExit → entry.exitRoots[1]? = some leaf.root →
      leaf.rollupId = deposit.networkID → deposit.InTree height leaf.leaf →
      ∃ entry' leaf', entry' ∈ t.exitRoot ∧ entry'.networkID = 0 ∧
        ¬t.Above blockNumber networkID entry'.blockID ∧
        leaf' ∈ t.rollupExit ∧ ¬t.Above blockNumber networkID leaf'.blockID ∧
        entry'.exitRoots[1]? = some leaf'.root ∧
        leaf'.rollupId = deposit.networkID ∧ deposit.InTree height leaf'.leaf

omit [DecidableEq H] in
theorem Covered.mono (covered : t.Covered height d)
    (entries : ∀ row, row ∈ t.exitRoot → row.exitRoots ≠ [] →
      ∃ row', row' ∈ t'.exitRoot ∧ row'.networkID = row.networkID ∧
        row'.exitRoots = row.exitRoots)
    (rollupExit : ∀ row, row ∈ t.rollupExit → row ∈ t'.rollupExit) :
    t'.Covered height d where
  onL2 := by
    intro l1 notL1
    obtain ⟨entry, root, stored, onNetwork, first, inside⟩ :=
      covered.onL2 l1 notL1
    obtain ⟨entry', stored', network, roots⟩ := entries entry stored (by
      intro empty
      rw [empty] at first
      contradiction)
    exact ⟨entry', root, stored', network.trans onNetwork, roots ▸ first,
      inside⟩
  onL1 := by
    intro notL1 l1
    obtain ⟨entry, root, stored, onNetwork, second, leaf, leafIn, inside⟩ :=
      covered.onL1 notL1 l1
    obtain ⟨entry', stored', network, roots⟩ := entries entry stored (by
      intro empty
      rw [empty] at second
      contradiction)
    exact ⟨entry', root, stored', network.trans onNetwork, roots ▸ second,
      leaf, rollupExit leaf leafIn, inside⟩

omit [DecidableEq H] in
theorem Covered.carried (covered : t.Covered height d)
    (carried : t.Carries t') : t'.Covered height d := by
  apply covered.mono _ carried.rollupExit
  intro row stored complete
  obtain ⟨row', stored', _, network, roots, _⟩ :=
    carried.entries row stored complete
  exact ⟨row', stored', network, roots⟩

omit [DecidableEq H] [Externals H] in
theorem mem_goneIDs {blockNumber networkID blockID : Nat} :
    blockID ∈ t.goneIDs blockNumber networkID ↔
      t.Above blockNumber networkID blockID := by
  simp only [goneIDs, Above, mem_map, mem_filter, Bool.and_eq_true,
    decide_eq_true_eq, beq_iff_eq]
  constructor
  · rintro ⟨block, ⟨stored, above, onNetwork⟩, same⟩
    exact ⟨block, stored, same, onNetwork, above⟩
  · rintro ⟨block, stored, same, onNetwork, above⟩
    exact ⟨block, ⟨stored, above, onNetwork⟩, same⟩

omit [DecidableEq H] [Externals H] in
theorem mem_exitRoot_reset {blockNumber networkID : Nat}
    {entry : ExitRootRow H} :
    entry ∈ (t.reset blockNumber networkID).exitRoot ↔
      entry ∈ t.exitRoot ∧ ¬t.Above blockNumber networkID entry.blockID := by
  rw [← mem_goneIDs, ← decide_eq_true_iff (p := entry.blockID ∉ _)]
  exact mem_filter

omit [DecidableEq H] [Externals H] in
theorem mem_rollupExit_reset {blockNumber networkID : Nat}
    {leaf : RollupExitLeaf H} :
    leaf ∈ (t.reset blockNumber networkID).rollupExit ↔
      leaf ∈ t.rollupExit ∧ ¬t.Above blockNumber networkID leaf.blockID := by
  rw [← mem_goneIDs, ← decide_eq_true_iff (p := leaf.blockID ∉ _)]
  exact mem_filter

omit [DecidableEq H] [Externals H] in
private theorem other_entry_stays {blockNumber networkID : Nat}
    {entry : ExitRootRow H} (separated : t.Separated)
    (stored : entry ∈ t.exitRoot) (different : entry.networkID ≠ networkID) :
    entry ∈ (t.reset blockNumber networkID).exitRoot := by
  have same := (separated.reset_other blockNumber different).2.2.2.2
  have here : entry ∈ t.exitRootsOf entry.networkID :=
    mem_filter.mpr ⟨stored, decide_eq_true rfl⟩
  rw [← same] at here
  exact (mem_filter.mp here).1

omit [DecidableEq H] in
theorem Covered.reset {blockNumber networkID : Nat}
    (covered : t.Covered height d) (separated : t.Separated)
    (stored : d ∈ t.deposit) (ready : d.readyForClaim = true)
    (keeps : t.ResetKeepsCover height blockNumber networkID) :
    (t.reset blockNumber networkID).Covered height d where
  onL2 := by
    intro l1 notL1
    obtain ⟨entry, root, entryIn, onNetwork, first, inside⟩ :=
      covered.onL2 l1 notL1
    by_cases same : d.destNet = networkID
    · obtain ⟨entry', root', entryIn', onNetwork', below, first', inside'⟩ :=
        keeps.onL2 d stored ready l1 (same ▸ notL1) same entry root entryIn
          (onNetwork.trans same) first inside
      exact ⟨entry', root', mem_exitRoot_reset.mpr ⟨entryIn', below⟩,
        onNetwork'.trans same.symm, first', inside'⟩
    · exact ⟨entry, root,
        other_entry_stays separated entryIn (onNetwork.symm ▸ same),
        onNetwork, first, inside⟩
  onL1 := by
    intro notL1 l1
    obtain ⟨entry, root, entryIn, onL1, second, leaf, leafIn, rfl, rollup,
      inside⟩ := covered.onL1 notL1 l1
    by_cases same : networkID = 0
    · obtain ⟨entry', leaf', entryIn', onL1', below, leafIn', leafBelow,
        second', rollup', inside'⟩ := keeps.onL1 d stored ready notL1 same l1
          entry leaf entryIn onL1 leafIn second rollup inside
      exact ⟨entry', leaf'.root, mem_exitRoot_reset.mpr ⟨entryIn', below⟩,
        onL1', second', leaf', mem_rollupExit_reset.mpr ⟨leafIn', leafBelow⟩,
        rfl, rollup', inside'⟩
    · refine ⟨entry, leaf.root, ?_, onL1, second, leaf, ?_, rfl, rollup,
        inside⟩
      · exact other_entry_stays separated entryIn (onL1 ▸ Ne.symm same)
      · rwa [separated.rollupExit_reset same]

end Tables

namespace Deployment

variable {d : Deployment} {height : Nat} {start w w' : World H}

/-- When a manager takes an entry and marks deposits to or from L1, its
network, or L1 for an entry of L1, has an entry with the same exit root. -/
def EntryStored (d : Deployment) (w w' : World H) : Prop :=
  ∀ networkID, networkID ∈ d.networkIDs →
    ∀ ger, ger ∈ (w.exitRootEvents networkID).head? →
    w'.exitRootEvents networkID = (w.exitRootEvents networkID).tail →
    ∀ deposit, deposit ∈ w.committed.deposit → w'.Marks deposit →
      if ger.blockID ≠ 0 ∧ ger.networkID = 0 then
        ∃ entry, entry ∈ w.committed.exitRoot ∧ entry.networkID = 0 ∧
          entry.exitRoots[1]? = ger.exitRoots[1]?
      else deposit.networkID = 0 →
        ∃ entry, entry ∈ w.committed.exitRoot ∧ entry.networkID = networkID ∧
          entry.exitRoots[0]? = ger.exitRoots[0]?

/-- When a synchronizer resets its network to a block, ready deposits that its
entries cover are also covered by entries in or below the block. -/
def ResetsKeepCover (d : Deployment) (height : Nat) (w w' : World H) :
    Prop :=
  ∀ s, s ∈ d.synchronizers → ∀ blockNumber,
    s.resetState blockNumber w = .ok () w' →
    w.committed.ResetKeepsCover height blockNumber s.networkID

omit [DecidableEq H] in
private theorem marked_covered {networkID : Nat} {ger : GlobalExitRoot H}
    {t : Tables H} {deposit : DepositRow H} (notL1 : networkID ≠ 0)
    (how : Marked height (d.manager networkID) ger t deposit)
    (taken : if ger.blockID ≠ 0 ∧ ger.networkID = 0 then
        ∃ entry, entry ∈ t.exitRoot ∧ entry.networkID = 0 ∧
          entry.exitRoots[1]? = ger.exitRoots[1]?
      else deposit.networkID = 0 →
        ∃ entry, entry ∈ t.exitRoot ∧ entry.networkID = networkID ∧
          entry.exitRoots[0]? = ger.exitRoots[0]?) :
    t.Covered height deposit := by
  cases how with
  | toL1 l1 root origin destination inside =>
    rw [if_pos l1] at taken
    obtain ⟨entry, stored, onL1, roots⟩ := taken
    constructor
    · intro fromL1
      exact absurd (origin.symm.trans fromL1) notL1
    · intro _ _
      exact ⟨entry, _, stored, onL1, roots.trans root, inside⟩
  | fromL1 l2 root origin destination inside =>
    rw [if_neg l2] at taken
    obtain ⟨entry, stored, onNetwork, roots⟩ := taken origin
    constructor
    · intro _ _
      exact ⟨entry, _, stored, onNetwork.trans destination.symm,
        roots.trans root, inside⟩
    · intro fromL2
      exact absurd origin fromL2
  | fromL2 l2 root origin destination inside =>
    constructor
    · intro fromL1
      exact absurd (origin.symm.trans fromL1) notL1
    · intro _ toL1
      exact absurd toL1 destination

private theorem Step.readyCovered
    (nonzero : ∀ deposit : Deposit H, hashDeposit deposit ≠ hashZero)
    (sound : d.Sound height w) (step : d.Step height w w')
    (taken : d.EntryStored w w') (keeps : d.ResetsKeepCover height w w')
    (ready : w.committed.ReadyCovered height) :
    w'.committed.ReadyCovered height := by
  rcases step.carries sound with carried |
    ⟨s, blockNumber, deployed, reset, committed⟩ |
    ⟨networkID, ger, rest, deployed, pending, received, updated⟩
  · intro deposit inside marked
    exact (ready deposit (carried.ready deposit inside marked)
      marked).carried carried
  · intro deposit inside marked
    rw [committed] at inside ⊢
    have before : deposit ∈ w.committed.deposit := (mem_filter.mp inside).1
    exact (ready deposit before marked).reset sound.separated before marked
      (keeps s deployed blockNumber reset)
  · have l1 := sound.readyL1
    obtain ⟨entries, rollupExit⟩ := statusUpdated_rest updated
    have covered : ∀ deposit, w.committed.Covered height deposit →
        w'.committed.Covered height deposit := by
      intro deposit covered
      apply covered.mono
      · intro row inside _
        exact ⟨row, entries ▸ inside, rfl, rfl⟩
      · intro row inside
        exact rollupExit ▸ inside
    intro deposit inside marked
    rcases updated.marks l1.consistent.tables l1.injective nonzero
      (fun networkID => (l1.consistent.capacity networkID).le) rfl inside
      with old | ⟨old, oldIn, rfl, how⟩
    · exact covered deposit (ready deposit old marked)
    · by_cases before : old.readyForClaim = true
      · rw [DepositRow.ready_eq_self before]
        exact covered old (ready old oldIn before)
      have stored := taken networkID deployed ger (by rw [pending]; rfl)
        (by rw [pending, received]; rfl) old oldIn
        ⟨eq_false_of_ne_true before, inside⟩
      have here := marked_covered (d.notL1 networkID deployed) how stored
      exact covered _ ⟨here.onL2, here.onL1⟩

/-- In a run in which managers only mark deposits by entries that are still
stored, and ready deposits have entries in or below the blocks to which
networks are reset, every deposit that is ready is covered by an entry of its
destination. -/
theorem ready_covered_after_resets
    (nonzero : ∀ deposit : Deposit H, hashDeposit deposit ≠ hashZero)
    (ready : ∀ s, s ∈ d.synchronizers → s.Ready height start)
    (empty : start.committed = Tables.empty)
    (run : d.RunWhere height (fun w w' => d.EntryStored w w' ∧
      d.ResetsKeepCover height w w') start w) :
    w.committed.ReadyCovered height := by
  refine (run.induct (fun w => w.committed.ReadyCovered height) ?_
    (sound_initial ready empty) ?_).2
  · intro w w' sound step guard holds
    exact step.readyCovered nonzero sound guard.1 guard.2 holds
  · rw [empty]
    nofun

section Samples

def EntriesKept (w w' : World H) : Prop :=
  (∀ row, row ∈ w.committed.exitRoot → row ∈ w'.committed.exitRoot) ∧
    ∀ row, row ∈ w.committed.rollupExit → row ∈ w'.committed.rollupExit

theorem EntriesKept.resetsKeepCover (kept : EntriesKept w w')
    (sound : d.Sound height w) : d.ResetsKeepCover height w w' := by
  intro s deployed blockNumber reset
  have committed := (ClientSynchronizer.resetState_ok (sound.ready s deployed)
    sound.separated.chained reset).committed
  rw [EntriesKept, committed] at kept
  obtain ⟨entries, leaves⟩ := kept
  constructor
  · intro deposit _ _ _ _ _ entry root stored onNetwork first inside
    have below := (Tables.mem_exitRoot_reset.mp (entries entry stored)).2
    exact ⟨entry, root, stored, onNetwork, below, first, inside⟩
  · intro deposit _ _ _ _ _ entry leaf stored onL1 leafIn second rollup inside
    have below := (Tables.mem_exitRoot_reset.mp (entries entry stored)).2
    have leafBelow := (Tables.mem_rollupExit_reset.mp (leaves leaf leafIn)).2
    exact ⟨entry, leaf, stored, onL1, below, leafIn, leafBelow, second,
      rollup, inside⟩

instance : Decidable (EntriesKept w w') :=
  inferInstanceAs (Decidable (_ ∧ _))

instance {deposit : DepositRow H} : Decidable (w'.Marks deposit) :=
  inferInstanceAs (Decidable (_ ∧ _))

instance : Decidable (d.EntryStored w w') :=
  inferInstanceAs (Decidable (∀ networkID, networkID ∈ d.networkIDs → _))

def bridgeDeposit : Deposit Digest :=
  { (sampleDeposit 0 0 : Deposit Digest) with destinationNetwork := 1 }

def bridgeGer (exitRoots : List Digest) : GlobalExitRoot Digest :=
  { blockID := 0
    blockNumber := 0
    exitRoots := exitRoots
    globalExitRoot := hash (treeRoot 2 [hashDeposit bridgeDeposit]) hashZero
    networkID := 0
    id := 0 }

def bridgeL1Block : Block Digest :=
  { (depositBlock 1 [bridgeDeposit] : Block Digest) with
    globalExitRoots :=
      [bridgeGer [treeRoot 2 [hashDeposit bridgeDeposit], hashZero]] }

def bridgeL2Block : Block Digest :=
  { (depositBlock 2 [] : Block Digest) with
    globalExitRoots := [bridgeGer []] }

def bridgeL1Order : Digest → List Order := fun _ =>
  [{ name := .depositsOrder
     pos := 0 },
   { name := .globalExitRootsOrder
     pos := 0 }]

/-- The deposit is made ready.  L1 sends nothing, since the rollup exit root has
not changed. -/
def bridgeScript : List (Script Digest) :=
  [.block 0 bridgeL1Order bridgeL1Block, .sendL1,
    .block 1 crossL2Order bridgeL2Block, .send 1, .handle 1]

/-- A reset of the destination deletes its only entry, and the deposit stays
ready. -/
theorem reset_leaves_deposit_ready :
    ∃ mid w : World Digest,
      sampleDeployment.Run 2 (World.start 2 [0, 1, 2]) mid ∧
      (sampleDeployment.l2 1).resetState 0 mid = .ok () w ∧
      (∀ networkID, networkID ∈ sampleDeployment.networkIDs →
        w.exitRootEvents networkID = []) ∧
      ¬w.committed.ReadyCovered 2 := by
  have followed : sampleDeployment.follows 2 (fun _ _ => True)
      (fun mid => returns ((sampleDeployment.l2 1).resetState 0)
        (fun _ w => decide ((∀ networkID,
            networkID ∈ sampleDeployment.networkIDs →
              w.exitRootEvents networkID = []) ∧
          ∃ d, d ∈ w.committed.deposit ∧ d.networkID = 0 ∧
            d.destNet = 1 ∧ d.readyForClaim = true ∧
            ∀ entry, entry ∈ w.committed.exitRoot → entry.networkID ≠ 1)) mid)
      bridgeScript (World.start 2 [0, 1, 2]) = true := by
    decide +kernel
  obtain ⟨mid, run, returned⟩ := run_of_follows followed
  obtain ⟨_, w, reset, checked⟩ := exists_of_returns returned
  obtain ⟨processed, d, stored, l1, destination, ready, none⟩ :=
    of_decide_eq_true checked
  refine ⟨mid, w, run.run, reset, processed, fun covered => ?_⟩
  obtain ⟨entry, _, entryIn, onNetwork, _⟩ :=
    (covered d stored ready).onL2 l1 (by omega)
  exact none entry entryIn (onNetwork.trans destination)

/-- A reset deletes a later block of the destination and leaves its entry. -/
theorem reset_leaves_deposit_covered :
    ∃ w : World Digest, sampleDeployment.Run 2 (World.start 2 [0, 1, 2]) w ∧
      (∃ d, d ∈ w.committed.deposit ∧ d.networkID = 0 ∧ d.destNet = 1 ∧
        d.readyForClaim = true) ∧
      w.committed.ReadyCovered 2 := by
  have followed : sampleDeployment.follows 2
      (fun w w' : World Digest => sampleDeployment.EntryStored w w' ∧
        EntriesKept w w')
      (fun w => decide (∃ d, d ∈ w.committed.deposit ∧ d.networkID = 0 ∧
        d.destNet = 1 ∧ d.readyForClaim = true))
      (bridgeScript ++
        [.block 1 (depositOrder 1) (depositBlock 3 [sampleDeposit 1 0]),
          .reset 1 2])
      (World.start 2 [0, 1, 2]) = true := by
    decide +kernel
  obtain ⟨w, run, checked⟩ := run_of_follows followed
  have ready := sampleDeployment_ready Digest.hash_injective 2 (by decide)
  have guarded : sampleDeployment.RunWhere 2
      (fun w w' => sampleDeployment.EntryStored w w' ∧
        sampleDeployment.ResetsKeepCover 2 w w') (World.start 2 [0, 1, 2]) w :=
    (run.induct _ (fun sound step guard before => before.tail
      ⟨step, guard.1, guard.2.resetsKeepCover sound⟩)
      (sound_initial ready rfl) .refl).2
  refine ⟨w, run.run, of_decide_eq_true checked, ?_⟩
  exact ready_covered_after_resets Digest.hashDeposit_ne_zero ready rfl guarded

end Samples

end Deployment

end BridgeService
