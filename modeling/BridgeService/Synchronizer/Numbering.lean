import BridgeService.Storage.Roots
import BridgeService.Synchronizer.SyncRun

/-!
# Numbering of deposits

After every commit, reset or rollback of a synchronizer the deposits of its
network are numbered without gaps, in the order of their blocks.  Each of them
has one root, all roots are different, and the exit tree and both counting
queries agree on the number of deposits.
-/

namespace BridgeService

open ErrorState Ledger List

variable {H : Type} [Externals H]

/-- The deposits of a network are numbered, and everything that counts them
agrees. -/
structure World.Numbered (w : World H) (networkID height : Nat) : Prop where
  counts : (w.committed.depositsOf networkID).map DepositRow.depositCnt =
    List.range (w.committed.depositsOf networkID).length
  ordered : (w.committed.depositsOf networkID).Pairwise fun first second =>
    ∃ early late, w.committed.blockNumOf first = some early ∧
      w.committed.blockNumOf second = some late ∧ early ≤ late
  roots : ∀ row, row ∈ w.committed.depositsOf networkID →
    (w.committed.root.filter fun root => root.depositID == row.id) =
      [{ root := treeRoot height
           (((w.committed.depositsOf networkID).take
             (row.depositCnt + 1)).map DepositRow.leaf)
         depositID := row.id
         network := networkID }]
  distinct : ((w.committed.root.filter fun root =>
    root.network == networkID).map RootRow.root).Nodup
  tree : ∃ mt, w.exitTrees networkID = some mt ∧
    mt.count = (w.committed.depositsOf networkID).length
  numberDeposits : ∀ blockNumber,
    (∀ block, block ∈ w.committed.block → block.networkID = networkID →
      block.blockNum ≤ blockNumber) →
    w.committed.getNumberDeposits networkID blockNumber =
      (w.committed.depositsOf networkID).length
  lastDepositCount : w.committed.getLastDepositCount networkID =
    if (w.committed.depositsOf networkID).length = 0 then
      .error .storageNotFound
    else
      .ok ((w.committed.depositsOf networkID).length - 1)

namespace Tables

variable {t : Tables H} {height networkID : Nat}

theorem TreeTables.counts_increasing (tree : t.TreeTables height)
    (networkID : Nat) :
    (t.depositsOf networkID).Pairwise fun first second =>
      first.depositCnt < second.depositCnt := by
  have increasing := pairwise_lt_range
    (n := (t.depositsOf networkID).length)
  rw [← tree.counts_eq networkID, pairwise_map] at increasing
  exact increasing

end Tables

namespace ClientSynchronizer

variable [DecidableEq H] {s : ClientSynchronizer} {height : Nat}
  {start w : World H}

omit [DecidableEq H] in
private theorem numbered_of_ready (ready : s.Ready height w)
    (chained : w.committed.Chained)
    (nonzero : ∀ deposit : Deposit H, hashDeposit deposit ≠ hashZero) :
    w.Numbered s.networkID height := by
  have limit : 2 ^ height ≤ 2 ^ 32 :=
    Nat.pow_le_pow_right (by omega) ready.small
  have tree := ready.consistent.tables
  have capacity := ready.consistent.capacity s.networkID
  have length := w.committed.length_leavesOf s.networkID
  constructor
  · exact tree.counts_eq s.networkID
  · apply (tree.counts_increasing s.networkID).imp_of_mem
    intro first second firstIn secondIn less
    obtain ⟨firstIn, firstNetwork⟩ := mem_filter.mp firstIn
    obtain ⟨secondIn, secondNetwork⟩ := mem_filter.mp secondIn
    obtain ⟨early, firstNumber⟩ := chained.exists_number firstIn
    obtain ⟨late, secondNumber⟩ := chained.exists_number secondIn
    refine ⟨early, late, firstNumber, secondNumber, ?_⟩
    refine chained.ordered first second firstIn secondIn ?_
      (Nat.le_of_lt less) early late firstNumber secondNumber
    exact (of_decide_eq_true firstNetwork).trans
      (of_decide_eq_true secondNetwork).symm
  · intro row inside
    obtain ⟨stored, onNetwork⟩ := mem_filter.mp inside
    rw [tree.roots_of_deposit stored, of_decide_eq_true onNetwork,
      Tables.leavesOf_eq_map, map_take]
  · exact tree.roots_nodup ready.injective nonzero (Nat.le_of_lt capacity)
  · obtain ⟨mt, registered⟩ := ready.registered
    obtain ⟨_, represents⟩ := ready.consistent.trees s.networkID mt registered
    exact ⟨mt, registered, represents.count_eq.trans length⟩
  · intro blockNumber last
    rw [chained.getNumberDeposits_eq tree
      (Nat.lt_of_lt_of_le capacity limit) last, length]
  · rw [← length]
    by_cases empty : w.committed.leavesOf s.networkID = []
    · rw [tree.getLastDepositCount_empty empty, empty]
      rfl
    · rw [tree.getLastDepositCount_eq empty, if_neg]
      simpa using empty

/-- In every run of a synchronizer from an empty database, the deposits of its
network are numbered. -/
theorem sync_run_numbers_deposits
    (nonzero : ∀ deposit : Deposit H, hashDeposit deposit ≠ hashZero)
    (ready : s.Ready height start) (initial : start.Initial height)
    (run : s.SyncRun height start w) : w.Numbered s.networkID height := by
  have chained : start.committed.Chained := by
    rw [initial.committed]
    exact Tables.chained_empty
  obtain ⟨ready', chained'⟩ := run.ready ready chained
  exact numbered_of_ready ready' chained' nonzero

theorem two_deposits_are_numbered :
    ∃ w : World Digest, sampleSynchronizer.SyncRun 2 (World.start 2 [1]) w ∧
      w.Numbered 1 2 ∧ (w.committed.depositsOf 1).length = 2 := by
  have returned : returns
      (sampleSynchronizer.processBlock (depositOrder 2) ⟨false, false⟩
        (depositBlock 1 [sampleDeposit 1 0, sampleDeposit 1 1]))
      (fun _ w => (w.committed.depositsOf 1).length = 2)
      (World.start 2 [1] : World Digest) = true := by
    decide +kernel
  obtain ⟨gers, w, ran, length⟩ := exists_of_returns returned
  have run : sampleSynchronizer.SyncRun 2 (World.start 2 [1]) w :=
    .single (.commit _ _ gers _ (by decide) ⟨nofun, nofun⟩ ran)
  refine ⟨w, run, ?_, of_decide_eq_true length⟩
  exact sync_run_numbers_deposits
    Digest.hashDeposit_ne_zero
    (start_ready Digest.hash_injective 2 (by decide))
    (World.start_initial 2 [1]) run

end ClientSynchronizer

end BridgeService
