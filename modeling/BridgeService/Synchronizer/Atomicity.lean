import BridgeService.Bridgectrl.Recovery
import BridgeService.Synchronizer.BlockRun

/-!
# Atomicity of block ranges

The block loop stops at the first block that fails.  The loop is atomic if the
failing block leaves nothing behind: no open transaction, no effect on the
committed tables, and an exit tree that behaves like one rebuilt from them.
This holds exactly when the loop does not stop at an element that cannot be
handled, because these exits do not roll back.
-/

namespace BridgeService

open ErrorState List

variable {H : Type} [DecidableEq H] [Externals H]

namespace ClientSynchronizer

/-- The state in which a failed range leaves the service is that after the
blocks before the failing one, with the tree rebuilt from the database. -/
structure Atomic (s : ClientSynchronizer) (height : Nat)
    (order : H → List Order) (blocks : List (Block H))
    (before w : World H) : Prop where
  closed : w.dbTx = none ∧ w.openTxs = before.openTxs
  committed : ∃ done block rest gers middle err,
    blocks = done ++ block :: rest ∧
    s.processBlocks done order before = .ok gers middle ∧
    s.processBlock order gers block middle = .error err w ∧
    w.committed = middle.committed
  rebuilt : ∃ mt fresh w', w.exitTrees s.networkID = some mt ∧
    MerkleTree.newMerkleTree Storage.merkleTreeStore height s.networkID w =
      .ok fresh w' ∧
    mt.count = fresh.count ∧ MerkleTree.SameRoots height mt fresh

/-- The range gets to an element that cannot be handled: its position is not
in the block, or it is a global exit root with a wrong number of exit
roots. -/
def ReachesMalformed (s : ClientSynchronizer) (order : H → List Order)
    (blocks : List (Block H)) (before : World H) : Prop :=
  ∃ done block rest gers middle left, blocks = done ++ block :: rest ∧
    s.processBlocks done order before = .ok gers middle ∧
    s.StopsIn order gers block middle left

variable {s : ClientSynchronizer} {height : Nat} {before w w' : World H}
  {order : H → List Order} {blocks : List (Block H)}

theorem not_reachesMalformed
    (wellFormed : ∀ block, block ∈ blocks → ∀ element,
      element ∈ order block.blockHash → block.WellFormedAt element) :
    ¬s.ReachesMalformed order blocks before := by
  rintro ⟨done, block, rest, gers, middle, left, split, _, _, _, _, _,
    element, _, _, _, _, ordered, _, malformed⟩
  apply malformed
  apply wellFormed block
  · simp [split]
  · simp [ordered]

theorem processBlocks_ready (blocks : List (Block H))
    (withinCap : ∀ block, block ∈ blocks → block.WithinCap height)
    {gers gers' : NewGers} {before w : World H}
    (ready : s.Ready height before)
    (ran : blocks.foldlM (s.processBlock order) gers before = .ok gers' w) :
    s.Ready height w ∧ w.openTxs = before.openTxs := by
  induction blocks generalizing gers before with
  | nil =>
    cases ran
    exact ⟨ready, rfl⟩
  | cons block rest induction =>
    rw [foldlM_cons] at ran
    obtain ⟨middle, between, first, others⟩ := bind_ok ran
    obtain ⟨t, _, settled⟩ := processBlock_ok ready
      (withinCap block mem_cons_self) first
    obtain ⟨ready', same⟩ := induction
      (fun block inside => withinCap block (mem_cons_of_mem _ inside))
      (settled.ready ready) others
    exact ⟨ready', same.trans settled.openTxs⟩

omit [DecidableEq H] in
private theorem settled_closed {networkID : Nat} {t : Tables H}
    (settled : before.Settled networkID height t w) :
    w.dbTx = before.dbTx := by
  obtain ⟨mt, ⟨seqs, tick, rfl, _⟩, _⟩ := settled.session
  rfl

private theorem settled_rebuilt (ready : s.Ready height w) :
    ∃ mt fresh w', w.exitTrees s.networkID = some mt ∧
      MerkleTree.newMerkleTree Storage.merkleTreeStore height s.networkID
        w = .ok fresh w' ∧
      mt.count = fresh.count ∧ MerkleTree.SameRoots height mt fresh := by
  obtain ⟨mt, registered⟩ := ready.registered
  obtain ⟨network, represents⟩ :=
    ready.consistent.trees s.networkID mt registered
  obtain ⟨fresh, w', read, _, sameNetwork, _, freshRepresents⟩ :=
    (MerkleTree.newMerkleTree_triple ready.consistent.tables ready.small
      ready.injective (ready.consistent.capacity s.networkID)).exists_ok w
      (.refl w) fun _ _ failed => failed.2 ready.reads
  have freshRepresents := freshRepresents ready.reads
  refine ⟨mt, fresh, w', registered, read, ?_, ?_⟩
  · rw [represents.count_eq, freshRepresents.count_eq]
  · exact MerkleTree.sameRoots_of_represents ready.small represents
      freshRepresents (network.trans sameNetwork.symm)

private theorem stopsIn_open {block : Block H} {gers : NewGers}
    (ready : s.Ready height before) (withinCap : block.WithinCap height)
    (stops : s.StopsIn order gers block before w) :
    (∃ err, s.processBlock order gers block before = .error err w) ∧
      w.dbTx ≠ none := by
  obtain ⟨opened, blockID, started, done, element, rest, gers', began,
    stored, split, prior, malformed⟩ := stops
  obtain ⟨err, failed⟩ :=
    processElement_malformed (s := s) malformed blockID gers' w
  have elements : (order block.blockHash).foldlM
      (s.processElement block blockID) gers started = .error err w := by
    rw [split]
    exact foldlM_error_at prior failed
  obtain ⟨start, _, processing⟩ :=
    (addBlock_effect ready block).ok (begin_ok began) stored
  obtain ⟨_, t, _, _, processing'⟩ :=
    processElements_ok ready withinCap done processing prior
  refine ⟨⟨err, ?_⟩, ?_⟩
  · rw [processBlock, bind_of_ok began, bind_of_ok stored,
      bind_of_error elements]
  · obtain ⟨mt, ⟨seqs, tick, rfl, _⟩, _⟩ := processing'.session
    exact Option.some_ne_none t

/-- A range of blocks that fails is atomic exactly when it does not get to an
element that cannot be handled. -/
theorem processBlocks_atomic_iff (ready : s.Ready height before)
    (withinCap : ∀ block, block ∈ blocks → block.WithinCap height)
    {err : Err}
    (ran : s.processBlocks blocks order before = .error err w)
    (returned : err ≠ .panic) :
    s.Atomic height order blocks before w ↔
      ¬s.ReachesMalformed order blocks before := by
  constructor
  · rintro atomic ⟨done, block, rest, gers, middle, left, split, prior, stops⟩
    subst split
    have ready' := (processBlocks_ready done
      (fun block inside => withinCap block (mem_append_left _ inside))
      ready prior).1
    obtain ⟨⟨raised, failed⟩, leftOpen⟩ := stopsIn_open ready'
      (withinCap block (mem_append_right _ mem_cons_self)) stops
    rw [processBlocks, foldlM_error_at prior failed] at ran
    cases ran
    exact leftOpen atomic.closed.1
  · intro unreached
    obtain ⟨done, block, rest, gers, middle, split, prior, failed⟩ :=
      foldlM_error ran
    subst split
    obtain ⟨ready', sameTxs⟩ := processBlocks_ready done
      (fun block inside => withinCap block (mem_append_left _ inside))
      ready prior
    rcases processBlock_error ready'
      (withinCap block (mem_append_right _ mem_cons_self)) failed
      with panicked | settled | ⟨stops, _⟩
    · exact absurd panicked returned
    · exact
        { closed := ⟨(settled_closed settled).trans ready'.idle,
            settled.openTxs.trans sameTxs⟩
          committed := ⟨done, block, rest, gers, middle, err, rfl, prior,
            failed, settled.committed⟩
          rebuilt := settled_rebuilt (settled.ready ready') }
    · exact absurd ⟨done, block, rest, gers, middle, w, rfl, prior, stops⟩
        unreached

theorem missing_position_leaves_transaction_open :
    ∃ (err : Err) (w : World Digest),
      sampleSynchronizer.processBlocks [depositBlock 1 [sampleDeposit 1 0]]
          (depositOrder 2) (World.start 2 [1]) = .error err w ∧
        err ≠ .panic ∧ w.committed = Tables.empty ∧ w.openTxs = 1 ∧
        (∃ mt, w.exitTrees 1 = some mt ∧ mt.count = 1) ∧
        ¬sampleSynchronizer.Atomic 2 (depositOrder 2)
          [depositBlock 1 [sampleDeposit 1 0]] (World.start 2 [1]) w := by
  have raised : raises
      (sampleSynchronizer.processBlocks [depositBlock 1 [sampleDeposit 1 0]]
        (depositOrder 2))
      (fun err (w : World Digest) => err ≠ .panic &&
        w.committed = Tables.empty && w.openTxs = 1 &&
        (w.exitTrees 1).any fun mt => mt.count = 1)
      (World.start 2 [1]) = true := by
    decide +kernel
  obtain ⟨err, w, failed, checked⟩ := exists_of_raises raised
  simp only [Bool.and_eq_true, decide_eq_true_eq, Option.any_eq_true]
    at checked
  obtain ⟨⟨⟨returned, nothing⟩, oneOpen⟩, tree⟩ := checked
  refine ⟨err, w, failed, returned, nothing, oneOpen, tree, ?_⟩
  intro atomic
  have none := atomic.closed.2
  rw [oneOpen] at none
  exact Nat.one_ne_zero none

def failingCommits : World Digest :=
  { World.start 2 [1] with fault := fun _ call _ => call = .commit }

theorem failed_commit_is_atomic :
    ∃ (err : Err) (w : World Digest),
      sampleSynchronizer.processBlocks [depositBlock 1 [sampleDeposit 1 0]]
          (depositOrder 1) failingCommits = .error err w ∧
        sampleSynchronizer.Atomic 2 (depositOrder 1)
          [depositBlock 1 [sampleDeposit 1 0]] failingCommits w := by
  have raised : raises
      (sampleSynchronizer.processBlocks [depositBlock 1 [sampleDeposit 1 0]]
        (depositOrder 1))
      (fun err _ => err ≠ .panic) failingCommits = true := by
    decide +kernel
  obtain ⟨err, w, failed, returned⟩ := exists_of_raises raised
  have start := start_ready Digest.hash_injective 2 (by decide)
  have ready : sampleSynchronizer.Ready 2 failingCommits :=
    { small := start.small
      injective := start.injective
      consistent := ⟨start.consistent.tables, start.consistent.issued,
        start.consistent.capacity, start.consistent.trees⟩
      idle := rfl
      registered := start.registered
      reads := ⟨nofun, nofun, nofun⟩
      rollback := nofun
      retries := start.retries }
  have withinCap : ∀ block : Block Digest,
      block ∈ [depositBlock 1 [sampleDeposit 1 0]] →
        block.WithinCap 2 := by
    decide
  have wellFormed : ¬sampleSynchronizer.ReachesMalformed (depositOrder 1)
      [depositBlock 1 [sampleDeposit 1 0]] failingCommits := by
    apply not_reachesMalformed
    intro block blockIn element elementIn
    rw [mem_singleton.mp elementIn, mem_singleton.mp blockIn]
    exact ⟨.deposit (sampleDeposit 1 0), rfl, trivial⟩
  exact ⟨err, w, failed, (processBlocks_atomic_iff ready withinCap failed
    (by simpa using returned)).mpr wellFormed⟩

end ClientSynchronizer

end BridgeService
