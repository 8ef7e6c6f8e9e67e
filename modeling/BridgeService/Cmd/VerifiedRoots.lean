import BridgeService.Cmd.Run
import BridgeService.Storage.Roots
import BridgeService.Synchronizer.Replay

/-!
# Local exit roots of verified batches

A verified batch of a rollup that the service follows is stored only if its
local exit root is a stored root of the rollup.  Stored roots are roots after
deposits that are still stored, so the check fails for the root of the empty
tree, and for roots from which a BackwardLET event has moved the rollup away.
-/

namespace BridgeService

open ErrorState

variable {H α : Type} [DecidableEq H] [Externals H]

/-- A state in the course of a block: the block is stored, and some of its
elements have been handled. -/
inductive ClientSynchronizer.InBlock (s : ClientSynchronizer)
    (block : Block H) (w : World H) (blockID : Nat) (v : World H) : Prop
  | intro (elements : List Order) (gers gers' : NewGers)
      (opened started : World H)
      (began : Storage.beginDBTransaction w = .ok () opened)
      (stored : s.orRollback (Storage.addBlock block s.networkID .tx)
        opened = .ok blockID started)
      (handled : elements.foldlM (s.processElement block blockID) gers
        started = .ok gers' v)

omit [DecidableEq H] in
theorem World.Processing.view {w v : World H} {networkID height : Nat}
    {t : Tables H} (processing : w.Processing networkID height t v) :
    v.view .tx = some t := by
  obtain ⟨mt, ⟨seqs, tick, rfl, _⟩, _⟩ := processing.session
  rfl

namespace ClientSynchronizer

variable {s : ClientSynchronizer} {height : Nat} {w v : World H}
  {t : Tables H} {block : Block H} {blockID : Nat}

theorem InBlock.processing (inBlock : s.InBlock block w blockID v)
    (ready : s.Ready height w) (withinCap : block.WithinCap height) :
    ∃ t, w.Processing s.networkID height t v := by
  cases inBlock with
  | intro elements gers gers' opened started began stored handled =>
    obtain ⟨start, _, processing⟩ :=
      (addBlock_effect ready block).ok (begin_ok began) stored
    obtain ⟨_, t, _, _, processing⟩ :=
      processElements_ok ready withinCap elements processing handled
    exact ⟨t, processing⟩

private theorem orRollback_raised (ready : s.Ready height w)
    {call : Service H α} {v' : World H} {err : Err}
    (working : ∀ raised next, call v = .error raised next →
      w.opened.Working .tx s.networkID height next)
    (ran : s.orRollback call v = .error err v') :
    ∃ next, call v = .error err next := by
  rw [orRollback, handle] at ran
  cases called : call v with
  | ok value next => simp [called] at ran
  | error raised next =>
    simp only [called] at ran
    have undone : ∀ err v', (s.rollback raised : Service H α) next =
        .error err v' → err = raised := by
      intro err v' ran
      exact ((rollback_triple ready raised).error
        (working raised next called) ran).1
    cases raised with
    | panic =>
      injection ran with same
      exact ⟨next, by rw [same]⟩
    | _ =>
      have same := undone err v' ran
      exact ⟨next, by rw [same]⟩

section Raised

variable {dbTx : Querier}

omit [DecidableEq H] [Externals H] in
private theorem exec_raised {call : StorageCall}
    {statement : Sequences → Tables H → Except Err (α × Sequences × Tables H)}
    (total : ∀ seqs t, ∃ result, statement seqs t = .ok result) :
    Triple (fun _ => True) (Storage.exec call dbTx statement)
      (fun _ _ => True) (fun err _ => err ≠ .rootDoesNotExist) := by
  apply Triple.intro
  · intro w value w' _ ran
    trivial
  · intro w err w' _ ran
    rw [Storage.exec] at ran
    split at ran
    · injection ran with same
      simp [← same]
    · split at ran
      · injection ran with same
        simp [← same]
      · next t _ =>
        obtain ⟨result, found⟩ := total w.seqs t
        simp [found] at ran

omit [DecidableEq H] [Externals H] in
private theorem query_raised {call : StorageCall} (read : Tables H → α) :
    Triple (fun _ => True)
      (Storage.query call dbTx fun t => .ok (read t))
      (fun _ _ => True) (fun err _ => err ≠ .rootDoesNotExist) := by
  apply exec_raised
  intro seqs t
  exact ⟨(read t, seqs, t), rfl⟩

omit [DecidableEq H] [Externals H] in
private theorem addRollupExitLeaves_raised
    (rows : List (RollupExitInsert H)) :
    Triple (fun _ => True) (Storage.addRollupExitLeaves rows dbTx)
      (fun _ _ => True) (fun err _ => err ≠ .rootDoesNotExist) := by
  apply exec_raised
  intro seqs t
  exact ⟨_, rfl⟩

private theorem addRollupExitLeaf_raised (rollupLeaf : RollupExitLeaf H) :
    Triple (fun _ => True)
      (BridgeController.addRollupExitLeaf rollupLeaf dbTx)
      (fun _ _ => True)
      (fun err (_ : World H) => err ≠ .rootDoesNotExist) := by
  intro w _
  rw [BridgeController.addRollupExitLeaf]
  have thrown : ∀ {err : Err}, err ≠ .rootDoesNotExist →
      Triple (fun _ => True) (throw err : Service H Unit) (fun _ _ => True)
        (fun err _ => err ≠ .rootDoesNotExist) := by
    intro err other
    exact .throw fun _ _ => other
  have stored : ∀ (mt : MerkleTree H) leaves,
      Triple (fun _ => True)
        (MerkleTree.storeLeaves Storage.merkleTreeStore mt leaves
          rollupLeaf.blockID dbTx)
        (fun _ _ => True)
        (fun err _ => err ≠ .rootDoesNotExist) := by
    intro mt leaves
    have rooted : ∀ {err : Err},
        MerkleTree.buildMTRoot mt.height leaves = .error err →
        err ≠ .rootDoesNotExist := by
      intro err failed
      rw [MerkleTree.buildMTRoot] at failed
      dsimp only at failed
      split at failed
      · contradiction
      · injection failed with same
        simp [← same]
    rw [MerkleTree.storeLeaves]
    cases built : MerkleTree.buildMTRoot mt.height leaves with
    | error err => exact thrown (rooted built)
    | ok root =>
      have first : Triple (fun _ => True) (pure root : Service H H)
          (fun _ _ => True) (fun err _ => err ≠ .rootDoesNotExist) :=
        .pure fun _ _ => trivial
      refine .bind first fun root => ?_
      refine .bind (query_raised _) fun exist => ?_
      apply Triple.ite
      · intro _
        exact addRollupExitLeaves_raised _
      · intro _
        exact .pure fun _ _ => trivial
  refine (Triple.bind (query_raised _) fun leaves => ?_) w trivial
  apply Triple.ite
  · intro _
    exact thrown (by simp)
  · intro _
    dsimp only
    split
    · exact thrown (by simp)
    · apply Triple.ite
      · intro _
        exact stored _ _
      · intro _
        exact thrown (by simp)

end Raised

private theorem checkIfRootExists_run
    (processing : w.Processing s.networkID height t v) (root : H)
    (network : Nat) :
    ∃ v', Storage.checkIfRootExists root network .tx v =
        .ok (!v.fault v.tick .checkIfRootExists .tx &&
          t.checkIfRootExists root network) v' ∧
      w.Processing s.networkID height t v' := by
  have ran : Storage.checkIfRootExists root network .tx v =
      .ok (!v.fault v.tick .checkIfRootExists .tx &&
        t.checkIfRootExists root network) v.advance := by
    cases fault : v.fault v.tick .checkIfRootExists .tx with
    | true =>
      rw [Storage.checkIfRootExists, handle, Storage.query,
        Storage.exec_faulty fault]
      rfl
    | false =>
      rw [Storage.checkIfRootExists, handle,
        Storage.query_view fault processing.view]
      rfl
  exact ⟨v.advance, ran,
    ((checkIfRootExists_processing root network).ok processing ran).1⟩

theorem processVerifyBatch_rejects_iff (ready : s.Ready height w)
    (processing : w.Processing s.networkID height t v)
    {batch : VerifiedBatch H} (nonzero : batch.localExitRoot ≠ hashZero)
    (followed : batch.rollupID ∈ s.allNetworkIDs) :
    (∃ v', s.processVerifyBatch batch blockID v =
      .error .rootDoesNotExist v') ↔
      ¬(v.fault v.tick .checkIfRootExists .tx = false ∧
        t.checkIfRootExists batch.localExitRoot batch.rollupID = true) := by
  obtain ⟨v₁, checked, processing₁⟩ := checkIfRootExists_run processing
    batch.localExitRoot batch.rollupID
  have called : s.orRollback (Storage.checkIfRootExists batch.localExitRoot
      batch.rollupID .tx) v = .ok (!v.fault v.tick .checkIfRootExists .tx &&
          t.checkIfRootExists batch.localExitRoot batch.rollupID) v₁ := by
    rw [orRollback, handle, checked]
  have condition : (v.fault v.tick .checkIfRootExists .tx = false ∧
      t.checkIfRootExists batch.localExitRoot batch.rollupID = true) ↔
      (!v.fault v.tick .checkIfRootExists .tx &&
        t.checkIfRootExists batch.localExitRoot batch.rollupID) = true := by
    simp
  rw [condition, processVerifyBatch, if_neg nonzero, if_pos followed]
  simp only [bind_of_ok called]
  cases (!v.fault v.tick .checkIfRootExists .tx &&
    t.checkIfRootExists batch.localExitRoot batch.rollupID) with
  | false =>
    simp only [Bool.not_false, if_true, Bool.false_eq_true,
      not_false_eq_true, iff_true]
    have undone := (rollback_triple (α := PUnit) ready
      .rootDoesNotExist) v₁ processing₁.working
    cases rolled : (s.rollback .rootDoesNotExist : Service H PUnit) v₁ with
    | ok value next =>
      rw [rolled] at undone
      exact undone.elim
    | error err next =>
      rw [rolled] at undone
      rw [undone.1] at rolled
      exact ⟨next, bind_of_error rolled⟩
  | true =>
    simp only [Bool.not_true, Bool.false_eq_true, if_false, not_true,
      iff_false]
    rintro ⟨v', failed⟩
    obtain ⟨next, raised⟩ := orRollback_raised ready
      (fun _ _ failed =>
        (addRollupExitLeaf_processing _).error processing₁ failed)
      failed
    exact (addRollupExitLeaf_raised _).error trivial raised rfl

end ClientSynchronizer

namespace Deployment

variable {d : Deployment} {height : Nat} {start mid w v : World H}
  {block : Block H} {blockID : Nat} {batch : VerifiedBatch H}

/-- A verified batch with an exit root that the rollup had is accepted if the
deposits under this root are the first ones that are stored. -/
theorem verified_root_accepted_iff
    (nonzero : ∀ deposit : Deposit H, hashDeposit deposit ≠ hashZero)
    (ready : ∀ s, s ∈ d.synchronizers → s.Ready height start)
    (empty : start.committed = Tables.empty)
    (early : d.Run height start mid) (later : d.Run height mid w)
    (followed : batch.rollupID ∈ d.networkIDs)
    (known : batch.localExitRoot =
      treeRoot height (mid.committed.leavesOf batch.rollupID))
    (notZero : batch.localExitRoot ≠ hashZero)
    (withinCap : block.WithinCap height)
    (inBlock : d.l1.InBlock block w blockID v) :
    (¬∃ v', d.l1.processVerifyBatch batch blockID v =
      .error .rootDoesNotExist v') ↔
      v.fault v.tick .checkIfRootExists .tx = false ∧
      mid.committed.leavesOf batch.rollupID <+:
        w.committed.leavesOf batch.rollupID ∧
      mid.committed.leavesOf batch.rollupID ≠ [] := by
  have soundMid := early.sound (sound_initial ready empty)
  have sound := later.sound soundMid
  have readyL1 := sound.readyL1
  obtain ⟨t, processing⟩ := inBlock.processing readyL1 withinCap
  have leaves : t.leavesOf batch.rollupID =
      w.committed.leavesOf batch.rollupID :=
    processing.others batch.rollupID (d.notL1 batch.rollupID followed)
  have full : ∀ (t : Tables H) leaf, leaf ∈ t.leavesOf batch.rollupID →
      leaf ≠ hashZero :=
    fun _ _ inside => Tables.leaf_ne_zero nonzero inside
  have member : batch.rollupID ∈ d.l1.allNetworkIDs :=
    List.mem_cons_of_mem 0 followed
  rw [ClientSynchronizer.processVerifyBatch_rejects_iff readyL1 processing
    notZero member, not_not, known,
    processing.tables.checkIfRootExists_root_iff readyL1.injective
      (full mid.committed) (full t), leaves]
  · exact Nat.le_of_lt (soundMid.readyL1.consistent.capacity batch.rollupID)
  · rw [leaves]
    exact Nat.le_of_lt (readyL1.consistent.capacity batch.rollupID)

section Samples

def sampleBatch (localExitRoot : Digest) : VerifiedBatch Digest :=
  { blockNumber := 0
    rollupID := 1
    localExitRoot := localExitRoot }

/-- The rollup makes a deposit, and then a BackwardLET event deletes it. -/
theorem verified_root_forgotten :
    ∃ (mid w v v' : World Digest) (blockID : Nat),
      sampleDeployment.Run 2 (World.start 2 [0, 1, 2]) mid ∧
        sampleDeployment.Run 2 mid w ∧
        mid.committed.leavesOf 1 = [hashDeposit (sampleDeposit 1 0)] ∧
        w.committed.leavesOf 1 = [] ∧
        sampleDeployment.l1.InBlock (depositBlock 3 []) w blockID v ∧
        sampleDeployment.l1.processVerifyBatch
          (sampleBatch (treeRoot 2 [hashDeposit (sampleDeposit 1 0)]))
          blockID v = .error .rootDoesNotExist v' := by
  let leaf : Digest := hashDeposit (sampleDeposit 1 0)
  have returned : commits 2 (sampleDeployment.l2 1) backwardOrder
      (depositBlock 1 [sampleDeposit 1 0])
      (fun mid => decide (mid.committed.leavesOf 1 = [leaf]) &&
        commits 2 (sampleDeployment.l2 1) backwardOrder backwardBlock
          (fun w => decide (w.committed.leavesOf 1 = []) &&
            returns Storage.beginDBTransaction (fun _ opened =>
              returns (sampleDeployment.l1.orRollback
                  (Storage.addBlock (depositBlock 3 []) 0 .tx))
                (fun blockID v =>
                  raises (sampleDeployment.l1.processVerifyBatch
                      (sampleBatch (treeRoot 2 [leaf])) blockID)
                    (fun err _ => err = .rootDoesNotExist) v) opened) w)
          mid)
      (World.start 2 [0, 1, 2]) = true := by
    decide +kernel
  obtain ⟨mid, first, held⟩ := step_of_commits (d := sampleDeployment)
    (by decide) returned
  obtain ⟨one, held⟩ := Bool.and_eq_true_iff.mp held
  obtain ⟨w, second, held⟩ := step_of_commits (d := sampleDeployment)
    (by decide) held
  obtain ⟨none, held⟩ := Bool.and_eq_true_iff.mp held
  obtain ⟨_, opened, began, held⟩ := exists_of_returns held
  obtain ⟨blockID, v, stored, held⟩ := exists_of_returns held
  obtain ⟨err, v', rejected, missing⟩ := exists_of_raises held
  rw [of_decide_eq_true missing] at rejected
  exact ⟨mid, w, v, v', blockID, .single first, .single second,
    of_decide_eq_true one, of_decide_eq_true none,
    .intro [] ⟨false, false⟩ _ opened v began stored rfl, rejected⟩

theorem verified_root_of_stored_deposit :
    ∃ (w v : World Digest) (blockID : Nat),
      sampleDeployment.Run 2 (World.start 2 [0, 1, 2]) w ∧
        sampleDeployment.l1.InBlock (depositBlock 3 []) w blockID v ∧
        ¬∃ v', sampleDeployment.l1.processVerifyBatch
          (sampleBatch (treeRoot 2 [hashDeposit (sampleDeposit 1 0)]))
          blockID v = .error .rootDoesNotExist v' := by
  let leaf : Digest := hashDeposit (sampleDeposit 1 0)
  have returned : commits 2 (sampleDeployment.l2 1) (depositOrder 1)
      (depositBlock 1 [sampleDeposit 1 0])
      (fun w => decide (w.committed.leavesOf 1 = [leaf]) &&
        returns Storage.beginDBTransaction (fun _ opened =>
          returns (sampleDeployment.l1.orRollback
              (Storage.addBlock (depositBlock 3 []) 0 .tx))
            (fun _ v => !v.fault v.tick .checkIfRootExists .tx) opened) w)
      (World.start 2 [0, 1, 2]) = true := by
    decide +kernel
  obtain ⟨w, step, held⟩ := step_of_commits (d := sampleDeployment)
    (by decide) returned
  obtain ⟨one, held⟩ := Bool.and_eq_true_iff.mp held
  obtain ⟨_, opened, began, held⟩ := exists_of_returns held
  obtain ⟨blockID, v, stored, answers⟩ := exists_of_returns held
  have one : w.committed.leavesOf 1 = [leaf] := of_decide_eq_true one
  have inBlock : sampleDeployment.l1.InBlock (depositBlock 3 []) w blockID
      v :=
    .intro [] ⟨false, false⟩ _ opened v began stored rfl
  refine ⟨w, v, blockID, .single step, inBlock, ?_⟩
  refine (verified_root_accepted_iff Digest.hashDeposit_ne_zero
    (sampleDeployment_ready Digest.hash_injective 2 (by decide)) rfl
    (.single step) .refl (by decide) ?_ (by decide) (by decide)
    inBlock).mpr ⟨?_, List.prefix_rfl, ?_⟩
  · show treeRoot 2 [leaf] = treeRoot 2 (w.committed.leavesOf 1)
    rw [one]
  · simpa using answers
  · show w.committed.leavesOf 1 ≠ []
    rw [one]
    simp

end Samples

end Deployment

end BridgeService
