import BridgeService.Cmd.ClaimProofs
import BridgeService.Cmd.Script

/-!
# What was published does not change

Every step of the service but a reset of L1 only appends leaves to the exit
tree of L1, and a reset cuts it, so that the first leaves stay what they are as
long as they are stored.  A Merkle
proof is read node by node from a cache and from the store.  What is returned
for a position under a root depends neither on what the cache holds nor on what
has been stored or deleted in the meantime.
-/

namespace BridgeService

open ErrorState PaddedTree List

variable {H : Type} [DecidableEq H] [Externals H]

section Leaves

variable {ctx : BlockContext H} {t t' : Tables H}

omit [DecidableEq H] in
private theorem DepositsPushed.leaves {height : Nat}
    {deposits : List (Deposit H)} (networkID : Nat)
    (pushed : DepositsPushed height deposits t t') :
    t.leavesOf networkID <+: t'.leavesOf networkID := by
  induction pushed with
  | nil => exact prefix_rfl
  | cons id fresh next others induction =>
    rw [Tables.leavesOf_pushDeposit] at induction
    exact (prefix_append _ _).trans induction

private theorem Applies.l1Leaves {event : Event H}
    (applies : Applies ctx t event t') : t.leavesOf 0 <+: t'.leavesOf 0 := by
  cases applies with
  | globalExitRootL1 id two fresh =>
    rw [BlockContext.completeL2_eq]
    exact prefix_rfl
  | removeL2GER low high found =>
    rw [Tables.leavesOf_congr (Tables.entries_setReady _ _ _)]
    exact prefix_rfl
  | deposit pushed => exact pushed.leaves 0
  | verifyBatch nonzero positive known added =>
    cases added with
    | known => exact prefix_rfl
    | new => exact prefix_rfl
  | @backwardLET backward notL1 previous enough reached =>
    have cuts := t.cutsAt_resetDeposits backward.newDepositCount ctx.networkID
    have same := Tables.leavesOf_deleteDeposits_other cuts (Ne.symm notL1)
    exact same ▸ prefix_rfl
  | forwardLET previous pushed reached => exact pushed.leaves 0
  | _ => exact prefix_rfl

private theorem AppliesAll.l1Leaves {events : List (Event H)}
    (applied : AppliesAll ctx events t t') :
    t.leavesOf 0 <+: t'.leavesOf 0 := by
  induction applied with
  | nil => exact prefix_rfl
  | cons applies others induction => exact applies.l1Leaves.trans induction

end Leaves

namespace Deployment

variable {d d' : Deployment} {height : Nat} {start start' w w' v v' : World H}

private theorem BlockCommits.l1Leaves {s : ClientSynchronizer}
    {order : H → List Order} {block : Block H} {t : Tables H}
    (commits : BlockCommits height s order block w t) :
    w.committed.leavesOf 0 <+: t.leavesOf 0 := by
  obtain ⟨blockID, start, events, added, _, applied⟩ := commits
  obtain ⟨rows, rfl, _⟩ := added.rest_eq
  exact applied.l1Leaves

private theorem Step.l1Leaves (step : d.Step height w w')
    (sound : d.Sound height w) :
    w.committed.leavesOf 0 <+: w'.committed.leavesOf 0 ∨
      ∃ s blockNumber, s ∈ d.synchronizers ∧ s.networkID = 0 ∧
        s.resetState blockNumber w = .ok () w' ∧
        w'.committed.leavesOf 0 <+: w.committed.leavesOf 0 := by
  cases step.change sound with
  | kept same => exact .inl (same ▸ prefix_rfl)
  | block s deployed order gers gers' block emitted inOrder ran commits =>
    exact .inl (BlockCommits.l1Leaves commits)
  | reset s deployed blockNumber ran committed =>
    have ready := sound.ready s deployed
    have limit : 2 ^ height ≤ 2 ^ 32 :=
      Nat.pow_le_pow_right (by omega) ready.small
    have cut := cutOff_reset ready.consistent.tables
      (sound.separated.chained.cutsAt_reset ready.consistent.tables
        (Nat.lt_of_lt_of_le (ready.consistent.capacity s.networkID) limit)
        blockNumber)
    rw [← committed] at cut
    by_cases l1 : s.networkID = 0
    · refine .inr ⟨s, blockNumber, deployed, l1, ran, ?_⟩
      rw [l1] at cut
      exact cut.same ▸ take_prefix _ _
    · exact .inl (cut.others 0 (Ne.symm l1) ▸ prefix_rfl)
  | trusted networkID deployed lastGER mainnet rollup added =>
    obtain ⟨_, _, committed⟩ := added.committed
    rw [committed]
    exact .inl prefix_rfl
  | status networkID deployed ger rest pending received updated =>
    have closed : ∀ (t : Tables H) matching,
        t.leavesOf 0 = w.committed.leavesOf 0 →
        (t.setReady true matching).leavesOf 0 = w.committed.leavesOf 0 :=
      fun t _ => (Tables.leavesOf_congr (t.entries_setReady _ _) 0).trans
    exact .inl (updated.preserves closed rfl ▸ prefix_rfl)

section Runs

variable (ready : ∀ s, s ∈ d.synchronizers → s.Ready height start)
  (empty : start.committed = Tables.empty) (earlier : d.Run height start w)

include ready empty earlier

/-- The events of a block of any network only append leaves to the exit tree
of L1, and so does every other step, unless it is a reset of L1, which leaves
an initial segment.  As long as a number of L1 deposits is stored, whatever the
parts of the service do, the leaves of these deposits are the same. -/
theorem l1_leaves_kept :
    (∀ (s : ClientSynchronizer) (order : H → List Order)
      (gers gers' : NewGers) (block : Block H) (w' : World H),
      s ∈ d.synchronizers → block.WithinCap height →
      s.processBlock order gers block w = .ok gers' w' →
      w.committed.leavesOf 0 <+: w'.committed.leavesOf 0) ∧
    (∀ w', d.Step height w w' →
      w.committed.leavesOf 0 <+: w'.committed.leavesOf 0 ∨
        ∃ s blockNumber, s ∈ d.synchronizers ∧ s.networkID = 0 ∧
          s.resetState blockNumber w = .ok () w' ∧
          w'.committed.leavesOf 0 <+: w.committed.leavesOf 0) ∧
    ∀ count w', count ≤ (w.committed.leavesOf 0).length →
      d.RunWhere height
        (fun _ next => count ≤ (next.committed.leavesOf 0).length) w w' →
      (w'.committed.leavesOf 0).take count =
        (w.committed.leavesOf 0).take count := by
  have sound := earlier.sound (sound_initial ready empty)
  refine ⟨?_, fun w' step => step.l1Leaves sound, ?_⟩
  · intro s order gers gers' block w' deployed withinCap ran
    obtain ⟨t, commits, settled⟩ :=
      ClientSynchronizer.processBlock_ok (sound.ready s deployed) withinCap ran
    rw [settled.committed]
    exact BlockCommits.l1Leaves commits
  intro count w' enough run
  refine (run.induct (fun other =>
    count ≤ (other.committed.leavesOf 0).length ∧
      (other.committed.leavesOf 0).take count =
        (w.committed.leavesOf 0).take count) ?_ sound ⟨enough, rfl⟩).2.2
  rintro other next sound step stored ⟨long, same⟩
  refine ⟨stored, same ▸ ?_⟩
  rcases step.l1Leaves sound with grows | ⟨_, _, _, _, _, cut⟩
  · obtain ⟨rest, appended⟩ := grows
    rw [← appended, take_append_of_le_length long]
  · obtain ⟨rest, appended⟩ := cut
    rw [← appended, take_append_of_le_length stored]

/-- Proofs of a position under a root are the same in all states of all
runs, whatever valid nodes the caches hold. -/
theorem proofs_do_not_change
    (ready' : ∀ s, s ∈ d'.synchronizers → s.Ready height start')
    (empty' : start'.committed = Tables.empty)
    (run' : d'.Run height start' w') {dbTx dbTx' : Querier}
    (view : v.view dbTx = some w.committed)
    (view' : v'.view dbTx' = some w'.committed) {s : BridgeServer}
    {index : Nat} {root : H} {cache cache' : NodeCache H}
    (valid : cache.Valid) (valid' : cache'.Valid) {proof proof' : List H}
    {state state' : NodeCache H × World H}
    (returned : s.getProof index root dbTx (cache, v) = .ok proof state)
    (returned' : s.getProof index root dbTx' (cache', v') =
      .ok proof' state') : proof = proof' := by
  have sound := (earlier.sound (sound_initial ready empty)).readyL1
  have sound' := (run'.sound (sound_initial ready' empty')).readyL1
  obtain ⟨_, length, leaf, path⟩ := (BridgeServer.getProof_path
    sound.consistent.tables view s index root).ok ⟨valid, .refl v⟩ returned
  obtain ⟨_, length', leaf', path'⟩ := (BridgeServer.getProof_path
    sound'.consistent.tables view' s index root).ok ⟨valid', .refl v'⟩
    returned'
  have same := (path_eq_of_climb_eq sound.injective
    (path.trans path'.symm)).2
  apply List.ext_getElem (length.trans length'.symm)
  intro level below below'
  simpa [below, below'] using same level (length ▸ below)

end Runs

section Samples

private def readFirst : Serving Digest (List Digest) :=
  sampleServer.getProof 0 (treeRoot 2 [hashDeposit (sampleDeposit 0 0)]) .pool

private theorem two_deposits_and_reset :
    ∃ mid w : World Digest,
      sampleDeployment.Run 2 (World.start 2 [0, 1, 2]) mid ∧
      sampleDeployment.RunWhere 2
        (fun _ next => 1 ≤ (next.committed.leavesOf 0).length) mid w ∧
      (mid.committed.leavesOf 0).length = 1 ∧
      returns readFirst (fun _ _ => true) (sampleCache, mid) = true ∧
      returns readFirst (fun _ _ => true) (sampleCache, w) = true := by
  have followed : sampleDeployment.follows 2 (fun _ _ => True)
      (fun mid => sampleDeployment.follows 2
        (fun _ next => 1 ≤ (next.committed.leavesOf 0).length)
        (fun w => decide ((mid.committed.leavesOf 0).length = 1) &&
          (returns readFirst (fun _ _ => true) (sampleCache, mid) &&
            returns readFirst (fun _ _ => true) (sampleCache, w)))
        [.block 0 (depositOrder 1) (depositBlock 2 [sampleDeposit 0 1]),
          .reset 0 1] mid)
      [.block 0 (depositOrder 1) (depositBlock 1 [sampleDeposit 0 0])]
      (World.start 2 [0, 1, 2]) = true := by
    decide +kernel
  obtain ⟨mid, first, followed⟩ := run_of_follows followed
  obtain ⟨w, second, held⟩ := run_of_follows followed
  simp only [Bool.and_eq_true, decide_eq_true_eq] at held
  exact ⟨mid, w, first.run, second, held⟩

theorem first_leaf_kept :
    ∃ mid w : World Digest, (mid.committed.leavesOf 0).length = 1 ∧
      (w.committed.leavesOf 0).take 1 = (mid.committed.leavesOf 0).take 1 := by
  obtain ⟨mid, w, run, later, length, _⟩ := two_deposits_and_reset
  exact ⟨mid, w, length, (l1_leaves_kept
    (sampleDeployment_ready Digest.hash_injective 2 (by decide)) rfl
    run).2.2 1 w length.ge later⟩

theorem first_proof_does_not_change :
    ∃ (mid w : World Digest) (proof proof' : List Digest)
        (state state' : NodeCache Digest × World Digest),
      readFirst (sampleCache, mid) = .ok proof state ∧
      readFirst (sampleCache, w) = .ok proof' state' ∧ proof = proof' := by
  obtain ⟨mid, w, run, later, _, here, there⟩ := two_deposits_and_reset
  obtain ⟨proof, state, returned, _⟩ := exists_of_returns here
  obtain ⟨proof', state', returned', _⟩ := exists_of_returns there
  have ready := sampleDeployment_ready Digest.hash_injective 2 (by decide)
  exact ⟨mid, w, proof, proof', state, state', returned, returned',
    proofs_do_not_change ready rfl run ready rfl (run.trans later.run) rfl rfl
      sampleCache_valid sampleCache_valid returned returned'⟩

end Samples

end Deployment

end BridgeService
