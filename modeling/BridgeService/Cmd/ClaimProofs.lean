import BridgeService.Cmd.Run
import BridgeService.Server.Acceptance

/-!
# Claim proofs of the deployed service

In every state that the service reaches, a claim proof that is returned for a
stored deposit is accepted by the contract exactly if the exit root under which
it was read belongs to a tree that has the deposit.  A root that is older than
the deposit has an empty leaf there, and the proof that is returned is one for
the empty leaf.
-/

namespace BridgeService

open ErrorState PaddedTree

variable {H : Type} [DecidableEq H] [Externals H]

omit [DecidableEq H] in
theorem Tables.RootAt.hasLeaf_iff {t : Tables H} {height count : Nat}
    {root : H} {d : DepositRow H} (tree : t.TreeTables height)
    (injective : Function.Injective2 (hash : H → H → H))
    (nonzero : ∀ deposit : Deposit H, hashDeposit deposit ≠ hashZero)
    (fits : (t.leavesOf d.networkID).length ≤ 2 ^ height)
    (rootAt : t.RootAt height d.networkID count root)
    (stored : d ∈ t.deposit) :
    HasLeaf hash height root d.depositCnt d.leaf ↔ d.depositCnt ≤ count := by
  have inside := tree.count_lt stored
  have leaf := tree.leaf_at stored
  rw [rootAt.2, treeRoot, hasLeaf_root injective (by omega), padded_take]
  split
  · next below =>
    rw [padded, List.getD_eq_getElem?_getD, leaf]
    exact ⟨fun _ => by omega, fun _ => rfl⟩
  · next above =>
    constructor
    · intro zero
      exact absurd zero (nonzero _)
    · intro bound
      omega

namespace Deployment

variable {d : Deployment} {height : Nat} {start w v : World H}

/-- A claim proof of a stored deposit is accepted if the tree under the entry
of the call has the deposit; under the root after a deposit these are the
deposits up to it. -/
theorem claim_proof_accepted_iff
    (nonzero : ∀ deposit : Deposit H, hashDeposit deposit ≠ hashZero)
    (ready : ∀ s, s ∈ d.synchronizers → s.Ready height start)
    (empty : start.committed = Tables.empty)
    (run : d.Run height start w) {dbTx : Querier}
    (view : v.view dbTx = some w.committed) {s : BridgeServer}
    (sameHeight : s.height = height) {cache : NodeCache H}
    (valid : cache.Valid) {deposit : DepositRow H}
    (stored : deposit ∈ w.committed.deposit) (call : ClaimProofCall H)
    {proof : ClaimProof H} {state : NodeCache H × World H}
    (returned : call.run s deposit.depositCnt deposit.networkID dbTx
      (cache, v) = .ok proof state) :
    (proof.Accepted height deposit.depositCnt deposit.networkID deposit.leaf ↔
      ∃ entry root,
        w.committed.claimEntry s call deposit.networkID deposit.destNet =
          .ok entry ∧
        w.committed.localExitRoot deposit.networkID entry.exitRoots =
          some root ∧
        HasLeaf hash height root deposit.depositCnt deposit.leaf) ∧
    ∀ entry root count,
      w.committed.claimEntry s call deposit.networkID deposit.destNet =
        .ok entry →
      w.committed.localExitRoot deposit.networkID entry.exitRoots = some root →
      w.committed.RootAt height deposit.networkID count root →
      (proof.Accepted height deposit.depositCnt deposit.networkID
          deposit.leaf ↔
        deposit.depositCnt ≤ count) := by
  have sound := (run.sound (sound_initial ready empty)).readyL1
  have tree := sound.consistent.tables
  have small : height ≤ 64 := sound.small.trans (by decide)
  obtain ⟨_, entry, root, chosen, under, accepted⟩ :=
    (call.run_sound tree sound.injective sameHeight small view stored).ok
      ⟨valid, .refl v⟩ returned
  constructor
  · constructor
    · intro holds
      exact ⟨entry, root, chosen, under, (accepted _).mp holds⟩
    · rintro ⟨entry', root', chosen', under', has⟩
      obtain rfl := Except.ok.inj (chosen.symm.trans chosen')
      obtain rfl := Option.some.inj (under.symm.trans under')
      exact (accepted _).mpr has
  · intro entry' root' count chosen' under' rootAt
    obtain rfl := Except.ok.inj (chosen.symm.trans chosen')
    obtain rfl := Option.some.inj (under.symm.trans under')
    rw [accepted]
    exact rootAt.hasLeaf_iff tree sound.injective nonzero
      (sound.consistent.capacity deposit.networkID).le stored

section Samples

def firstGer : GlobalExitRoot Digest :=
  { blockID := 0
    blockNumber := 0
    exitRoots := [treeRoot 2 [hashDeposit (sampleDeposit 0 0)], hashZero]
    globalExitRoot :=
      hash (treeRoot 2 [hashDeposit (sampleDeposit 0 0)]) hashZero
    networkID := 0
    id := 0 }

def firstGerBlock : Block Digest :=
  { (depositBlock 1 [sampleDeposit 0 0] : Block Digest) with
    globalExitRoots := [firstGer] }

def firstGerOrder : Digest → List Order := fun blockHash =>
  depositOrder 1 blockHash ++
    if blockHash = firstGerBlock.blockHash then
      [{ name := .globalExitRootsOrder
         pos := 0 }]
    else
      []

def sampleServer : BridgeServer :=
  { height := 2
    finalizedGER := false }

def sampleCache : NodeCache Digest :=
  { size := 1
    entries := [] }

theorem sampleCache_valid : sampleCache.Valid := by
  rw [sampleCache]
  nofun

/-- The proof that is returned for an L1 deposit under the first global exit
root, after two deposits, passes a check. -/
private def proves (depositCnt : Nat)
    (check : DepositRow Digest → ClaimProof Digest → Bool) : Bool :=
  commits 2 sampleDeployment.l1 firstGerOrder firstGerBlock
    (fun mid => commits 2 sampleDeployment.l1 firstGerOrder
      (depositBlock 2 [sampleDeposit 0 1])
      (fun w => returns (ClaimProofCall.run sampleServer depositCnt 0 .pool
            (.byGER firstGer.globalExitRoot))
          (fun proof _ => decide (∃ row, row ∈ w.committed.deposit ∧
            row.networkID = 0 ∧ row.depositCnt = depositCnt ∧
            check row proof = true)) (sampleCache, w)) mid)
    (World.start 2 [0, 1, 2])

private theorem exists_of_proves {depositCnt : Nat}
    {check : DepositRow Digest → ClaimProof Digest → Bool}
    (proved : proves depositCnt check = true) :
    ∃ (w : World Digest) (row : DepositRow Digest)
        (proof : ClaimProof Digest) (state : NodeCache Digest × World Digest),
      sampleDeployment.Run 2 (World.start 2 [0, 1, 2]) w ∧
      row ∈ w.committed.deposit ∧
      ClaimProofCall.run sampleServer row.depositCnt row.networkID .pool
          (.byGER firstGer.globalExitRoot) (sampleCache, w) =
        .ok proof state ∧
      check row proof = true := by
  obtain ⟨mid, first, held⟩ := step_of_commits (d := sampleDeployment)
    (by decide) proved
  obtain ⟨w, second, held⟩ := step_of_commits (d := sampleDeployment)
    (by decide) held
  obtain ⟨proof, state, returned, held⟩ := exists_of_returns held
  obtain ⟨row, inside, l1, count, checked⟩ := of_decide_eq_true held
  refine ⟨w, row, proof, state, .tail (.single first) second, inside, ?_,
    checked⟩
  rw [l1, count]
  exact returned

/-- The root is older than the second deposit, and the proof that is returned
is one for the empty leaf. -/
theorem claim_proof_of_empty_leaf :
    ∃ (w : World Digest) (row : DepositRow Digest)
        (proof : ClaimProof Digest) (state : NodeCache Digest × World Digest),
      sampleDeployment.Run 2 (World.start 2 [0, 1, 2]) w ∧
      row ∈ w.committed.deposit ∧
      ClaimProofCall.run sampleServer row.depositCnt row.networkID .pool
          (.byGER firstGer.globalExitRoot) (sampleCache, w) =
        .ok proof state ∧
      ¬proof.Accepted 2 row.depositCnt row.networkID row.leaf ∧
      proof.Accepted 2 row.depositCnt row.networkID hashZero := by
  have proved : proves 1 (fun row proof => decide
      (¬proof.Accepted 2 row.depositCnt row.networkID row.leaf ∧
        proof.Accepted 2 row.depositCnt row.networkID hashZero)) = true := by
    decide +kernel
  obtain ⟨w, row, proof, state, run, stored, returned, checked⟩ :=
    exists_of_proves proved
  exact ⟨w, row, proof, state, run, stored, returned,
    of_decide_eq_true checked⟩

theorem claim_proof_of_first_deposit :
    ∃ (w : World Digest) (row : DepositRow Digest)
        (proof : ClaimProof Digest) (state : NodeCache Digest × World Digest),
      sampleDeployment.Run 2 (World.start 2 [0, 1, 2]) w ∧
      row ∈ w.committed.deposit ∧
      ClaimProofCall.run sampleServer row.depositCnt row.networkID .pool
          (.byGER firstGer.globalExitRoot) (sampleCache, w) =
        .ok proof state ∧
      ∃ entry root, w.committed.claimEntry sampleServer
            (.byGER firstGer.globalExitRoot) row.networkID row.destNet =
          .ok entry ∧
        w.committed.localExitRoot row.networkID entry.exitRoots = some root ∧
        HasLeaf hash 2 root row.depositCnt row.leaf := by
  have proved : proves 0 (fun row proof => decide
      (proof.Accepted 2 row.depositCnt row.networkID row.leaf)) = true := by
    decide +kernel
  obtain ⟨w, row, proof, state, run, stored, returned, accepted⟩ :=
    exists_of_proves proved
  refine ⟨w, row, proof, state, run, stored, returned, ?_⟩
  exact (claim_proof_accepted_iff Digest.hashDeposit_ne_zero
    (sampleDeployment_ready Digest.hash_injective 2 (by decide)) rfl run rfl
    rfl sampleCache_valid stored _ returned).1.mp (of_decide_eq_true accepted)

end Samples

end Deployment

end BridgeService
