import BridgeService.Cmd.ClaimProofs
import BridgeService.Cmd.Script
import BridgeService.Server.BackwardLETData

/-!
# Moving exit trees backward after any history

Deposits, BackwardLET and ForwardLET events and reorgs of all networks leave
the tables of the exit trees consistent.  The data for moving an exit tree back
is therefore valid after any of them.
-/

namespace BridgeService

open ErrorState

variable {H : Type} [DecidableEq H] [Externals H]

namespace Deployment

variable {d : Deployment} {height : Nat} {start w v : World H}

/-- For every count below the number of deposits of an L2 network, the data for
moving its exit tree back to the count is returned, and it is valid. -/
theorem backward_let_data_valid
    (ready : ∀ s, s ∈ d.synchronizers → s.Ready height start)
    (empty : start.committed = Tables.empty) (run : d.Run height start w)
    (view : v.view .pool = some w.committed)
    (quiet : ∀ statement, ¬v.Faulty statement .pool) {s : BridgeServer}
    (sameHeight : s.height = height) {cache : NodeCache H}
    (valid : cache.Valid) {networkID count : Nat} (l2 : networkID ≠ 0)
    (inside : count < (w.committed.leavesOf networkID).length) :
    ∃ data state,
      s.getBackwardLETData count networkID (cache, v) = .ok data state ∧
        data.Valid height count (w.committed.leavesOf networkID) := by
  have sound := run.sound (sound_initial ready empty)
  have readyL1 := sound.readyL1
  have small : height ≤ 64 := readyL1.small.trans (by decide)
  obtain ⟨data, state, ran, valid, _⟩ :=
    (BridgeServer.getBackwardLETData_valid readyL1.consistent.tables
      sound.separated.chained readyL1.injective quiet view sameHeight small l2
      (readyL1.consistent.capacity networkID).le inside).exists_ok
      (cache, v) ⟨valid, .refl v⟩ fun _ _ => id
  exact ⟨data, state, ran, valid⟩

section Samples

def stepBackBlock : Block Digest :=
  { (depositBlock 2 [] : Block Digest) with
    backwardLETs :=
      [{ blockID := 0
         previousDepositCount := 2
         previousRoot := treeRoot 2 [hashDeposit (sampleDeposit 1 0),
           hashDeposit (sampleDeposit 1 1)]
         newDepositCount := 1
         newRoot := treeRoot 2 [hashDeposit (sampleDeposit 1 0)] }] }

/-- Two deposits, a step back, another deposit, and a reorg of its block that
makes it again. -/
def stepBackScript : List (Script Digest) :=
  [.block 1 (depositOrder 2) (depositBlock 1 [sampleDeposit 1 0,
      sampleDeposit 1 1]),
    .block 1 (fun _ => [{ name := .backwardLETOrder, pos := 0 }])
      stepBackBlock,
    .block 1 (depositOrder 1) (depositBlock 3 [sampleDeposit 1 1]),
    .reset 1 2,
    .block 1 (depositOrder 1) (depositBlock 4 [sampleDeposit 1 1])]

def servingWorld (t : Tables Digest) : World Digest :=
  { World.start 2 [0, 1, 2] with committed := t }

theorem backward_let_data_after_reorg :
    ∃ (w : World Digest) (data : BackwardLETData Digest)
        (state : NodeCache Digest × World Digest),
      sampleDeployment.Run 2 (World.start 2 [0, 1, 2]) w ∧
      (w.committed.leavesOf 1).length = 2 ∧
      sampleServer.getBackwardLETData 1 1
          (sampleCache, servingWorld w.committed) = .ok data state ∧
      data.Valid 2 1 (w.committed.leavesOf 1) := by
  have followed : sampleDeployment.follows 2 (fun _ _ => True)
      (fun w => decide ((w.committed.leavesOf 1).length = 2))
      stepBackScript (World.start 2 [0, 1, 2]) = true := by
    decide +kernel
  obtain ⟨w, run, checked⟩ := run_of_follows followed
  have length : (w.committed.leavesOf 1).length = 2 :=
    of_decide_eq_true checked
  have quiet : ∀ statement,
      ¬(servingWorld w.committed).Faulty statement .pool := nofun
  have inside : 1 < (w.committed.leavesOf 1).length := by omega
  obtain ⟨data, state, returned, valid⟩ :=
    backward_let_data_valid (s := sampleServer)
      (sampleDeployment_ready Digest.hash_injective 2 (by decide)) rfl run.run
      (show (servingWorld w.committed).view .pool = some w.committed from rfl)
      quiet rfl sampleCache_valid Nat.one_ne_zero inside
  exact ⟨w, data, state, run.run, length, returned, valid⟩

end Samples

end Deployment

end BridgeService
