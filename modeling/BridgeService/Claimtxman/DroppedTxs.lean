import BridgeService.Claimtxman.NonceProtocol
import BridgeService.Claimtxman.GroupRuns

/-!
# Transactions that the node has dropped

The monitor sends a transaction again only if all transactions of its history
are mined.  A transaction that the node does not know is not mined, so that a
pass does nothing for a history of such transactions.
-/

namespace BridgeService

open Calls

variable {H : Type}

namespace MonitorTxs

/-- No transaction is mined or known to the node, and every other call
succeeds. -/
def Dropped : (call : ClaimCall H) → call.Answer → Prop
  | .checkTxWasMined _, answer => answer = .ok none
  | .transactionByHash _, answer => answer = .error .notFound
  | .estimateGas _, answer => ∃ gas, answer = .ok gas
  | .nonceAt _, answer => ∃ nonce, answer = .ok nonce
  | .suggestGasPrice, answer => ∃ gasPrice, answer = .ok gasPrice
  | .signer _, answer => ∃ txHash, answer = .ok txHash
  | .sendTransaction _, answer => answer = .ok ()
  | .beginDBTransaction, answer => answer = .ok ()
  | .updateClaimTx _, answer => answer = .ok ()
  | .commit, answer => answer = .ok ()
  | _, _ => True

def Acts (acted : Bool) : ClaimCall H → Bool
  | .sendTransaction _ => true
  | .updateClaimTx mTx => acted || mTx.status == .failed
  | _ => acted

def droppedProtocol (H : Type) : Protocol (claimInterface H) Bool where
  start := false
  ends := fun _ => True
  allowed := fun _ _ => True
  expected := Dropped
  track := fun acted call _ => Acts acted call

private theorem findTxAgain_dropped (txHash : H) (left : Nat) :
    (findTxAgain txHash left (.error .notFound)).Follows (droppedProtocol H)
      (fun answer acted => answer = .error .notFound ∧ acted = false)
      false := by
  induction left with
  | zero => exact ⟨rfl, rfl⟩
  | succ left induction =>
    refine follows_ask trivial ?_
    rintro _ rfl
    exact induction

private theorem checkTxHistory_dropped (tm : MonitorTxs)
    (check : HistoryCheck) (history : List H) :
    (tm.checkTxHistoryFrom check history).Follows (droppedProtocol H)
      (fun found acted => acted = false ∧
        found.receiptSuccessful = check.receiptSuccessful ∧
        found.allHistoryTxMined =
          (check.allHistoryTxMined && history.isEmpty)) false := by
  induction history generalizing check with
  | nil => exact ⟨rfl, rfl, by simp⟩
  | cons txHash rest induction =>
    rw [checkTxHistoryFrom]
    refine follows_ask trivial ?_
    rintro _ rfl
    refine follows_ask trivial ?_
    rintro _ rfl
    refine follows_bind (findTxAgain_dropped txHash _) ?_
    rintro _ _ ⟨rfl, rfl⟩
    refine (induction _).mono ?_
    rintro found acted ⟨idle, receipt, mined⟩
    exact ⟨idle, receipt, by simp [mined]⟩

private theorem commit_dropped (acted : Bool) :
    (commitOrRollback : Goroutine H _).Follows (droppedProtocol H)
      (fun result acted' => result = .ok () ∧ acted' = acted) acted := by
  refine follows_ask trivial ?_
  rintro _ rfl
  exact ⟨rfl, rfl⟩

variable [DecidableEq H]

private theorem sendTx_dropped (tm : MonitorTxs) (mTx : MonitoredTx H) :
    (tm.sendTx mTx).Follows (droppedProtocol H)
      (fun result acted => result = .ok () ∧ acted = true) false := by
  refine follows_ask trivial ?_
  rintro _ ⟨gasPrice, rfl⟩
  refine follows_ask trivial ?_
  rintro _ ⟨txHash, rfl⟩
  refine follows_ask trivial ?_
  rintro _ rfl
  refine follows_ask trivial ?_
  rintro _ rfl
  refine follows_ask trivial ?_
  rintro _ rfl
  exact commit_dropped true

/-- If the node knows no transaction of the history and every other call
succeeds, a pass sends a transaction or stores it as failed exactly if the
history is empty. -/
theorem dropped_tx_retried_iff (tm : MonitorTxs) (mTx : MonitoredTx H) :
    (tm.processTx mTx).Follows (droppedProtocol H)
      (fun result acted => result = .ok () ∧
        (acted = true ↔ mTx.history = [])) false := by
  rw [processTx]
  refine follows_ask trivial ?_
  rintro _ rfl
  cases history : mTx.history with
  | nil =>
    rw [checkTxHistory, history]
    refine (sendTx_dropped tm mTx).mono ?_
    rintro _ _ ⟨rfl, rfl⟩
    simp
  | cons txHash rest =>
    refine follows_bind (checkTxHistory_dropped tm _ mTx.history) ?_
    rintro check _ ⟨rfl, receipt, mined⟩
    rw [history] at mined
    simp only [receipt, mined]
    refine (commit_dropped false).mono ?_
    rintro _ _ ⟨rfl, rfl⟩
    simp

theorem dropped_tx_not_retried :
    ¬(MonitorTxs.processTx
        { cfg :=
            { retryNumber := 0
              ignoreDepositAfterXL1Blocks := 0
              areClaimsBetweenL2sEnabled := false
              authorizedClaimMessageAddresses := [] }
          rollupID := 1 }
        { SampleClaims.claimTx 1 5 with history := [7] }).Follows
      (droppedProtocol Nat) (fun _ acted => acted = true) false := by
  intro retried
  have opened := retried.2 (.ok ()) rfl
  have unmined := opened.2 (.ok none) rfl
  have missing := unmined.2 (.error .notFound) rfl
  have ended := missing.2 (.ok ()) rfl
  exact Bool.noConfusion ended

end MonitorTxs

end BridgeService
