import BridgeService.Claimtxman.PendingDeposits
import Mathlib.Data.List.Infix

/-!
# Monitor of single claims

Without grouping, every monitored transaction is sent by itself.  A pass goes
through the transactions that are not finished.  A transaction that was mined
successfully is confirmed.  A transaction whose attempts all failed, or that
was never sent, is sent with its nonce; an error about the nonce clears the
nonce cache and takes another nonce.
-/

namespace BridgeService

open Calls

variable {H : Type}

def maxHistorySize : Nat := 10

structure MonitorTxs where
  cfg : ClaimTxConfig
  rollupID : Nat

namespace MonitorTxs

def textContains (text part : String) : Bool :=
  decide (part.toList <:+: text.toList)

def isNonceError (err : String) : Bool :=
  textContains err.toLower "nonce too low" ||
    textContains err.toLower "invalid nonce" ||
    textContains err.toLower "txnonce"

def isExecutionReverted (err : String) : Bool :=
  textContains err.toLower "execution reverted"

def bytes2Hex (data : Bytes) : String :=
  String.ofList (data.flatMap fun byte =>
    [Nat.digitChar (byte.toNat / 16), Nat.digitChar (byte.toNat % 16)])

def findTxAgain (txHash : H) :
    Nat → Except FindErr Unit → Goroutine H (Except FindErr Unit)
  | 0, answer => return answer
  | _ + 1, .ok _ => return .ok ()
  | left + 1, .error _ => do
      let answer ← (ClaimCall.transactionByHash txHash).ask
      findTxAgain txHash left answer

structure HistoryCheck where
  hasFailedReceipts : Bool
  allHistoryTxMined : Bool
  receiptSuccessful : Bool

/-- The loop over the transactions that are left; it ends at the first
successful one. -/
def checkTxHistoryFrom (tm : MonitorTxs) (check : HistoryCheck) :
    List H → Goroutine H HistoryCheck
  | [] => return check
  | txHash :: rest => do
      match ← (ClaimCall.checkTxWasMined txHash).ask with
      | .error _ =>
        tm.checkTxHistoryFrom { check with allHistoryTxMined := false } rest
      | .ok none =>
        let answer ← (ClaimCall.transactionByHash txHash).ask
        match ← findTxAgain txHash tm.cfg.retryNumber.toNat answer with
        | .error .notFound =>
          tm.checkTxHistoryFrom
            { check with
              hasFailedReceipts := true
              allHistoryTxMined := false } rest
        | .error (.failed _) =>
          tm.checkTxHistoryFrom { check with allHistoryTxMined := false }
            rest
        | .ok _ =>
          tm.checkTxHistoryFrom { check with allHistoryTxMined := false }
            rest
      | .ok (some receipt) =>
        if receipt.status = 1 then
          return { check with receiptSuccessful := true }
        else
          tm.checkTxHistoryFrom { check with hasFailedReceipts := true } rest

def checkTxHistory (tm : MonitorTxs) (mTx : MonitoredTx H) :
    Goroutine H HistoryCheck :=
  tm.checkTxHistoryFrom
    { hasFailedReceipts := false
      allHistoryTxMined := true
      receiptSuccessful := false } mTx.history

/-- The nonce of a transaction only becomes larger. -/
def reviewNonceOf (mTx : MonitoredTx H) :
    Goroutine H (MonitoredTx H × Except String Unit) := do
  match ← NonceCache.getNextNonce mTx.fromAddr with
  | .error err => return (mTx, .error err)
  | .ok nonce =>
    return ({ mTx with nonce := max mTx.nonce nonce }, .ok ())

/-- The transaction is changed in place, also before an error. -/
def reviewMonitoredTx (tm : MonitorTxs) (mTx : MonitoredTx H)
    (reviewNonce : Bool) :
    Goroutine H (MonitoredTx H × Except String Unit) := do
  let tx : CallMsg :=
    { fromAddr := mTx.fromAddr
      toAddr := mTx.toAddr
      value := mTx.value
      data := mTx.data }
  match ← estimateGasWithRetries isExecutionReverted tm.cfg.retryNumber tx with
  | .error err =>
    return (mTx, .error ("failed to estimate gas. Error: " ++ err ++
      ", Data: " ++ bytes2Hex mTx.data))
  | .ok gas =>
    if reviewNonce then reviewNonceOf { mTx with gas := max mTx.gas gas }
    else return ({ mTx with gas := max mTx.gas gas }, .ok ())

/-- Errors are only logged. -/
def checkIfClaimed (mTx : MonitoredTx H) : Goroutine H Unit := do
  match ← (ClaimCall.getDepositByDepositID mTx.depositID).ask with
  | .error _ => return ()
  | .ok deposit =>
    match ← (ClaimCall.isClaimed deposit.depositCount
        deposit.networkID).ask with
    | .error _ => return ()
    | .ok isClaimed => do
        let _ ← (ClaimCall.updateClaimTx
          { mTx with
            status := if isClaimed then .confirmed else .failed }).ask
        return ()

def commitOrRollback : Goroutine H (Except String Unit) := do
  match ← ClaimCall.commit.ask with
  | .ok _ => return .ok ()
  | .error err =>
    match ← ClaimCall.rollback.ask with
    | .error rollbackErr => return .error rollbackErr
    | .ok _ => return .error err

def afterFailedReview (mTx : MonitoredTx H) (err : String) :
    Goroutine H (Except String Unit) := do
  if isExecutionReverted err then
    checkIfClaimed mTx
    commitOrRollback
  else
    commitOrRollback

/-- A failed update is logged. -/
def storeTx (mTx : MonitoredTx H) : Goroutine H (Except String Unit) := do
  let _ ← (ClaimCall.updateClaimTx mTx).ask
  commitOrRollback

def addHistory [DecidableEq H] (mTx : MonitoredTx H) (txHash : H) :
    MonitoredTx H :=
  if txHash ∈ mTx.history then mTx
  else { mTx with history := mTx.history ++ [txHash] }

def removeHistory [DecidableEq H] (mTx : MonitoredTx H) (txHash : H) :
    MonitoredTx H :=
  { mTx with history := mTx.history.filter fun other => other ≠ txHash }

/-- The cache is cleared after an error about the nonce. -/
def resetNonce (fromAddr : Address) (nonceError : Bool) :
    Goroutine H Unit := do
  if nonceError then
    let _ ← (ClaimCall.cacheRemove fromAddr).ask
    return ()
  else
    return ()

variable [DecidableEq H]

def afterSendError (tm : MonitorTxs) (mTx : MonitoredTx H) (txHash : H)
    (err : String) : Goroutine H (Except String Unit) := do
  resetNonce mTx.fromAddr (isNonceError err)
  match ← tm.reviewMonitoredTx (removeHistory mTx txHash)
      (isNonceError err) with
  | (mTx, .error err) => afterFailedReview mTx err
  | (mTx, .ok _) => storeTx mTx

def sendTx (tm : MonitorTxs) (mTx : MonitoredTx H) :
    Goroutine H (Except String Unit) := do
  match ← ClaimCall.suggestGasPrice.ask with
  | .error _ => commitOrRollback
  | .ok gasPrice =>
    let mTx := { mTx with gasPrice := some (gasPrice * 10) }
    match ← (ClaimCall.signer mTx).ask with
    | .error _ => commitOrRollback
    | .ok txHash =>
      let mTx := addHistory mTx txHash
      match ← (ClaimCall.transactionByHash txHash).ask with
      | .error .notFound =>
        match ← (ClaimCall.sendTransaction txHash).ask with
        | .error err => tm.afterSendError mTx txHash err
        | .ok _ => storeTx mTx
      | .error (.failed _) => storeTx mTx
      | .ok _ => storeTx mTx

def processTx (tm : MonitorTxs) (mTx : MonitoredTx H) :
    Goroutine H (Except String Unit) := do
  match ← ClaimCall.beginDBTransaction.ask with
  | .error err => return .error err
  | .ok _ =>
    let check ← tm.checkTxHistory mTx
    if check.receiptSuccessful then
      storeTx { mTx with status := .confirmed }
    else if check.allHistoryTxMined ∧
        maxHistorySize ≤ mTx.history.length then
      storeTx { mTx with status := .failed }
    else if check.allHistoryTxMined then
      if check.hasFailedReceipts then
        match ← tm.reviewMonitoredTx mTx true with
        | (mTx, .error err) => afterFailedReview mTx err
        | (mTx, .ok _) => tm.sendTx mTx
      else
        tm.sendTx mTx
    else
      commitOrRollback

/-- The loop over the transactions; it ends when a database transaction cannot
be opened or committed. -/
def processTxs (tm : MonitorTxs) :
    List (MonitoredTx H) → Goroutine H (Except String Unit)
  | [] => return .ok ()
  | mTx :: rest => do
      match ← tm.processTx mTx with
      | .error err => return .error err
      | .ok _ => tm.processTxs rest

def monitorTxs (tm : MonitorTxs) : Goroutine H (Except String Unit) := do
  match ← ClaimCall.beginDBTransaction.ask with
  | .error err => return .error err
  | .ok _ =>
    match ← (ClaimCall.getClaimTxsByStatus [.created] tm.rollupID).ask with
    | .error err =>
      match ← ClaimCall.rollback.ask with
      | .error rollbackErr => return .error rollbackErr
      | .ok _ =>
        return .error ("rollupID: " ++ toString tm.rollupID ++
          ", failed to get created monitored txs: " ++ err)
    | .ok mTxs =>
      match ← commitOrRollback with
      | .error err => return .error err
      | .ok _ => tm.processTxs mTxs

end MonitorTxs

end BridgeService
