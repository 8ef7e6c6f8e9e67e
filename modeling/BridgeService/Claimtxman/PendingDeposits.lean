import BridgeService.Claimtxman.ClaimCalls
import BridgeService.Claimtxman.Status

/-!
# Claim transactions for pending deposits

For a new global exit root the claim transaction manager selects the deposits
that can be claimed, and stores a monitored transaction for each of them.  The
transaction takes the next nonce of the sender from the nonce cache before it
is stored.
-/

namespace BridgeService

open Calls

variable {H : Type}

/-- Why a goroutine ends early: with an error, or by an index out of range. -/
inductive GoErr
  | error (err : String)
  | panic
deriving DecidableEq

structure ClaimTxConfig where
  retryNumber : Int
  ignoreDepositAfterXL1Blocks : Nat
  areClaimsBetweenL2sEnabled : Bool
  authorizedClaimMessageAddresses : List Address

/-- The claim transaction manager with its configuration and the account that
sends the claims. -/
structure ClaimTxSender extends ClaimTxManager where
  cfg : ClaimTxConfig
  fromAddr : Address

def cacheSize : Nat := 1000

namespace NonceCache

/-- The next nonce, from the nonce of the account and the nonce that was handed
out last.  Nonces are numbers of 64 bits. -/
def next (nonce : Nat) : Option Nat → Nat
  | none => nonce
  | some tempNonce =>
    if nonce ≤ tempNonce then (tempNonce + 1) % 2 ^ 64 else nonce

def getNextNonce (fromAddr : Address) : Goroutine H (Except String Nat) := do
  match ← (ClaimCall.nonceAt fromAddr).ask with
  | .error err => return .error err
  | .ok nonce =>
    let tempNonce ← (ClaimCall.cacheGet fromAddr).ask
    let _ ← (ClaimCall.cacheAdd fromAddr (next nonce tempNonce)).ask
    return .ok (next nonce tempNonce)

end NonceCache

/-- Estimate the gas again, as often as is left and until the answer is not an
error or an error that ends the attempts. -/
def estimateGasAgain (ends : String → Bool) (tx : CallMsg) :
    Nat → Except String Nat → Goroutine H (Except String Nat)
  | 0, answer => return answer
  | _ + 1, .ok gas => return .ok gas
  | left + 1, .error err =>
    if ends err then return .error err
    else do
      let answer ← (ClaimCall.estimateGas tx).ask
      estimateGasAgain ends tx left answer

def estimateGasWithRetries (ends : String → Bool) (retryNumber : Int)
    (tx : CallMsg) : Goroutine H (Except String Nat) := do
  let answer ← (ClaimCall.estimateGas tx).ask
  estimateGasAgain ends tx (retryNumber - 1).toNat answer

namespace ClaimTxSender

def rollbackState (err : GoErr) : Goroutine H (Except GoErr Unit) := do
  match ← ClaimCall.rollback.ask with
  | .error rollbackErr => return .error (.error rollbackErr)
  | .ok _ => return .error err

/-- A deposit whose claim fails is ignored after some blocks of L1. -/
def ignoreAfterXL1Blocks (tm : ClaimTxSender) (deposit : Deposit H) :
    Goroutine H Unit := do
  match ← ClaimCall.l1BlockNumber.ask with
  | .error _ => return ()
  | .ok currentL1BlockNumber =>
    match ← (ClaimCall.l1BlockByNumber currentL1BlockNumber).ask with
    | .error _ => return ()
    | .ok currentL1Block =>
      if (deposit.blockNumber + tm.cfg.ignoreDepositAfterXL1Blocks) %
          2 ^ 64 < currentL1Block then do
        let _ ← (ClaimCall.ignoreDeposit deposit.id).ask
        return ()
      else
        return ()

def newMonitoredTx (deposit : Deposit H) (fromAddr : Address)
    (toAddr : Option Address) (value : Option Nat) (data : Bytes)
    (gas nonce : Nat) (ger : H) : MonitoredTx H :=
  { depositID := deposit.id
    fromAddr := fromAddr
    toAddr := toAddr
    nonce := nonce
    value := value
    data := data
    gas := gas
    gasPrice := none
    status := .created
    history := []
    createdAt := 0
    updatedAt := 0
    groupID := none
    globalExitRoot := ger }

def isExecutionRevertedText (err : String) : Bool :=
  err == "execution reverted"

def addClaimTx (tm : ClaimTxSender) (deposit : Deposit H)
    (fromAddr : Address) (toAddr : Option Address) (value : Option Nat)
    (data : Bytes) (ger : H) : Goroutine H (Except GoErr Unit) := do
  let tx : CallMsg :=
    { fromAddr := fromAddr
      toAddr := toAddr
      value := value
      data := data }
  match ← estimateGasWithRetries isExecutionRevertedText
      tm.cfg.retryNumber tx with
  | .error _ => do
      tm.ignoreAfterXL1Blocks deposit
      return .ok ()
  | .ok gas =>
    match ← NonceCache.getNextNonce fromAddr with
    | .error err =>
      return .error (.error ("rollupID: " ++ toString tm.rollupID ++
        ", failed to get current nonce: " ++ err))
    | .ok nonce =>
      match ← (ClaimCall.addClaimTx (newMonitoredTx deposit fromAddr
          toAddr value data gas nonce ger)).ask with
      | .error err =>
        return .error (.error ("rollupID: " ++ toString tm.rollupID ++
          ", failed to add tx to get monitored: " ++ err))
      | .ok _ => return .ok ()

def leafTypeMessage : Nat := 1

def mtHeight : Nat := 32

def isDepositMessageAllowed (tm : ClaimTxSender) (deposit : Deposit H) :
    Bool :=
  tm.cfg.authorizedClaimMessageAddresses.contains deposit.originalAddress

/-- The claim of one deposit; a proof that is too short or an exit root that is
missing is an index out of range. -/
def createClaimTx (tm : ClaimTxSender) (globalExitRoot : H)
    (deposit : Deposit H) : Goroutine H (Except GoErr Unit) := do
  match ← (ClaimCall.getClaimProofForCompressed globalExitRoot
      deposit.depositCount deposit.networkID).ask with
  | .error err => rollbackState (.error err)
  | .ok claimProof =>
    if claimProof.merkleProof.length < mtHeight ∨
        claimProof.rollupMerkleProof.length < mtHeight ∨
        claimProof.globalExitRoot.exitRoots.length < 2 then
      return .error .panic
    else do
      match ← (ClaimCall.buildSendClaim deposit
          (claimProof.merkleProof.take mtHeight)
          (claimProof.rollupMerkleProof.take mtHeight)
          (claimProof.globalExitRoot.exitRoots.take 2)).ask with
      | .error err => rollbackState (.error err)
      | .ok tx =>
        match ← tm.addClaimTx deposit tm.fromAddr tx.toAddr none tx.data
            claimProof.globalExitRoot.globalExitRoot with
        | .error err => rollbackState err
        | .ok _ =>
          match ← ClaimCall.commit.ask with
          | .error err => rollbackState (.error err)
          | .ok _ => return .ok ()

def createClaimTxs (tm : ClaimTxSender) (globalExitRoot : H) :
    List (Deposit H) → Goroutine H (Except GoErr Unit)
  | [] => return .ok ()
  | deposit :: rest =>
    if tm.l2NetworkID ≠ deposit.destinationNetwork then
      tm.createClaimTxs globalExitRoot rest
    else if deposit.leafType = leafTypeMessage ∧
        tm.isDepositMessageAllowed deposit = false then
      tm.createClaimTxs globalExitRoot rest
    else do
      match ← ClaimCall.beginDBTransaction.ask with
      | .error err => return .error (.error err)
      | .ok _ =>
        match ← tm.createClaimTx globalExitRoot deposit with
        | .error err => return .error err
        | .ok _ => tm.createClaimTxs globalExitRoot rest

/-- Whether a selection of deposits ends the run, or which deposits are claimed
with which global exit root. -/
inductive Selected (H : Type)
  | ended (result : Except GoErr Unit)
  | deposits (deposits : List (Deposit H)) (globalExitRoot : H)

/-- The latest global exit root with the first deposit.  The query is made
again if it finds nothing. -/
def trustedGER (deposits : List (Deposit H)) (first : Deposit H) :
    Goroutine H (Selected H) := do
  let query := ClaimCall.getLatestTrustedGERByDeposit first.depositCount
    first.networkID first.destinationNetwork
  match ← query.ask with
  | .ok globalExitRoot => return .deposits deposits globalExitRoot
  | .error (.failed err) => do
      let result ← rollbackState (.error err)
      return .ended result
  | .error .notFound =>
    match ← query.ask with
    | .ok globalExitRoot => return .deposits deposits globalExitRoot
    | .error (.failed err) => do
        let result ← rollbackState (.error err)
        return .ended result
    | .error .notFound => return .ended (.ok ())

/-- Both selections log an exit root first, which may be missing. -/
def selectL2Deposits (tm : ClaimTxSender) (ger : GlobalExitRoot H) :
    Goroutine H (Selected H) := do
  if ger.exitRoots.length ≤ 1 then
    return .ended (.error .panic)
  else if tm.cfg.areClaimsBetweenL2sEnabled then
    match ← (ClaimCall.getDepositsFromOtherL2ToClaim tm.l2NetworkID).ask with
    | .error err => do
        let result ← rollbackState (.error err)
        return .ended result
    | .ok [] => return .deposits [] ger.globalExitRoot
    | .ok (first :: rest) => trustedGER (first :: rest) first
  else
    return .deposits [] ger.globalExitRoot

def selectMessages (tm : ClaimTxSender) (globalExitRoot : H)
    (deposits : List (Deposit H)) :
    List Address → Goroutine H (Selected H)
  | [] => return .deposits deposits globalExitRoot
  | addr :: rest => do
      match ← (ClaimCall.getPendingDepositsToClaim addr tm.l2NetworkID
          leafTypeMessage).ask with
      | .error err => do
          let result ← rollbackState (.error err)
          return .ended result
      | .ok msgDeposits =>
        tm.selectMessages globalExitRoot (deposits ++ msgDeposits) rest

@[inherit_doc selectL2Deposits]
def selectL1Deposits (tm : ClaimTxSender) (ger : GlobalExitRoot H) :
    Goroutine H (Selected H) := do
  if ger.exitRoots.length = 0 then
    return .ended (.error .panic)
  else
    match ← (ClaimCall.getPendingDepositsToClaim 0 tm.l2NetworkID 0).ask with
    | .error err => do
        let result ← rollbackState (.error err)
        return .ended result
    | .ok deposits =>
      tm.selectMessages ger.globalExitRoot deposits
        tm.cfg.authorizedClaimMessageAddresses

def selectDeposits (tm : ClaimTxSender) (ger : GlobalExitRoot H) :
    Goroutine H (Selected H) :=
  if ger.blockID ≠ 0 ∧ ger.networkID = 0 then tm.selectL2Deposits ger
  else tm.selectL1Deposits ger

def processPendingDeposits (tm : ClaimTxSender) (ger : GlobalExitRoot H) :
    Goroutine H (Except GoErr Unit) := do
  match ← ClaimCall.beginDBTransaction.ask with
  | .error err => return .error (.error err)
  | .ok _ =>
    match ← tm.selectDeposits ger with
    | .ended result => return result
    | .deposits deposits globalExitRoot =>
      match ← ClaimCall.commit.ask with
      | .error err => rollbackState (.error err)
      | .ok _ => tm.createClaimTxs globalExitRoot deposits

end ClaimTxSender

end BridgeService
