import BridgeService.Claimtxman.MonitorCompressedTxs
import BridgeService.Lib.Calls
import BridgeService.Lib.Lru

/-!
# Calls of the claim transaction manager

The goroutine that creates claim transactions and the monitor that sends them
run side by side.  They share the tables, the nonce cache and the accounts of
the node, and they make one call after another.

The answers of the nodes and of the queries about deposits are not determined
by this state; a record holds what they are.  A statement that fails aborts its
database transaction, and nothing of an aborted transaction is committed.
-/

namespace BridgeService

open Calls

variable {H : Type}

inductive ClaimWorker
  | pendingDeposits
  | monitorTxs
deriving DecidableEq

inductive FindErr
  | notFound
  | failed (err : String)
deriving DecidableEq

structure CallMsg where
  fromAddr : Address
  toAddr : Option Address
  value : Option Nat
  data : Bytes
deriving DecidableEq

structure CompressedClaimProof (H : Type) where
  globalExitRoot : GlobalExitRoot H
  merkleProof : List H
  rollupMerkleProof : List H

structure BuiltClaim where
  toAddr : Option Address
  data : Bytes
deriving DecidableEq

inductive ClaimCall (H : Type)
  | beginDBTransaction
  | commit
  | rollback
  | getDepositsFromOtherL2ToClaim (destinationNetwork : Nat)
  | getLatestTrustedGERByDeposit
      (depositCount networkID destinationNetwork : Nat)
  | getPendingDepositsToClaim (destAddress : Address)
      (destinationNetwork leafType : Nat)
  | getClaimProofForCompressed (ger : H) (depositCount networkID : Nat)
  | getDepositByDepositID (depositID : Nat)
  | getClaimTxsByStatus (statuses : List MonitoredTxStatus) (rollupID : Nat)
  | ignoreDeposit (depositID : Nat)
  | addClaimTx (mTx : MonitoredTx H)
  | updateClaimTx (mTx : MonitoredTx H)
  | l1BlockNumber
  | l1BlockByNumber (number : Nat)
  | buildSendClaim (deposit : Deposit H)
      (mtProof mtRollupProof exitRoots : List H)
  | estimateGas (tx : CallMsg)
  | nonceAt (fromAddr : Address)
  | checkTxWasMined (txHash : H)
  | transactionByHash (txHash : H)
  | suggestGasPrice
  | signer (mTx : MonitoredTx H)
  | sendTransaction (txHash : H)
  | isClaimed (leafIndex sourceBridgeNetwork : Nat)
  | cacheGet (fromAddr : Address)
  | cacheAdd (fromAddr : Address) (nonce : Nat)
  | cacheRemove (fromAddr : Address)

def ClaimCall.Answer : ClaimCall H → Type
  | .beginDBTransaction => Except String Unit
  | .commit => Except String Unit
  | .rollback => Except String Unit
  | .getDepositsFromOtherL2ToClaim _ => Except String (List (Deposit H))
  | .getLatestTrustedGERByDeposit _ _ _ => Except FindErr H
  | .getPendingDepositsToClaim _ _ _ => Except String (List (Deposit H))
  | .getClaimProofForCompressed _ _ _ =>
    Except String (CompressedClaimProof H)
  | .getDepositByDepositID _ => Except String (Deposit H)
  | .getClaimTxsByStatus _ _ => Except String (List (MonitoredTx H))
  | .ignoreDeposit _ => Except String Unit
  | .addClaimTx _ => Except String Unit
  | .updateClaimTx _ => Except String Unit
  | .l1BlockNumber => Except String Nat
  | .l1BlockByNumber _ => Except String Nat
  | .buildSendClaim _ _ _ _ => Except String BuiltClaim
  | .estimateGas _ => Except String Nat
  | .nonceAt _ => Except String Nat
  | .checkTxWasMined _ => Except String (Option Receipt)
  | .transactionByHash _ => Except FindErr Unit
  | .suggestGasPrice => Except String Nat
  | .signer _ => Except String H
  | .sendTransaction _ => Except String Unit
  | .isClaimed _ _ => Except String Bool
  | .cacheGet _ => Option Nat
  | .cacheAdd _ _ => Unit
  | .cacheRemove _ => Unit

def claimInterface (H : Type) : Interface where
  Call := ClaimCall H
  Answer := ClaimCall.Answer

abbrev Goroutine (H α : Type) := Program (claimInterface H) α

def ClaimCall.ask (call : ClaimCall H) : Goroutine H call.Answer :=
  Program.request (I := claimInterface H) call

inductive ClaimWrite (H : Type)
  | add (mTx : MonitoredTx H) (now : Nat)
  | update (mTx : MonitoredTx H) (now : Nat)

def ClaimWrite.apply (store : ClaimStore H) : ClaimWrite H → ClaimStore H
  | .add mTx now => store.addClaimTx mTx now
  | .update mTx now => store.updateClaimTx mTx now

/-- What the goroutines share.  A goroutine without a database transaction, or
with one that is aborted, has no list of changes. -/
structure ClaimShared (H : Type) where
  store : ClaimStore H
  dbTx : ClaimWorker → Option (List (ClaimWrite H))
  nonceCache : Lru Address Nat
  account : Address → Nat

structure CallAnswers (H : Type) where
  fault : Option String
  now : Nat
  listed : List (MonitoredTx H) → List (MonitoredTx H)
  listed_perm : ∀ rows, (listed rows).Perm rows
  deposits : List (Deposit H)
  deposit : Except String (Deposit H)
  trustedGER : Except FindErr H
  claimProof : Except String (CompressedClaimProof H)
  l1Block : Except String Nat
  claim : Except String BuiltClaim
  gas : Except String Nat
  mined : Except String (Option Receipt)
  found : Except FindErr Unit
  gasPrice : Except String Nat
  signed : Except String H
  sent : Except String Unit
  claimed : Except String Bool

def abortedText : String :=
  "current transaction is aborted, commands ignored until end of transaction"

namespace ClaimShared

def setDbTx (shared : ClaimShared H) (worker : ClaimWorker)
    (changes : Option (List (ClaimWrite H))) : ClaimShared H :=
  { shared with dbTx := Function.update shared.dbTx worker changes }

def exec (answers : CallAnswers H) (worker : ClaimWorker)
    (shared : ClaimShared H) (changes : List (ClaimWrite H)) :
    Except String Unit × ClaimShared H :=
  match answers.fault, shared.dbTx worker with
  | some err, _ => (.error err, shared.setDbTx worker none)
  | none, none => (.error abortedText, shared)
  | none, some before => (.ok (), shared.setDbTx worker (before ++ changes))

def commit (answers : CallAnswers H) (worker : ClaimWorker)
    (shared : ClaimShared H) : Except String Unit × ClaimShared H :=
  match answers.fault, shared.dbTx worker with
  | some err, _ => (.error err, shared.setDbTx worker none)
  | none, none => (.error abortedText, shared)
  | none, some changes =>
    (.ok (),
      { shared.setDbTx worker none with
        store := changes.foldl ClaimWrite.apply shared.store })

/-- Answer of a call that cannot be answered in another way than the record
says, or fails. -/
def orFault {α : Type} (answers : CallAnswers H) (value : α) :
    Except String α :=
  match answers.fault with
  | some err => .error err
  | none => .ok value

def serve (answers : CallAnswers H) (worker : ClaimWorker)
    (shared : ClaimShared H) :
    (call : ClaimCall H) → call.Answer × ClaimShared H
  | .beginDBTransaction =>
    match answers.fault with
    | some err => (.error err, shared.setDbTx worker none)
    | none => (.ok (), shared.setDbTx worker (some []))
  | .commit => shared.commit answers worker
  | .rollback => (orFault answers (), shared.setDbTx worker none)
  | .getDepositsFromOtherL2ToClaim _ =>
    (orFault answers answers.deposits, shared)
  | .getLatestTrustedGERByDeposit _ _ _ => (answers.trustedGER, shared)
  | .getPendingDepositsToClaim _ _ _ =>
    (orFault answers answers.deposits, shared)
  | .getClaimProofForCompressed _ _ _ => (answers.claimProof, shared)
  | .getDepositByDepositID _ => (answers.deposit, shared)
  | .getClaimTxsByStatus statuses rollupID =>
    (orFault answers (shared.store.getClaimTxsByStatus statuses rollupID
      answers.listed), shared)
  | .ignoreDeposit _ => shared.exec answers worker []
  | .addClaimTx mTx => shared.exec answers worker [.add mTx answers.now]
  | .updateClaimTx mTx =>
    shared.exec answers worker [.update mTx answers.now]
  | .l1BlockNumber => (answers.l1Block, shared)
  | .l1BlockByNumber _ => (answers.l1Block, shared)
  | .buildSendClaim _ _ _ _ => (answers.claim, shared)
  | .estimateGas _ => (answers.gas, shared)
  | .nonceAt fromAddr => (orFault answers (shared.account fromAddr), shared)
  | .checkTxWasMined _ => (answers.mined, shared)
  | .transactionByHash _ => (answers.found, shared)
  | .suggestGasPrice => (answers.gasPrice, shared)
  | .signer _ => (answers.signed, shared)
  | .sendTransaction _ => (answers.sent, shared)
  | .isClaimed _ _ => (answers.claimed, shared)
  | .cacheGet fromAddr =>
    match shared.nonceCache.get fromAddr with
    | none => (none, shared)
    | some (nonce, cache) => (some nonce, { shared with nonceCache := cache })
  | .cacheAdd fromAddr nonce =>
    ((), { shared with nonceCache := shared.nonceCache.add fromAddr nonce })
  | .cacheRemove fromAddr =>
    ((), { shared with nonceCache := shared.nonceCache.remove fromAddr })

end ClaimShared

end BridgeService
