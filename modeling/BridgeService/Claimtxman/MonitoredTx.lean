import BridgeService.Etherman.Types

/-!
# Monitored transactions

A claim of a deposit is stored as a monitored transaction.  With grouping
enabled, several of them form a group, whose claims are sent together; the
group remembers every transaction that was sent for it and what became of it.

Times are nanoseconds, and a duration is the difference of two times.
-/

namespace BridgeService

variable {H : Type}

inductive MonitoredTxStatus
  | created
  | failed
  | confirmed
  | compressing
  | claiming
deriving DecidableEq

structure MonitoredTx (H : Type) where
  depositID : Nat
  fromAddr : Address
  toAddr : Option Address
  nonce : Nat
  value : Option Nat
  data : Bytes
  gas : Nat
  gasPrice : Option Nat
  status : MonitoredTxStatus
  history : List H
  createdAt : Nat
  updatedAt : Nat
  groupID : Option Nat
  globalExitRoot : H
deriving DecidableEq

inductive MonitoredTxGroupStatus
  | created
  | claiming
  | failed
  | confirmed
deriving DecidableEq

inductive ReceiptStatus
  | failed
  | successful
  | outdated
deriving DecidableEq

structure TxHashHistoryEntry (H : Type) where
  txHash : H
  receiptStatus : Option ReceiptStatus
  createdAt : Nat
deriving DecidableEq

namespace TxHashHistoryEntry

def isPending (entry : TxHashHistoryEntry H) : Bool :=
  entry.receiptStatus.isNone

def isSuccessful (entry : TxHashHistoryEntry H) : Bool :=
  entry.receiptStatus == some .successful

def isOutdated (entry : TxHashHistoryEntry H) : Bool :=
  entry.receiptStatus == some .outdated

def receiptFailed (entry : TxHashHistoryEntry H) : TxHashHistoryEntry H :=
  { entry with receiptStatus := some .failed }

def receiptSuccessful (entry : TxHashHistoryEntry H) :
    TxHashHistoryEntry H :=
  { entry with receiptStatus := some .successful }

def isExhaustedTimeWaitingForReceipt (entry : TxHashHistoryEntry H)
    (now : Nat) (maxTime : Int) : Bool :=
  maxTime < (now : Int) - entry.createdAt

end TxHashHistoryEntry

structure TxHistoryV2 (H : Type) where
  version : Nat
  txHashes : List (TxHashHistoryEntry H)
deriving DecidableEq

namespace TxHistoryV2

def moreRecentFrom (best : TxHashHistoryEntry H) :
    List (TxHashHistoryEntry H) → TxHashHistoryEntry H
  | [] => best
  | entry :: rest =>
    moreRecentFrom (if best.createdAt < entry.createdAt then entry else best)
      rest

def getMoreRecentTx (history : TxHistoryV2 H) :
    Option (TxHashHistoryEntry H) :=
  match history.txHashes with
  | [] => none
  | first :: rest => some (moreRecentFrom first (first :: rest))

def addPendingTx (history : TxHistoryV2 H) (txHash : H) (now : Nat) :
    TxHistoryV2 H :=
  { history with
    txHashes := history.txHashes ++
      [{ txHash := txHash
         receiptStatus := none
         createdAt := now }] }

end TxHistoryV2

inductive GroupLog (H : Type)
  | sendFailed (groupID : Nat) (err : String)
  | checkFailed (txIndex : Nat) (txHash : H) (err : String)
  | notMined (txHash : H)
  | minedSuccessfully (groupID : Nat) (txHash : H)
  | receiptFailedOrNoLogs (txHash : H)
  | reachedMaximumWaitTime (txHash : H)
  | reachedMaximumRetries (groupID : Nat)
deriving DecidableEq

structure MonitoredTxGroupDBEntry (H : Type) where
  groupID : Nat
  status : MonitoredTxGroupStatus
  depositIDs : List Nat
  compressedTxData : Option Bytes
  claimTxHistory : Option (TxHistoryV2 H)
  createdAt : Nat
  updatedAt : Nat
  numRetries : Int
  lastLog : Option (GroupLog H)
deriving DecidableEq

namespace MonitoredTxGroupDBEntry

/-- Entries of the history, none if there is no history. -/
def txHashes (entry : MonitoredTxGroupDBEntry H) :
    List (TxHashHistoryEntry H) :=
  match entry.claimTxHistory with
  | none => []
  | some history => history.txHashes

def addPendingTx (entry : MonitoredTxGroupDBEntry H) (txHash : H)
    (now : Nat) : MonitoredTxGroupDBEntry H :=
  let history := entry.claimTxHistory.getD
    { version := 1
      txHashes := [] }
  { entry with claimTxHistory := some (history.addPendingTx txHash now) }

def isClaimTxHistoryEmpty (entry : MonitoredTxGroupDBEntry H) : Bool :=
  match entry.claimTxHistory with
  | none => true
  | some history => history.txHashes.length == 0

def modifyTx (entry : MonitoredTxGroupDBEntry H) (txIndex : Nat)
    (change : TxHashHistoryEntry H → TxHashHistoryEntry H) :
    MonitoredTxGroupDBEntry H :=
  { entry with
    claimTxHistory := entry.claimTxHistory.map fun history =>
      { history with txHashes := history.txHashes.modify txIndex change } }

@[simp] theorem txHashes_addPendingTx (entry : MonitoredTxGroupDBEntry H)
    (txHash : H) (now : Nat) :
    (entry.addPendingTx txHash now).txHashes = entry.txHashes ++
      [{ txHash := txHash
         receiptStatus := none
         createdAt := now }] := by
  cases found : entry.claimTxHistory with
  | none => simp [addPendingTx, txHashes, found, TxHistoryV2.addPendingTx]
  | some history =>
    simp [addPendingTx, txHashes, found, TxHistoryV2.addPendingTx]

@[simp] theorem txHashes_modifyTx (entry : MonitoredTxGroupDBEntry H)
    (txIndex : Nat)
    (change : TxHashHistoryEntry H → TxHashHistoryEntry H) :
    (entry.modifyTx txIndex change).txHashes =
      entry.txHashes.modify txIndex change := by
  cases found : entry.claimTxHistory with
  | none => simp [modifyTx, txHashes, found]
  | some history => simp [modifyTx, txHashes, found]

end MonitoredTxGroupDBEntry

structure MonitoredTxGroup (H : Type) where
  dbEntry : MonitoredTxGroupDBEntry H
  txs : List (MonitoredTx H)
deriving DecidableEq

namespace MonitoredTxGroup

def assignTxsGroupID (group : MonitoredTxGroup H) : MonitoredTxGroup H :=
  { group with
    txs := group.txs.map fun tx =>
      { tx with groupID := some group.dbEntry.groupID } }

def getTxByDepositID (group : MonitoredTxGroup H) (depositID : Nat) :
    Option (MonitoredTx H) :=
  group.txs.find? fun tx => tx.depositID == depositID

def addTx (group : MonitoredTxGroup H) (tx : MonitoredTx H) :
    MonitoredTxGroup H :=
  { group with
    txs := group.txs ++
      [{ tx with groupID := some group.dbEntry.groupID }] }

def getTxsDepositID (group : MonitoredTxGroup H) : List Nat :=
  group.txs.map MonitoredTx.depositID

def setTxsStatus (group : MonitoredTxGroup H) (status : MonitoredTxStatus) :
    MonitoredTxGroup H :=
  { group with
    txs := group.txs.map fun tx => { tx with status := status } }

end MonitoredTxGroup

def newMonitoredTxGroup (entry : MonitoredTxGroupDBEntry H)
    (txs : List (MonitoredTx H)) : MonitoredTxGroup H :=
  MonitoredTxGroup.assignTxsGroupID
    { dbEntry := entry
      txs := txs }

def MonitoredTx.isCandidateToBeGrouped [DecidableEq H] (tx : MonitoredTx H)
    (ger : H) : Bool :=
  tx.status == .created && tx.history.length == 0 && tx.groupID == none &&
    tx.globalExitRoot == ger

end BridgeService
