import BridgeService.Claimtxman.MonitoredTx
import BridgeService.Lib.Rows

/-!
# Tables of the claim transactions

The tables `sync.monitored_txs` and `sync.monitored_txs_group`, with the
statements of the storage layer as functions on them.  Of the deposits only the
id and the destination are read here.  A monitored transaction has no column
for the gas price, and a group is read without its deposits and its last log.
-/

namespace BridgeService

open Rows

variable {H : Type}

structure ClaimDeposit where
  id : Nat
  destNet : Nat
deriving DecidableEq

structure ClaimStore (H : Type) where
  monitoredTxs : List (MonitoredTx H)
  monitoredTxsGroup : List (MonitoredTxGroupDBEntry H)
  deposit : List ClaimDeposit
deriving DecidableEq

namespace ClaimStore

def empty (deposit : List ClaimDeposit) : ClaimStore H :=
  { monitoredTxs := []
    monitoredTxsGroup := []
    deposit := deposit }

def hasDestination (store : ClaimStore H) (depositID destNet : Nat) : Bool :=
  store.deposit.any fun row => row.id == depositID && row.destNet == destNet

/-- Rows in ascending order of their creation.  The order of rows created at
the same time is not defined; the database may have listed the rows in any
order before. -/
def getClaimTxsByStatus (store : ClaimStore H)
    (statuses : List MonitoredTxStatus) (rollupID : Nat)
    (listed : List (MonitoredTx H) → List (MonitoredTx H)) :
    List (MonitoredTx H) :=
  orderBy MonitoredTx.createdAt
    ((listed store.monitoredTxs).filter fun row =>
      statuses.contains row.status &&
        store.hasDestination row.depositID rollupID)

def readGroup (row : MonitoredTxGroupDBEntry H) : MonitoredTxGroupDBEntry H :=
  { row with
    depositIDs := []
    lastLog := none }

def getMonitoredTxsGroups (store : ClaimStore H) (groupIDs : List Nat) :
    List (MonitoredTxGroupDBEntry H) :=
  (store.monitoredTxsGroup.filter fun row =>
    groupIDs.contains row.groupID).map readGroup

def getLatestMonitoredTxGroupID (store : ClaimStore H) : Nat :=
  match lastBy MonitoredTxGroupDBEntry.groupID store.monitoredTxsGroup with
  | none => 0
  | some row => row.groupID

def insertGroup (mTxGroup : MonitoredTxGroupDBEntry H) :
    MonitoredTxGroupDBEntry H :=
  { mTxGroup with lastLog := none }

/-- The insert fails if the id is taken. -/
def addMonitoredTxsGroup (store : ClaimStore H)
    (mTxGroup : MonitoredTxGroupDBEntry H) : Option (ClaimStore H) :=
  if store.monitoredTxsGroup.any fun row =>
      row.groupID == mTxGroup.groupID then
    none
  else
    some
      { store with
        monitoredTxsGroup := store.monitoredTxsGroup ++
          [insertGroup mTxGroup] }

def writeGroup (row mTxGroup : MonitoredTxGroupDBEntry H) :
    MonitoredTxGroupDBEntry H :=
  { row with
    numRetries := mTxGroup.numRetries
    compressedTxData := mTxGroup.compressedTxData
    claimTxHistory := mTxGroup.claimTxHistory
    updatedAt := mTxGroup.updatedAt
    status := mTxGroup.status
    lastLog := mTxGroup.lastLog }

def updateMonitoredTxsGroup (store : ClaimStore H)
    (mTxGroup : MonitoredTxGroupDBEntry H) : ClaimStore H :=
  { store with
    monitoredTxsGroup := store.monitoredTxsGroup.map fun row =>
      if row.groupID = mTxGroup.groupID then writeGroup row mTxGroup
      else row }

def writeTx (row mTx : MonitoredTx H) (now : Nat) : MonitoredTx H :=
  { row with
    fromAddr := mTx.fromAddr
    toAddr := mTx.toAddr
    nonce := mTx.nonce
    value := mTx.value
    data := mTx.data
    gas := mTx.gas
    status := mTx.status
    history := mTx.history
    updatedAt := now
    groupID := mTx.groupID }

def updateClaimTx (store : ClaimStore H) (mTx : MonitoredTx H) (now : Nat) :
    ClaimStore H :=
  { store with
    monitoredTxs := store.monitoredTxs.map fun row =>
      if row.depositID = mTx.depositID then writeTx row mTx now else row }

/-- Nothing is inserted if the deposit already has a transaction. -/
def addClaimTx (store : ClaimStore H) (mTx : MonitoredTx H) (now : Nat) :
    ClaimStore H :=
  if store.monitoredTxs.any fun row => row.depositID == mTx.depositID then
    store
  else
    { store with
      monitoredTxs := store.monitoredTxs ++
        [{ mTx with
           gasPrice := none
           createdAt := now
           updatedAt := now }] }

section Listed

variable {store : ClaimStore H} {statuses : List MonitoredTxStatus}
  {rollupID : Nat} {listed : List (MonitoredTx H) → List (MonitoredTx H)}

theorem mem_getClaimTxsByStatus (perm : ∀ rows, (listed rows).Perm rows)
    {row : MonitoredTx H} :
    row ∈ store.getClaimTxsByStatus statuses rollupID listed ↔
      row ∈ store.monitoredTxs ∧ row.status ∈ statuses ∧
        store.hasDestination row.depositID rollupID = true := by
  simp [getClaimTxsByStatus, (perm store.monitoredTxs).mem_iff]

theorem nodup_getClaimTxsByStatus (perm : ∀ rows, (listed rows).Perm rows)
    (keyed : (store.monitoredTxs.map MonitoredTx.depositID).Nodup) :
    ((store.getClaimTxsByStatus statuses rollupID listed).map
      MonitoredTx.depositID).Nodup := by
  have rows : ((listed store.monitoredTxs).map
      MonitoredTx.depositID).Nodup :=
    ((perm store.monitoredTxs).map MonitoredTx.depositID).nodup_iff.mpr keyed
  apply ((orderBy_perm _).map MonitoredTx.depositID).nodup_iff.mpr
  exact rows.sublist (List.filter_sublist.map MonitoredTx.depositID)

end Listed

@[simp] theorem depositIDs_updateClaimTx (store : ClaimStore H)
    (mTx : MonitoredTx H) (now : Nat) :
    (store.updateClaimTx mTx now).monitoredTxs.map MonitoredTx.depositID =
      store.monitoredTxs.map MonitoredTx.depositID := by
  simp only [updateClaimTx, List.map_map]
  apply List.map_congr_left
  intro row _
  simp only [Function.comp_apply]
  split <;> rfl

theorem addClaimTx_cases (store : ClaimStore H) (mTx : MonitoredTx H)
    (now : Nat) :
    store.addClaimTx mTx now = store ∨
      (∀ row, row ∈ store.monitoredTxs → row.depositID ≠ mTx.depositID) ∧
        store.addClaimTx mTx now =
          { store with
            monitoredTxs := store.monitoredTxs ++
              [{ mTx with
                 gasPrice := none
                 createdAt := now
                 updatedAt := now }] } := by
  rw [addClaimTx]
  split
  · exact .inl rfl
  · next fresh =>
    refine .inr ⟨?_, rfl⟩
    simpa using fresh

end ClaimStore

end BridgeService
