import BridgeService.Claimtxman.ComposeCompressClaim
import BridgeService.Storage.MonitoredTxs
import Mathlib.Algebra.Group.Int.Defs

/-!
# Monitor of grouped claims

One pass of the monitor reads the groups and the candidates for a new group,
sends the claims of the groups, looks for receipts, gives up transactions and
groups, makes at most one new group, and stores what has changed.  The pass is
one database transaction; the claims that it sends are not part of it.

What the clock, the node, the compressor and the database answer is an input
of the pass.  Every answer is named by what it is asked for, so that the order
in which the groups are visited, which the source leaves open, does not
matter.
-/

namespace BridgeService

variable {H : Type}

/-- Settings for groups; the number of retries is a signed word of 32
bits. -/
structure ConfigGroupingClaims where
  triggerNumberOfClaims : Int
  maxNumberOfClaimsPerGroup : Int
  triggerRetainedClaimPeriod : Int
  maxRetries : Int
  retryInterval : Int
  retryTimeout : Int
  maxRetries_lt : maxRetries < 2 ^ 31

structure MonitorCompressedTxs (H : Type) where
  cfg : ConfigGroupingClaims
  rollupID : Nat
  compressClaimComposer : ComposeCompressClaim H

inductive ClockUse
  | canSend (groupID : Nat)
  | pendingTx (groupID : Nat)
  | outdate (groupID txIndex : Nat)
  | trigger
  | newGroup
  | storeUpdate
deriving DecidableEq

inductive PassStorage
  | beginDBTransaction
  | getPendingTxs
  | getInitialStatus
  | execute
  | commit
deriving DecidableEq

structure Receipt where
  status : Nat
  logs : Nat
deriving DecidableEq

structure PassInputs (H : Type) where
  clock : ClockUse → Nat
  fault : PassStorage → Bool
  listed : List (MonitoredTx H) → List (MonitoredTx H)
  listed_perm : ∀ rows, (listed rows).Perm rows
  estimateGas : Nat → Except String Unit
  sendCompressedClaims : Nat → Except String H
  checkTxWasMined : Nat → Nat → Except String (Option Receipt)
  compressClaimCall : Except String (Option Bytes)

inductive PassErr
  | database
  | groupNotFound (groupID : Nat)
  | txNotFound (depositID : Nat)
  | compose (err : ComposeErr)
  | compress (err : String)
  | panic
deriving DecidableEq

structure PendingTxs (H : Type) where
  groupTx : List (MonitoredTxGroup H)
  txCandidatesForGroup : List (MonitoredTx H)
  lastGroupTxID : Nat
deriving DecidableEq

namespace PendingTxs

def isEmpty (pending : PendingTxs H) : Bool :=
  pending.groupTx.length == 0 && pending.txCandidatesForGroup.length == 0

def group (pending : PendingTxs H) (groupID : Nat) :
    Option (MonitoredTxGroup H) :=
  pending.groupTx.find? fun group => group.dbEntry.groupID == groupID

def addTxCandidatesForGroup (pending : PendingTxs H) (tx : MonitoredTx H) :
    PendingTxs H :=
  { pending with
    txCandidatesForGroup := pending.txCandidatesForGroup ++ [tx] }

def modifyGroup (pending : PendingTxs H) (groupID : Nat)
    (change : MonitoredTxGroup H → MonitoredTxGroup H) : PendingTxs H :=
  { pending with
    groupTx := pending.groupTx.map fun group =>
      if group.dbEntry.groupID = groupID then change group else group }

def addTxToGroup (pending : PendingTxs H) (groupID : Nat)
    (tx : MonitoredTx H) : PendingTxs H :=
  pending.modifyGroup groupID fun group => group.addTx tx

def addGroup (pending : PendingTxs H) (group : MonitoredTxGroup H) :
    PendingTxs H :=
  match pending.group group.dbEntry.groupID with
  | some _ => pending
  | none => { pending with groupTx := pending.groupTx ++ [group] }

def setGroupDBEntry (pending : PendingTxs H)
    (entry : MonitoredTxGroupDBEntry H) : PendingTxs H :=
  match pending.group entry.groupID with
  | some _ =>
    pending.modifyGroup entry.groupID fun group =>
      MonitoredTxGroup.assignTxsGroupID { group with dbEntry := entry }
  | none =>
    { pending with
      groupTx := pending.groupTx ++
        [{ dbEntry := entry
           txs := [] }] }

def sortTx [DecidableEq H] (groups : List (MonitoredTxGroupDBEntry H))
    (ger : H) (pending : PendingTxs H) (tx : MonitoredTx H) :
    Except PassErr (PendingTxs H) :=
  if tx.isCandidateToBeGrouped ger then
    .ok (pending.addTxCandidatesForGroup tx)
  else
    match tx.groupID with
    | none => .ok pending
    | some groupID =>
      match groups.find? fun entry => entry.groupID == groupID with
      | none => .error (.groupNotFound groupID)
      | some entry =>
        .ok ((pending.setGroupDBEntry entry).addTxToGroup groupID tx)

end PendingTxs

/-- Candidates are only the transactions with the global exit root of the
oldest one. -/
def newPendingTxs [DecidableEq H] (mTxs : List (MonitoredTx H))
    (groups : List (MonitoredTxGroupDBEntry H)) (lastGroupID : Nat) :
    Except PassErr (PendingTxs H) :=
  let start : PendingTxs H :=
    { groupTx := []
      txCandidatesForGroup := []
      lastGroupTxID := lastGroupID }
  match mTxs with
  | [] => .ok start
  | oldest :: _ =>
    mTxs.foldlM (PendingTxs.sortTx groups oldest.globalExitRoot) start

namespace GroupsTrigger

def isRetainedPeriodSurpassed (cfg : ConfigGroupingClaims) (now : Nat)
    (candidates : List (MonitoredTx H)) : Bool :=
  candidates.any fun tx =>
    cfg.triggerRetainedClaimPeriod < (now : Int) - tx.createdAt

/-- The loop stops when the group has the largest size. -/
def chooseGroupTxFrom (maxSize : Int) (group : List (MonitoredTx H)) :
    List (MonitoredTx H) → List (MonitoredTx H)
  | [] => group
  | tx :: rest =>
    if ((group ++ [tx]).length : Int) = maxSize then group ++ [tx]
    else chooseGroupTxFrom maxSize (group ++ [tx]) rest

def chooseGroupTx (cfg : ConfigGroupingClaims)
    (candidates : List (MonitoredTx H)) : List (MonitoredTx H) :=
  chooseGroupTxFrom cfg.maxNumberOfClaimsPerGroup [] candidates

def chooseTxs (cfg : ConfigGroupingClaims) (now : Nat)
    (candidates : List (MonitoredTx H)) : List (MonitoredTx H) :=
  if isRetainedPeriodSurpassed cfg now candidates then
    chooseGroupTx cfg candidates
  else if cfg.triggerNumberOfClaims ≤ candidates.length then
    chooseGroupTx cfg candidates
  else
    []

end GroupsTrigger

structure StoreChanges (H : Type) where
  addGroups : List (MonitoredTxGroupDBEntry H)
  updateGroups : List (MonitoredTxGroupDBEntry H)
  updateTxs : List (MonitoredTx H)
deriving DecidableEq

/-- A counter of 32 bits with a sign goes on with the smallest number. -/
def incrementInt32 (count : Int) : Int :=
  (count + 1 + 2 ^ 31) % 2 ^ 32 - 2 ^ 31

namespace MonitorCompressedTxs

def getPendingTxs [DecidableEq H] (tm : MonitorCompressedTxs H)
    (inputs : PassInputs H) (store : ClaimStore H) :
    Except PassErr (PendingTxs H) :=
  let mTxs := store.getClaimTxsByStatus [.created, .compressing, .claiming]
    tm.rollupID inputs.listed
  newPendingTxs mTxs
    (store.getMonitoredTxsGroups (mTxs.filterMap MonitoredTx.groupID))
    store.getLatestMonitoredTxGroupID

def canSendNewClaimCall (tm : MonitorCompressedTxs H) (now : Nat)
    (entry : MonitoredTxGroupDBEntry H) : Bool :=
  if entry.status = .created then true
  else
    match entry.claimTxHistory with
    | none => true
    | some history =>
      if history.txHashes.length = 0 then true
      else if history.txHashes.any fun tx =>
          tx.isPending && !tx.isOutdated then false
      else if tm.cfg.maxRetries ≤ entry.numRetries then false
      else
        match history.getMoreRecentTx with
        | none => true
        | some moreRecentTx =>
          tm.cfg.retryInterval ≤ (now : Int) - moreRecentTx.createdAt

/-- Send the claim of one group.  The call is made once to estimate the gas
and once more to send the transaction. -/
def sendClaim (tm : MonitorCompressedTxs H) (inputs : PassInputs H)
    (onlyFirstOne : Bool) (entry : MonitoredTxGroupDBEntry H) :
    MonitoredTxGroupDBEntry H × Option H :=
  if entry.compressedTxData = none then (entry, none)
  else if !tm.canSendNewClaimCall (inputs.clock (.canSend entry.groupID))
      entry then
    (entry, none)
  else if onlyFirstOne && !entry.isClaimTxHistoryEmpty then (entry, none)
  else
    match inputs.estimateGas entry.groupID with
    | .error err =>
      ({ entry with lastLog := some (.sendFailed entry.groupID err) },
        none)
    | .ok () =>
      match inputs.sendCompressedClaims entry.groupID with
      | .error err =>
        ({ entry with lastLog := some (.sendFailed entry.groupID err) },
          none)
      | .ok txHash =>
        let claiming :=
          { entry with status := .claiming }.addPendingTx txHash
            (inputs.clock (.pendingTx entry.groupID))
        ({ claiming with
           numRetries := incrementInt32 claiming.numRetries },
          some txHash)

abbrev Sent (H : Type) := List (Nat × H)

def sendClaims (tm : MonitorCompressedTxs H) (inputs : PassInputs H)
    (onlyFirstOne : Bool) (pending : PendingTxs H) :
    PendingTxs H × Sent H :=
  ({ pending with
     groupTx := pending.groupTx.map fun group =>
       { group with
         dbEntry := (tm.sendClaim inputs onlyFirstOne group.dbEntry).1 } },
    pending.groupTx.filterMap fun group =>
      (tm.sendClaim inputs onlyFirstOne group.dbEntry).2.map fun txHash =>
        (group.dbEntry.groupID, txHash))

def onFinishClaimGroupTxSuccessful (group : MonitoredTxGroup H)
    (txIndex : Nat) (txHash : H) : MonitoredTxGroup H :=
  MonitoredTxGroup.setTxsStatus
    { group with
      dbEntry :=
        { group.dbEntry.modifyTx txIndex
            TxHashHistoryEntry.receiptSuccessful with
          lastLog := some (.minedSuccessfully group.dbEntry.groupID txHash)
          status := .confirmed } } .confirmed

def onFailGroup (group : MonitoredTxGroup H) : MonitoredTxGroup H :=
  MonitoredTxGroup.setTxsStatus
    { group with
      dbEntry :=
        { group.dbEntry with
          status := .failed
          lastLog := some
            (.reachedMaximumRetries group.dbEntry.groupID) } } .failed

def onFinishClaimGroupTxFailed (group : MonitoredTxGroup H) (txIndex : Nat)
    (log : GroupLog H) : MonitoredTxGroup H :=
  { group with
    dbEntry :=
      { group.dbEntry.modifyTx txIndex TxHashHistoryEntry.receiptFailed with
        lastLog := some log } }

def logGroup (group : MonitoredTxGroup H) (log : GroupLog H) :
    MonitoredTxGroup H :=
  { group with dbEntry := { group.dbEntry with lastLog := some log } }

/-- The loop of `checkReceipts` over the transactions that are left; it stops
at the first successful one. -/
def checkReceiptsFrom (inputs : PassInputs H) (group : MonitoredTxGroup H)
    (txIndex : Nat) : List (TxHashHistoryEntry H) → MonitoredTxGroup H
  | [] => group
  | tx :: rest =>
    if !tx.isPending then checkReceiptsFrom inputs group (txIndex + 1) rest
    else
      match inputs.checkTxWasMined group.dbEntry.groupID txIndex with
      | .error err =>
        checkReceiptsFrom inputs
          (logGroup group (.checkFailed txIndex tx.txHash err))
          (txIndex + 1) rest
      | .ok none =>
        checkReceiptsFrom inputs (logGroup group (.notMined tx.txHash))
          (txIndex + 1) rest
      | .ok (some receipt) =>
        if receipt.status = 1 ∧ 0 < receipt.logs then
          onFinishClaimGroupTxSuccessful group txIndex tx.txHash
        else
          checkReceiptsFrom inputs
            (onFinishClaimGroupTxFailed group txIndex
              (.receiptFailedOrNoLogs tx.txHash))
            (txIndex + 1) rest

/-- A group that is claiming has a history. -/
def checkReceipt (inputs : PassInputs H) (group : MonitoredTxGroup H) :
    Except PassErr (MonitoredTxGroup H) :=
  if group.dbEntry.status = .claiming then
    match group.dbEntry.claimTxHistory with
    | none => .error .panic
    | some history => .ok (checkReceiptsFrom inputs group 0 history.txHashes)
  else
    .ok group

def checkReceipts (inputs : PassInputs H) (pending : PendingTxs H) :
    Except PassErr (PendingTxs H) := do
  let groupTx ← pending.groupTx.mapM (checkReceipt inputs)
  pure { pending with groupTx := groupTx }

def outdateFrom (tm : MonitorCompressedTxs H) (inputs : PassInputs H)
    (group : MonitoredTxGroup H) (txIndex : Nat) :
    List (TxHashHistoryEntry H) → MonitoredTxGroup H
  | [] => group
  | tx :: rest =>
    if tx.isPending && tx.isExhaustedTimeWaitingForReceipt
        (inputs.clock (.outdate group.dbEntry.groupID txIndex))
        tm.cfg.retryTimeout then
      tm.outdateFrom inputs
        (onFinishClaimGroupTxFailed group txIndex
          (.reachedMaximumWaitTime tx.txHash))
        (txIndex + 1) rest
    else
      tm.outdateFrom inputs group (txIndex + 1) rest

def failExhausted (tm : MonitorCompressedTxs H)
    (group : MonitoredTxGroup H) : MonitoredTxGroup H :=
  if tm.cfg.maxRetries ≤ group.dbEntry.numRetries then onFailGroup group
  else group

def outdateClaim (tm : MonitorCompressedTxs H) (inputs : PassInputs H)
    (group : MonitoredTxGroup H) : Except PassErr (MonitoredTxGroup H) :=
  if group.dbEntry.status = .claiming then
    match group.dbEntry.claimTxHistory with
    | none => .error .panic
    | some history =>
      .ok (tm.failExhausted (tm.outdateFrom inputs group 0 history.txHashes))
  else
    .ok (tm.failExhausted group)

def outdateClaims (tm : MonitorCompressedTxs H) (inputs : PassInputs H)
    (pending : PendingTxs H) : Except PassErr (PendingTxs H) := do
  let groupTx ← pending.groupTx.mapM (tm.outdateClaim inputs)
  pure { pending with groupTx := groupTx }

def newGroup (inputs : PassInputs H) (groupID : Nat)
    (txs : List (MonitoredTx H)) (compressedData : Option Bytes) :
    MonitoredTxGroup H :=
  newMonitoredTxGroup
    { groupID := groupID
      status := .created
      depositIDs := []
      compressedTxData := compressedData
      claimTxHistory := none
      createdAt := inputs.clock .newGroup
      updatedAt := 0
      numRetries := 0
      lastLog := none } txs

def chosenTxs (tm : MonitorCompressedTxs H) (inputs : PassInputs H)
    (pending : PendingTxs H) : List (MonitoredTx H) :=
  GroupsTrigger.chooseTxs tm.cfg (inputs.clock .trigger)
    pending.txCandidatesForGroup

def createNewGroups (tm : MonitorCompressedTxs H) (inputs : PassInputs H)
    (pending : PendingTxs H) : Except PassErr (PendingTxs H) :=
  if (tm.chosenTxs inputs pending).length = 0 then .ok pending
  else
    match tm.compressClaimComposer.getCompressClaimParametersFromMonitoredTx
        (newGroup inputs (pending.lastGroupTxID + 1)
          (tm.chosenTxs inputs pending) none).txs with
    | .error err => .error (.compose err)
    | .ok _ =>
      match inputs.compressClaimCall with
      | .error err => .error (.compress err)
      | .ok compressedData =>
        .ok (PendingTxs.addGroup
          { pending with lastGroupTxID := pending.lastGroupTxID + 1 }
          (newGroup inputs (pending.lastGroupTxID + 1)
            (tm.chosenTxs inputs pending) compressedData))

/-- Work on the pending transactions.  What was sent is sent even if a later
part fails. -/
def process (tm : MonitorCompressedTxs H) (inputs : PassInputs H)
    (pending : PendingTxs H) : Sent H × Except PassErr (PendingTxs H) :=
  let claimed := tm.sendClaims inputs false pending
  (claimed.2, do
    let checked ← checkReceipts inputs claimed.1
    let outdated ← tm.outdateClaims inputs checked
    tm.createNewGroups inputs outdated)

end MonitorCompressedTxs

variable [DecidableEq H]

def groupChanges (oldState : PendingTxs H) (now : Nat) :
    List (MonitoredTxGroup H) → StoreChanges H
  | [] =>
    { addGroups := []
      updateGroups := []
      updateTxs := [] }
  | group :: rest =>
    let others := groupChanges oldState now rest
    match oldState.group group.dbEntry.groupID with
    | none =>
      { others with
        addGroups :=
          { group.dbEntry with
            updatedAt := now
            depositIDs := group.getTxsDepositID } :: others.addGroups }
    | some oldGroup =>
      if oldGroup.dbEntry = group.dbEntry then others
      else
        { others with
          updateGroups :=
            { group.dbEntry with updatedAt := now } ::
              others.updateGroups }

def changedTxs (oldGroup : MonitoredTxGroup H) :
    List (MonitoredTx H) → Except PassErr (List (MonitoredTx H))
  | [] => .ok []
  | tx :: rest =>
    match oldGroup.getTxByDepositID tx.depositID with
    | none => .error (.txNotFound tx.depositID)
    | some oldTx => do
        let others ← changedTxs oldGroup rest
        pure (if oldTx = tx then others else tx :: others)

/-- All transactions of a new group, and those of an old group that have
changed. -/
def groupTxChanges (oldState : PendingTxs H) (group : MonitoredTxGroup H) :
    Except PassErr (List (MonitoredTx H)) :=
  match oldState.group group.dbEntry.groupID with
  | some oldGroup => changedTxs oldGroup group.txs
  | none => .ok group.txs

def txChanges (oldState : PendingTxs H) :
    List (MonitoredTxGroup H) → Except PassErr (List (MonitoredTx H))
  | [] => .ok []
  | group :: rest => do
      let changed ← groupTxChanges oldState group
      let others ← txChanges oldState rest
      pure (changed ++ others)

def generateStoreUpdate (oldState newState : PendingTxs H) (now : Nat) :
    Except PassErr (StoreChanges H) := do
  let updateTxs ← txChanges oldState newState.groupTx
  pure
    { groupChanges oldState now newState.groupTx with
      updateTxs := updateTxs }

def StoreChanges.isEmpty (sc : StoreChanges H) : Bool :=
  sc.addGroups.isEmpty && sc.updateGroups.isEmpty && sc.updateTxs.isEmpty

/-- The update fails if one of its statements does. -/
def StoreChanges.execute (sc : StoreChanges H) (fault : Bool) (now : Nat)
    (store : ClaimStore H) : Except PassErr (ClaimStore H) :=
  if fault && !sc.isEmpty then .error .database
  else
    match sc.addGroups.foldlM ClaimStore.addMonitoredTxsGroup store with
    | none => .error .database
    | some added =>
      let grouped := sc.updateGroups.foldl (fun store mTxGroup =>
        store.updateMonitoredTxsGroup
          { mTxGroup with updatedAt := now }) added
      .ok (sc.updateTxs.foldl (fun store mTx =>
        store.updateClaimTx mTx now) grouped)

structure PassResult (H : Type) where
  store : ClaimStore H
  sent : MonitorCompressedTxs.Sent H
  err : Option PassErr

namespace MonitorCompressedTxs

def internalMonitorTxs (tm : MonitorCompressedTxs H) (inputs : PassInputs H)
    (store : ClaimStore H) : Sent H × Except PassErr (ClaimStore H) :=
  if inputs.fault .getPendingTxs then ([], .error .database)
  else
    match tm.getPendingTxs inputs store with
    | .error err => ([], .error err)
    | .ok pendingTx =>
      if pendingTx.isEmpty then ([], .ok store)
      else if inputs.fault .getInitialStatus then ([], .error .database)
      else
        match tm.getPendingTxs inputs store with
        | .error err => ([], .error err)
        | .ok initialStatus =>
          let processed := tm.process inputs pendingTx
          (processed.1, do
            let finalStatus ← processed.2
            let storeUpdate ← generateStoreUpdate initialStatus
              finalStatus (inputs.clock .storeUpdate)
            storeUpdate.execute (inputs.fault .execute)
              (inputs.clock .storeUpdate) store)

/-- A pass that fails is rolled back. -/
def monitorTxs (tm : MonitorCompressedTxs H) (inputs : PassInputs H)
    (store : ClaimStore H) : PassResult H :=
  if inputs.fault .beginDBTransaction then
    { store := store
      sent := []
      err := some .database }
  else
    match tm.internalMonitorTxs inputs store with
    | (sent, .error err) =>
      { store := store
        sent := sent
        err := some err }
    | (sent, .ok store') =>
      if inputs.fault .commit then
        { store := store
          sent := sent
          err := some .database }
      else
        { store := store'
          sent := sent
          err := none }

end MonitorCompressedTxs

end BridgeService
