import BridgeService.Storage.World

/-!
# Statements on trees, exit roots and claims

The remaining functions of the storage layer, and the storage as the store of
the exit trees.
-/

namespace BridgeService

open ErrorState

namespace Storage

variable {H : Type} [DecidableEq H]

section Trees

/-- A failed statement is read as a count of zero rows. -/
def checkIfRootExists (root : H) (network : Nat) (dbTx : Querier) :
    Service H Bool :=
  handle
    (query .checkIfRootExists dbTx fun t =>
      .ok (t.checkIfRootExists root network))
    fun _ => pure false

def getRoot (depositCnt network : Nat) (dbTx : Querier) : Service H H :=
  query .getRoot dbTx fun t => t.getRoot depositCnt network

def getLastComputedRoot (networkID : Nat) (dbTx : Querier) : Service H H :=
  handle
    (query .getLastComputedRoot dbTx fun t => t.getLastComputedRoot networkID)
    fun err => throw (.gettingLastRoot err)

def setRoot (root : H) (depositID network : Nat) (dbTx : Querier) :
    Service H Unit :=
  update .setRoot dbTx fun t => t.setRoot root depositID network

def get (key : H) (dbTx : Querier) : Service H (H × H) :=
  query .get dbTx fun t => t.get key

def bulkSet (rows : List (RhtRow H)) (dbTx : Querier) : Service H Unit :=
  update .bulkSet dbTx fun t => t.bulkSet rows

/-- A failed statement is read as a count of zero. -/
def getLastDepositCount (networkID : Nat) (dbTx : Querier) :
    Service H Nat :=
  handle
    (query .getLastDepositCount dbTx fun t => t.getLastDepositCount networkID)
    fun
    | .storageNotFound => throw .storageNotFound
    | _ => pure 0

def addRollupExitLeaves (rows : List (RollupExitInsert H)) (dbTx : Querier) :
    Service H Unit :=
  exec .addRollupExitLeaves dbTx fun seqs t =>
    let inserted := rows.zipIdx.map fun (row, i) =>
      { id := seqs.rollupExit + i + 1
        blockID := row.blockID
        leaf := row.leaf
        rollupId := row.rollupId
        root := row.root }
    .ok ((), { seqs with rollupExit := seqs.rollupExit + rows.length },
      { t with rollupExit := t.rollupExit ++ inserted })

def getRollupExitLeavesByRoot (root : H) (dbTx : Querier) :
    Service H (List (RollupExitLeaf H)) :=
  query .getRollupExitLeavesByRoot dbTx fun t =>
    .ok (t.getRollupExitLeavesByRoot root)

def isRollupExitRoot (root : H) (dbTx : Querier) : Service H Bool :=
  query .isRollupExitRoot dbTx fun t => .ok (t.isRollupExitRoot root)

def getLatestRollupExitLeaves (dbTx : Querier) :
    Service H (List (RollupExitLeaf H)) :=
  query .getLatestRollupExitLeaves dbTx fun t =>
    .ok t.getLatestRollupExitLeaves

def resetDeposits (depositCount networkID : Nat) (dbTx : Querier) :
    Service H Unit :=
  if networkID = 0 then throw .cannotResetL1Deposits
  else
    update .resetDeposits dbTx fun t =>
      .ok (t.resetDeposits depositCount networkID)

def merkleTreeStore : MerkleTreeStore (World H) H where
  get := get
  bulkSet := bulkSet
  getRoot := getRoot
  setRoot := setRoot
  getLastDepositCount := getLastDepositCount
  addRollupExitLeaves := addRollupExitLeaves
  getLatestRollupExitLeaves := getLatestRollupExitLeaves
  isRollupExitRoot := isRollupExitRoot

end Trees

section ExitRoots

def getLatestL1SyncedExitRoot (dbTx : Querier) :
    Service H (GlobalExitRoot H) :=
  query .getLatestL1SyncedExitRoot dbTx Tables.getLatestL1SyncedExitRoot

def getL1ExitRootByGER (ger : H) (dbTx : Querier) :
    Service H (GlobalExitRoot H) :=
  query .getL1ExitRootByGER dbTx fun t => t.getL1ExitRootByGER ger

def getL2ExitRootsByGER (ger : H) (dbTx : Querier) :
    Service H (List (GlobalExitRoot H)) :=
  query .getL2ExitRootsByGER dbTx fun t => .ok (t.getL2ExitRootsByGER ger)

def updateL2GER (ger : GlobalExitRoot H) (dbTx : Querier) : Service H Unit :=
  update .updateL2GER dbTx fun t => .ok (t.updateL2GER ger)

/-- Any failure to complete the row is reported as a missing L1 entry. -/
def completeFromL1 (ger : H) (dbTx : Querier) : Service H (List H) := do
  let l1GER ← handle (getL1ExitRootByGER ger dbTx) fun
    | .panic => throw .panic
    | _ => throw .l1GERNotFound
  pure l1GER.exitRoots

def getLatestTrustedExitRoot (networkID : Nat) (dbTx : Querier) :
    Service H (GlobalExitRoot H) := do
  let row ← query .getLatestTrustedExitRoot dbTx fun t =>
    match t.latestTrustedRow networkID with
    | none => .error .storageNotFound
    | some row => .ok row
  let exitRoots ←
    if row.exitRoots.length = 2 then pure row.exitRoots
    else completeFromL1 row.globalExitRoot dbTx
  pure
    { blockID := row.blockID
      blockNumber := 0
      exitRoots := exitRoots
      globalExitRoot := row.globalExitRoot
      networkID := row.networkID
      id := row.id }

def getLatestExitRoot (destNetwork : Nat) (dbTx : Querier) :
    Service H (GlobalExitRoot H) :=
  if destNetwork ≠ 0 then getLatestTrustedExitRoot destNetwork dbTx
  else getLatestL1SyncedExitRoot dbTx

/-- Id of a deposit whose root is the mainnet exit root of a stored GER. -/
def getDepositCountByGER (ger : H) (network : Nat) (dbTx : Querier) :
    Service H Nat :=
  query .getDepositCountByGER dbTx fun t =>
    let found := t.deposit.find? fun deposit =>
      t.root.any fun root =>
        root.depositID == deposit.id && root.network == 0 &&
          t.exitRoot.any fun row =>
            row.exitRoots[0]? == some root.root &&
              row.globalExitRoot == ger && row.networkID == network
    match found with
    | none => .error .storageNotFound
    | some deposit => .ok deposit.id

/-- A missing deposit is replaced by a bound of the id range. -/
def depositIDByGER (ger : H) (network missing : Nat) (dbTx : Querier) :
    Service H Nat :=
  handle (getDepositCountByGER ger network dbTx) fun
    | .storageNotFound => pure missing
    | err => throw err

def insertRemoveGER (ger : GlobalExitRoot H) (dbTx : Querier) :
    Service H Unit :=
  update .insertRemoveGER dbTx fun t =>
    .ok { t with
      removeExitRoot := t.removeExitRoot ++
        [{ blockID := ger.blockID
           globalExitRoot := ger.globalExitRoot
           networkID := ger.networkID }] }

def isEntryOf (ger : H) (networkID : Nat) (row : ExitRootRow H) : Bool :=
  row.globalExitRoot == ger && row.networkID == networkID

/-- Forbid the entries of a removed GER; the id of one of them is returned. -/
def updateGERStatus (ger : GlobalExitRoot H) (dbTx : Querier) :
    Service H Nat :=
  exec .updateGERStatus dbTx fun seqs t =>
    match t.exitRoot.find? (isEntryOf ger.globalExitRoot ger.networkID) with
    | none => .error .database
    | some row =>
      .ok (row.id, seqs,
        { t with
          exitRoot := t.exitRoot.map fun row =>
            if isEntryOf ger.globalExitRoot ger.networkID row then
              { row with allowed := false }
            else
              row })

def getPreviousGER (gerID networkID : Nat) (dbTx : Querier) :
    Service H H :=
  query .getPreviousGER dbTx fun t =>
    match Rows.lastBy ExitRootRow.id (t.exitRoot.filter fun row =>
      row.networkID == networkID && row.id < gerID) with
    | none => .error .database
    | some row => .ok row.globalExitRoot

def updateDepositsFlag (prevDepositID currentDepositID networkID : Nat)
    (dbTx : Querier) : Service H Unit :=
  update .updateDepositsFlag dbTx fun t =>
    if 2 ^ 63 ≤ currentDepositID then .error .database
    else
      .ok (t.setReady false fun row =>
        prevDepositID < row.id && row.id ≤ currentDepositID &&
          row.networkID == 0 && row.destNet == networkID)

def addRemoveL2GER (ger : GlobalExitRoot H) (dbTx : Querier) :
    Service H Unit := do
  insertRemoveGER ger dbTx
  let gerID ← updateGERStatus ger dbTx
  let prevGer ← getPreviousGER gerID ger.networkID dbTx
  let prevDepositID ← depositIDByGER prevGer ger.networkID 0 dbTx
  let currentDepositID ←
    depositIDByGER ger.globalExitRoot ger.networkID (2 ^ 64 - 1) dbTx
  updateDepositsFlag prevDepositID currentDepositID ger.networkID dbTx

end ExitRoots

section Status

/-- Mark deposits up to a count read by a scalar subquery. -/
def markReady (t : Tables H) (counts : List Nat)
    (matching : DepositRow H → Bool) : Except Err (Tables H) :=
  match counts with
  | [] => .ok t
  | [limit] =>
    .ok (t.setReady true fun row => row.depositCnt ≤ limit && matching row)
  | _ => .error .database

def updateL1DepositsStatus (exitRoot : H) (destinationNetwork : Nat)
    (dbTx : Querier) : Service H Unit :=
  update .updateL1DepositsStatus dbTx fun t =>
    markReady t (t.depositCountsByRoot exitRoot 0) fun row =>
      row.networkID == 0 && row.destNet == destinationNetwork

def updateL2DepositsStatus (exitRoot : H) (rollupID networkID : Nat)
    (isDestNetL1 : Bool) (dbTx : Querier) : Service H Unit :=
  update .updateL2DepositsStatus dbTx fun t =>
    match t.rollupExitRows exitRoot rollupID with
    | [] => .ok t
    | [row] =>
      markReady t (t.depositCountsByRoot row.leaf networkID) fun deposit =>
        deposit.networkID == networkID &&
          if isDestNetL1 then deposit.destNet == 0
          else deposit.destNet != 0
    | _ => .error .database

end Status

section LETs

def addBackwardLET (backwardLET : BackwardLET H) (dbTx : Querier) :
    Service H Unit :=
  update .addBackwardLET dbTx fun t =>
    .ok { t with backwardLET := t.backwardLET ++ [backwardLET] }

def addForwardLET (forwardLET : ForwardLET H) (dbTx : Querier) :
    Service H Unit :=
  update .addForwardLET dbTx fun t =>
    .ok { t with
      forwardLET := t.forwardLET ++
        [{ blockID := forwardLET.blockID
           previousDepositCnt := forwardLET.previousDepositCount
           previousRoot := forwardLET.previousRoot
           newDepositCnt := forwardLET.newDepositCount
           newRoot := forwardLET.newRoot
           newRawLeaves := forwardLET.newRawLeaves }] }

def addSetUnsetClaim (row : SetUnsetClaimRow) (dbTx : Querier) :
    Service H Unit :=
  update .addSetUnsetClaim dbTx fun t =>
    .ok { t with setUnsetClaim := t.setUnsetClaim ++ [row] }

def addSetClaim (setClaim : SetClaim H) (dbTx : Querier) : Service H Unit :=
  addSetUnsetClaim
    { blockID := setClaim.blockID
      mainnetFlag := setClaim.mainnetFlag
      rollupIndex := setClaim.rollupIndex
      index := setClaim.index
      globalIndex := toString setClaim.globalIndex
      type := .set } dbTx

def addUnsetClaim (unsetClaim : UnsetClaim) (dbTx : Querier) :
    Service H Unit :=
  addSetUnsetClaim
    { blockID := unsetClaim.blockID
      mainnetFlag := unsetClaim.mainnetFlag
      rollupIndex := unsetClaim.rollupIndex
      index := unsetClaim.index
      globalIndex := toString unsetClaim.globalIndex
      type := .unset } dbTx

def deleteClaimByGlobalIndex (globalIndex networkID : Nat) (dbTx : Querier) :
    Service H Unit :=
  update .deleteClaimByGlobalIndex dbTx fun t =>
    .ok { t with
      claim := t.claim.filter fun row =>
        !(row.globalIndex == toString globalIndex &&
          row.networkID == networkID) }

end LETs

end Storage

end BridgeService
