import BridgeService.Storage.Tables

/-!
# The running service

The state shared by the parts of the service: the committed database, the copy
that the open transaction works on, and the trees kept in memory.  Every
storage call may fail; which ones do is decided by an oracle that sees the
position of the call in the run.
-/

namespace BridgeService

inductive StorageCall
  | beginDBTransaction
  | commit
  | rollback
  | addBlock
  | addGlobalExitRoot
  | addDeposit
  | addClaim
  | getTokenMetadata
  | addTokenWrapped
  | reset
  | getNumberDeposits
  | addTrustedGlobalExitRoot
  | getDeposit
  | getLatestL1SyncedExitRoot
  | getL1ExitRootByGER
  | getL2ExitRootsByGER
  | updateL2GER
  | getLatestTrustedExitRoot
  | checkIfRootExists
  | getRoot
  | getLastComputedRoot
  | setRoot
  | get
  | bulkSet
  | addRollupExitLeaves
  | getRollupExitLeavesByRoot
  | isRollupExitRoot
  | getLatestRollupExitLeaves
  | getLastDepositCount
  | updateL1DepositsStatus
  | updateL2DepositsStatus
  | insertRemoveGER
  | updateGERStatus
  | getPreviousGER
  | getDepositCountByGER
  | updateDepositsFlag
  | resetDeposits
  | addBackwardLET
  | addForwardLET
  | addSetUnsetClaim
  | deleteClaimByGlobalIndex
deriving DecidableEq

structure World (H : Type) where
  committed : Tables H
  dbTx : Option (Tables H)
  openTxs : Nat
  seqs : Sequences
  tick : Nat
  fault : Nat → StorageCall → Querier → Bool
  exitTrees : Nat → Option (MerkleTree H)
  rollupsTree : MerkleTree H
  l1RollupExitRoot : Nat → H
  exitRootEvents : Nat → List (GlobalExitRoot H)

abbrev Service (H α : Type) := EStateM Err (World H) α

namespace World

variable {H α : Type}

def view (w : World H) : Querier → Option (Tables H)
  | .pool => some w.committed
  | .tx => w.dbTx

def write (w : World H) (dbTx : Querier) (seqs : Sequences) (t : Tables H) :
    World H :=
  match dbTx with
  | .pool =>
    { w with
      committed := t
      seqs := seqs }
  | .tx =>
    { w with
      dbTx := some t
      seqs := seqs }

def advance (w : World H) : World H :=
  { w with tick := w.tick + 1 }

end World

namespace Storage

variable {H α : Type}

def exec (call : StorageCall) (dbTx : Querier)
    (statement : Sequences → Tables H →
      Except Err (α × Sequences × Tables H)) : Service H α := fun w =>
  if w.fault w.tick call dbTx then .error .database w.advance
  else
    match w.view dbTx with
    | none => .error .nilDBTransaction w.advance
    | some t =>
      match statement w.seqs t with
      | .error err => .error err w.advance
      | .ok (value, seqs, t) =>
        .ok value (w.advance.write dbTx seqs t)

def query (call : StorageCall) (dbTx : Querier)
    (read : Tables H → Except Err α) : Service H α :=
  exec call dbTx fun seqs t => do
    let value ← read t
    pure (value, seqs, t)

def update (call : StorageCall) (dbTx : Querier)
    (change : Tables H → Except Err (Tables H)) : Service H Unit :=
  exec call dbTx fun seqs t => do
    let t ← change t
    pure ((), seqs, t)

def beginDBTransaction : Service H Unit := fun w =>
  if w.fault w.tick .beginDBTransaction .pool then
    .error .database w.advance
  else
    .ok () { w.advance with
      dbTx := some w.committed
      openTxs := w.openTxs + 1 }

def commit : Service H Unit := fun w =>
  match w.dbTx with
  | none => .error .nilDBTransaction w.advance
  | some t =>
    if w.fault w.tick .commit .tx then .error .database w.advance
    else
      .ok () { w.advance with
        committed := t
        dbTx := none
        openTxs := w.openTxs - 1 }

/-- A rollback ends the transaction, also if it returns an error. -/
def rollback : Service H Unit := fun w =>
  match w.dbTx with
  | none => .error .nilDBTransaction w.advance
  | some _ =>
    let ended : World H :=
      { w.advance with
        dbTx := none
        openTxs := w.openTxs - 1 }
    if w.fault w.tick .rollback .tx then .error .database ended
    else .ok () ended

section Sync

variable [DecidableEq H]

def insertBlock (seqs : Sequences) (t : Tables H) (block : Block H)
    (networkID : Nat) : Nat × Sequences × Tables H :=
  match t.block.find? fun row => row.blockHash == block.blockHash with
  | some row => (row.id, seqs, t)
  | none =>
    let id := seqs.block + 1
    (id, { seqs with block := id },
      { t with
        block := t.block ++
          [{ id := id
             blockNum := block.blockNumber
             blockHash := block.blockHash
             networkID := networkID }] })

def addBlock (block : Block H) (networkID : Nat) (dbTx : Querier) :
    Service H Nat :=
  exec .addBlock dbTx fun seqs t => .ok (insertBlock seqs t block networkID)

/-- The constraint `UC` on block, global exit root and network. -/
def exitRootConflict (t : Tables H) (blockID : Nat) (ger : H)
    (networkID : Nat) : Bool :=
  t.exitRoot.any fun row =>
    row.blockID == blockID && row.globalExitRoot == ger &&
      row.networkID == networkID

def insertExitRoot (seqs : Sequences) (t : Tables H) (blockID : Nat) (ger : H)
    (exitRoots : List H) (networkID : Nat) : Sequences × Tables H :=
  let id := seqs.exitRoot + 1
  ({ seqs with exitRoot := id },
    { t with
      exitRoot := t.exitRoot ++
        [{ id := id
           blockID := blockID
           globalExitRoot := ger
           exitRoots := exitRoots
           networkID := networkID
           allowed := true }] })

def addGlobalExitRoot (exitRoot : GlobalExitRoot H) (dbTx : Querier) :
    Service H Unit :=
  if exitRoot.exitRoots.length = 1 then throw .panic
  else
    exec .addGlobalExitRoot dbTx fun seqs t =>
      if exitRootConflict t exitRoot.blockID exitRoot.globalExitRoot
          exitRoot.networkID then
        .error .database
      else
        .ok ((), insertExitRoot seqs t exitRoot.blockID
          exitRoot.globalExitRoot (exitRoot.exitRoots.take 2)
          exitRoot.networkID)

/-- Whether the global exit root of the trusted sequencer was new. -/
def addTrustedGlobalExitRoot (trustedExitRoot : GlobalExitRoot H)
    (dbTx : Querier) : Service H Bool :=
  if trustedExitRoot.exitRoots.length < 2 then throw .panic
  else
    exec .addTrustedGlobalExitRoot dbTx fun seqs t =>
      if exitRootConflict t 0 trustedExitRoot.globalExitRoot
          trustedExitRoot.networkID then
        .ok (false, seqs, t)
      else
        .ok (true, insertExitRoot seqs t 0 trustedExitRoot.globalExitRoot
          (trustedExitRoot.exitRoots.take 2) trustedExitRoot.networkID)

def depositRow (id : Nat) (deposit : Deposit H) : DepositRow H :=
  { id := id
    leafType := deposit.leafType
    networkID := deposit.networkID
    origNet := deposit.originalNetwork
    origAddr := deposit.originalAddress
    amount := deposit.amount
    destNet := deposit.destinationNetwork
    destAddr := deposit.destinationAddress
    blockID := deposit.blockID
    depositCnt := deposit.depositCount
    txHash := deposit.txHash
    metadata := deposit.metadata
    readyForClaim := false
    ignore := false }

def addDeposit (deposit : Deposit H) (dbTx : Querier) : Service H Nat :=
  exec .addDeposit dbTx fun seqs t =>
    let id := seqs.deposit + 1
    .ok (id, { seqs with deposit := id },
      { t with deposit := t.deposit ++ [depositRow id deposit] })

def claimRow (claim : Claim H) : ClaimRow H :=
  { networkID := claim.networkID
    index := claim.index
    origNet := claim.originalNetwork
    origAddr := claim.originalAddress
    amount := claim.amount
    destAddr := claim.destinationAddress
    blockID := claim.blockID
    txHash := claim.txHash
    rollupIndex := claim.rollupIndex
    mainnetFlag := claim.mainnetFlag
    globalIndex := claim.globalIndex }

def addClaim (claim : Claim H) (dbTx : Querier) : Service H Unit :=
  update .addClaim dbTx fun t =>
    if t.claim.any fun row =>
        row.index == claim.index && row.rollupIndex == claim.rollupIndex &&
          row.networkID == claim.networkID &&
          row.mainnetFlag == claim.mainnetFlag then
      .error .database
    else
      .ok { t with claim := t.claim ++ [claimRow claim] }

def getTokenMetadata (networkID destNet : Nat) (originalTokenAddr : Address)
    (dbTx : Querier) : Service H (Option Bytes) :=
  query .getTokenMetadata dbTx fun t =>
    .ok ((t.deposit.find? fun row =>
      row.networkID == networkID && row.origAddr == originalTokenAddr &&
        row.destNet == destNet).map DepositRow.metadata)

def insertTokenWrapped (tokenWrapped : TokenWrapped)
    (tokenMetadata : TokenMetadata) (dbTx : Querier) : Service H Unit :=
  update .addTokenWrapped dbTx fun t =>
    if t.tokenWrapped.any fun row =>
        row.networkID == tokenWrapped.networkID &&
          row.origNet == tokenWrapped.originalNetwork &&
          row.origTokenAddr == tokenWrapped.originalTokenAddress then
      .error .database
    else
      .ok { t with
        tokenWrapped := t.tokenWrapped ++
          [{ networkID := tokenWrapped.networkID
             origNet := tokenWrapped.originalNetwork
             origTokenAddr := tokenWrapped.originalTokenAddress
             wrappedTokenAddr := tokenWrapped.wrappedTokenAddress
             blockID := tokenWrapped.blockID
             metadata := tokenMetadata }] }

def addTokenWrapped [Externals H] (tokenWrapped : TokenWrapped)
    (dbTx : Querier) : Service H Unit := do
  let metadata ← getTokenMetadata tokenWrapped.originalNetwork
    tokenWrapped.networkID tokenWrapped.originalTokenAddress dbTx
  match metadata with
  | none =>
    insertTokenWrapped tokenWrapped
      { name := ""
        symbol := ""
        decimals := 0 } dbTx
  | some bytes =>
    match Externals.decodeToken H bytes with
    | none => throw .tokenMetadata
    | some tokenMetadata =>
      insertTokenWrapped tokenWrapped tokenMetadata dbTx

def reset (blockNumber networkID : Nat) (dbTx : Querier) : Service H Unit :=
  update .reset dbTx fun t => .ok (t.reset blockNumber networkID)

def getNumberDeposits (networkID blockNumber : Nat) (dbTx : Querier) :
    Service H Nat :=
  query .getNumberDeposits dbTx fun t =>
    .ok (t.getNumberDeposits networkID blockNumber)

def getDeposit (depositCounter networkID : Nat) (dbTx : Querier) :
    Service H (Deposit H) :=
  query .getDeposit dbTx fun t => t.getDeposit depositCounter networkID

end Sync

end Storage

end BridgeService
