import BridgeService.Bridgectrl.Controller

/-!
# The synchronizer

One synchronizer follows one network.  It stores the events of each block in
one database transaction, in the order in which the events were emitted, and
undoes the transaction and the change to the exit tree when a handler fails.
Two exits return without undoing anything, as in the source: an order entry
whose position is not in the block, and a global exit root with a wrong number
of exit roots.
-/

namespace BridgeService

open ErrorState

/-- Settings of one synchronizer.  The retries bound the loop that rebuilds
the exit tree during a rollback. -/
structure ClientSynchronizer where
  networkID : Nat
  allNetworkIDs : List Nat
  chsExitRootEvent : List Nat
  retries : Nat
deriving DecidableEq

structure NewGers where
  isNewL1Ger : Bool
  isNewL2Ger : Bool
deriving DecidableEq

namespace ClientSynchronizer

variable {H α : Type} [DecidableEq H] [Externals H]

/-- Rebuild the exit tree from the committed database until it succeeds. -/
def retryRollbackMT (s : ClientSynchronizer) : Nat → Service H Unit
  | 0 => throw .outOfFuel
  | fuel + 1 =>
    handle (BridgeController.rollbackMT s.networkID .pool) fun _ =>
      retryRollbackMT s fuel

def rollback (s : ClientSynchronizer) (err : Err) : Service H α := do
  s.retryRollbackMT s.retries
  Storage.rollback
  throw err

/-- Roll back when a call fails; a panic is not an error. -/
def orRollback (s : ClientSynchronizer) (call : Service H α) :
    Service H α :=
  handle call fun
    | .panic => throw .panic
    | err => s.rollback err

def processVerifyBatch (s : ClientSynchronizer) (verifyBatch : VerifiedBatch H)
    (blockID : Nat) : Service H Unit :=
  if verifyBatch.localExitRoot = hashZero then pure ()
  else do
    if verifyBatch.rollupID ∈ s.allNetworkIDs then
      let ok ← s.orRollback (Storage.checkIfRootExists
        verifyBatch.localExitRoot verifyBatch.rollupID .tx)
      if !ok then s.rollback .rootDoesNotExist
    s.orRollback (BridgeController.addRollupExitLeaf
      { id := 0
        blockID := blockID
        leaf := verifyBatch.localExitRoot
        rollupId := verifyBatch.rollupID
        root := hashZero } .tx)

/-- Exit roots of an L2 entry, if its L1 entry is already stored. -/
def knownExitRoots (ger : H) : Service H (List H) :=
  handle
    (do
      let l1GER ← Storage.getL1ExitRootByGER ger .pool
      pure l1GER.exitRoots)
    fun
    | .storageNotFound => pure []
    | err => throw err

def processGlobalExitRoot (s : ClientSynchronizer)
    (globalExitRoot : GlobalExitRoot H) (blockID : Nat) : Service H Unit :=
  let globalExitRoot : GlobalExitRoot H :=
    { globalExitRoot with
      blockID := blockID
      networkID := s.networkID }
  if globalExitRoot.exitRoots.length = 2 then do
    let gers ← s.orRollback
      (Storage.getL2ExitRootsByGER globalExitRoot.globalExitRoot .pool)
    let _ ← gers.foldlM (fun _ ger =>
      s.orRollback (Storage.updateL2GER
        { ger with exitRoots := globalExitRoot.exitRoots } .tx)) ()
    s.orRollback (Storage.addGlobalExitRoot globalExitRoot .tx)
  else if globalExitRoot.exitRoots.length = 0 then do
    let exitRoots ← s.orRollback
      (knownExitRoots globalExitRoot.globalExitRoot)
    s.orRollback (Storage.addGlobalExitRoot
      { globalExitRoot with exitRoots := exitRoots } .tx)
  else
    throw (.wrongExitRootsLength globalExitRoot.exitRoots.length)

def storeDeposit (s : ClientSynchronizer) (deposit : Deposit H) :
    Service H Unit := do
  let depositID ← s.orRollback (Storage.addDeposit deposit .tx)
  s.orRollback
    (BridgeController.addDeposit { deposit with id := depositID } .tx)

def processDeposit (s : ClientSynchronizer) (deposit : Deposit H)
    (blockID : Nat) : Service H Unit :=
  s.storeDeposit
    { deposit with
      blockID := blockID
      networkID := s.networkID }

def processClaim (s : ClientSynchronizer) (claim : Claim H) (blockID : Nat) :
    Service H Unit :=
  s.orRollback (Storage.addClaim
    { claim with
      blockID := blockID
      networkID := s.networkID } .tx)

def processTokenWrapped (s : ClientSynchronizer) (tokenWrapped : TokenWrapped)
    (blockID : Nat) : Service H Unit :=
  s.orRollback (Storage.addTokenWrapped
    { tokenWrapped with
      blockID := blockID
      networkID := s.networkID } .tx)

def processRemoveL2GlobalExitRoot (s : ClientSynchronizer)
    (ger : GlobalExitRoot H) (blockID : Nat) : Service H Unit :=
  s.orRollback (Storage.addRemoveL2GER
    { ger with
      blockID := blockID
      networkID := s.networkID } .tx)

/-- Compare the exit tree with the root and count of a LET event. -/
def checkLET (s : ClientSynchronizer) (blockNumber : Nat) (root : H)
    (depositCount : Nat) : Service H Unit := do
  let depositCnt ← s.orRollback
    (Storage.getNumberDeposits s.networkID blockNumber .tx)
  let localExitTreeRoot ← s.orRollback
    (BridgeController.getExitRoot s.networkID .tx)
  if localExitTreeRoot ≠ root ∨ depositCnt ≠ depositCount then
    s.rollback .letMismatch

def processBackwardLETSovereign (s : ClientSynchronizer)
    (backwardLET : BackwardLET H) (blockID blockNumber : Nat) :
    Service H Unit := do
  s.checkLET blockNumber backwardLET.previousRoot
    backwardLET.previousDepositCount
  s.orRollback
    (Storage.resetDeposits backwardLET.newDepositCount s.networkID .tx)
  s.orRollback
    (BridgeController.reorgMT backwardLET.newDepositCount s.networkID .tx)
  s.checkLET blockNumber backwardLET.newRoot backwardLET.newDepositCount
  s.orRollback
    (Storage.addBackwardLET { backwardLET with blockID := blockID } .tx)

def leafDeposit (s : ClientSynchronizer) (forwardLET : ForwardLET H)
    (blockID blockNumber depositCount : Nat) (leaf : LeafData) : Deposit H :=
  { id := 0
    leafType := leaf.leafType
    originalNetwork := leaf.originNetwork
    originalAddress := leaf.originAddress
    amount := leaf.amount
    destinationNetwork := leaf.destinationNetwork
    destinationAddress := leaf.destinationAddress
    depositCount := depositCount
    blockID := blockID
    blockNumber := blockNumber
    networkID := s.networkID
    txHash := forwardLET.txHash
    metadata := leaf.metadata
    readyForClaim := false }

def processForwardLETSovereign (s : ClientSynchronizer)
    (forwardLET : ForwardLET H) (blockID blockNumber : Nat) :
    Service H Unit := do
  s.checkLET blockNumber forwardLET.previousRoot
    forwardLET.previousDepositCount
  let initialDepositCount ← s.orRollback
    (Storage.getNumberDeposits s.networkID blockNumber .tx)
  let _ ← forwardLET.newLeaves.zipIdx.foldlM (fun _ (leaf, i) =>
    s.storeDeposit (s.leafDeposit forwardLET blockID blockNumber
      ((initialDepositCount + i) % 2 ^ 32) leaf)) ()
  s.checkLET blockNumber forwardLET.newRoot forwardLET.newDepositCount
  s.orRollback
    (Storage.addForwardLET { forwardLET with blockID := blockID } .tx)

def processUnsetClaimSovereign (s : ClientSynchronizer)
    (unsetClaim : UnsetClaim) (blockID : Nat) : Service H Unit := do
  s.orRollback
    (Storage.addUnsetClaim { unsetClaim with blockID := blockID } .tx)
  s.orRollback
    (Storage.deleteClaimByGlobalIndex unsetClaim.globalIndex s.networkID .tx)

def processSetClaimSovereign (s : ClientSynchronizer) (setClaim : SetClaim H)
    (blockID blockNumber : Nat) : Service H Unit := do
  s.orRollback (Storage.addSetClaim { setClaim with blockID := blockID } .tx)
  let depositNetwork :=
    if setClaim.mainnetFlag then 0 else (setClaim.rollupIndex + 1) % 2 ^ 32
  let deposit ← s.orRollback
    (Storage.getDeposit setClaim.index depositNetwork .tx)
  if s.networkID ≠ deposit.destinationNetwork then
    s.rollback .destinationMismatch
  s.orRollback (Storage.addClaim
    { mainnetFlag := setClaim.mainnetFlag
      rollupIndex := setClaim.rollupIndex
      index := setClaim.index
      originalNetwork := deposit.originalNetwork
      originalAddress := deposit.originalAddress
      amount := deposit.amount
      destinationAddress := deposit.destinationAddress
      blockID := blockID
      blockNumber := blockNumber
      networkID := s.networkID
      txHash := setClaim.txHash
      globalIndex := toString setClaim.globalIndex } .tx)

/-- The event at a position of a block; there is no rollback if it is
missing. -/
def eventAt (event : EventOrder) (events : List α) (pos : Nat) :
    Service H α :=
  match events[pos]? with
  | none => throw (.invalidDataFromRPC event)
  | some found => pure found

def processElement (s : ClientSynchronizer) (block : Block H) (blockID : Nat)
    (gers : NewGers) (element : Order) : Service H NewGers :=
  match element.name with
  | .globalExitRootsOrder => do
      let ger ← eventAt element.name block.globalExitRoots element.pos
      s.processGlobalExitRoot ger blockID
      pure
        { isNewL1Ger := gers.isNewL1Ger || ger.exitRoots.length == 2
          isNewL2Ger := gers.isNewL2Ger || ger.exitRoots.length == 0 }
  | .removeL2GEROrder => do
      let ger ← eventAt element.name block.removeL2GER element.pos
      s.processRemoveL2GlobalExitRoot ger blockID
      pure gers
  | .depositsOrder => do
      let deposit ← eventAt element.name block.deposits element.pos
      s.processDeposit deposit blockID
      pure gers
  | .claimsOrder => do
      let claim ← eventAt element.name block.claims element.pos
      s.processClaim claim blockID
      pure gers
  | .tokensOrder => do
      let token ← eventAt element.name block.tokens element.pos
      s.processTokenWrapped token blockID
      pure gers
  | .verifyBatchOrder => do
      let batch ← eventAt element.name block.verifiedBatches element.pos
      s.processVerifyBatch batch blockID
      pure gers
  | .backwardLETOrder => do
      let backwardLET ← eventAt element.name block.backwardLETs element.pos
      s.processBackwardLETSovereign backwardLET blockID block.blockNumber
      pure gers
  | .unsetClaimOrder => do
      let unsetClaim ← eventAt element.name block.unsetClaims element.pos
      s.processUnsetClaimSovereign unsetClaim blockID
      pure gers
  | .setClaimOrder => do
      let setClaim ← eventAt element.name block.setClaims element.pos
      s.processSetClaimSovereign setClaim blockID block.blockNumber
      pure gers
  | .forwardLETOrder => do
      let forwardLET ← eventAt element.name block.forwardLETs element.pos
      s.processForwardLETSovereign forwardLET blockID block.blockNumber
      pure gers

def processBlock (s : ClientSynchronizer) (order : H → List Order)
    (gers : NewGers) (block : Block H) : Service H NewGers := do
  Storage.beginDBTransaction
  let blockID ← s.orRollback (Storage.addBlock block s.networkID .tx)
  let gers ← (order block.blockHash).foldlM
    (s.processElement block blockID) gers
  s.orRollback Storage.commit
  pure gers

/-- The block loop of `processBlockRange`. -/
def processBlocks (s : ClientSynchronizer) (blocks : List (Block H))
    (order : H → List Order) : Service H NewGers :=
  blocks.foldlM (s.processBlock order)
    { isNewL1Ger := false
      isNewL2Ger := false }

/-- Send the latest L1 entry if its rollup exit root is new. -/
def sendL1Ger (s : ClientSynchronizer) : Service H Unit := do
  let ger ← Storage.getLatestL1SyncedExitRoot .pool
  let rollupExitRoot := ger.exitRoots.getD 1 hashZero
  modify fun w =>
    if w.l1RollupExitRoot s.networkID ≠ rollupExitRoot then
      { w with
        l1RollupExitRoot :=
          Function.update w.l1RollupExitRoot s.networkID rollupExitRoot
        exitRootEvents := fun ch =>
          if ch ∈ s.chsExitRootEvent then w.exitRootEvents ch ++ [ger]
          else w.exitRootEvents ch }
    else
      w

/-- Send the latest entry of the network if its L1 entry is known. -/
def sendL2Ger (s : ClientSynchronizer) : Service H Unit :=
  handle
    (do
      let ger ← Storage.getLatestTrustedExitRoot s.networkID .pool
      modify fun w =>
        { w with
          exitRootEvents := Function.update w.exitRootEvents s.networkID
            (w.exitRootEvents s.networkID ++ [ger]) })
    fun
    | .l1GERNotFound => pure ()
    | err => throw err

def processBlockRange (s : ClientSynchronizer) (blocks : List (Block H))
    (order : H → List Order) : Service H Unit := do
  let gers ← s.processBlocks blocks order
  if gers.isNewL1Ger then s.sendL1Ger
  if gers.isNewL2Ger then s.sendL2Ger

/-- Store the global exit root that the trusted sequencer reported, and send
it if it is new.  The exit roots are missing if the sequencer has none. -/
def syncTrustedState (s : ClientSynchronizer) (lastGER : H)
    (exitRoots : Option (H × H)) : Service H Unit :=
  if lastGER = hashZero then pure ()
  else
    match exitRoots with
    | none => pure ()
    | some (mainnetExitRoot, rollupExitRoot) => do
        let ger : GlobalExitRoot H :=
          { blockID := 0
            blockNumber := 0
            exitRoots := [mainnetExitRoot, rollupExitRoot]
            globalExitRoot := lastGER
            networkID := s.networkID
            id := 0 }
        let isUpdated ← Storage.addTrustedGlobalExitRoot ger .pool
        if isUpdated then
          modify fun w =>
            { w with
              exitRootEvents := Function.update w.exitRootEvents s.networkID
                (w.exitRootEvents s.networkID ++ [ger]) }

def resetState (s : ClientSynchronizer) (blockNumber : Nat) :
    Service H Unit := do
  Storage.beginDBTransaction
  s.orRollback (Storage.reset blockNumber s.networkID .tx)
  let depositCnt ← s.orRollback
    (Storage.getNumberDeposits s.networkID blockNumber .tx)
  s.orRollback (BridgeController.reorgMT depositCnt s.networkID .tx)
  s.orRollback Storage.commit

end ClientSynchronizer

end BridgeService
