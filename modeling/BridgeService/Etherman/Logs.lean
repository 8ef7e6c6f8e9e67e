import BridgeService.Etherman.GlobalIndex
import BridgeService.Lib.Grouping
import BridgeService.Lib.Interleaving
import BridgeService.Synchronizer.Events

/-!
# Logs of a range of blocks

`readEvents` turns the logs of a range into blocks.  Every decoder makes a
record of its log and appends it to a list of the last block, or opens a block
if the log is from another one, and adds an entry to the order of the events of
that block.  The order is kept by block hash.

A log is taken as the contract bindings parse it.  Logs with a signature that
is ignored are not told apart.
-/

namespace BridgeService

variable {H : Type}

structure BridgeEvent where
  leafType : Nat
  originNetwork : Nat
  originAddress : Address
  destinationNetwork : Nat
  destinationAddress : Address
  amount : Nat
  metadata : Bytes
  depositCount : Nat
deriving DecidableEq

structure ClaimEvent where
  globalIndex : BitVec 256
  originNetwork : Nat
  originAddress : Address
  destinationAddress : Address
  amount : Nat
deriving DecidableEq

/-- The event `ClaimEvent` of the first version of the bridge contract. -/
structure OldClaimEvent where
  index : Nat
  originNetwork : Nat
  originAddress : Address
  destinationAddress : Address
  amount : Nat
deriving DecidableEq

structure LETEvent (H : Type) where
  previousDepositCount : Nat
  previousRoot : H
  newDepositCount : Nat
  newRoot : H
deriving DecidableEq

inductive LogData (H : Type)
  | updateGlobalExitRoot (mainnetExitRoot rollupExitRoot : H)
  | updateL1InfoTree (mainnetExitRoot rollupExitRoot : H)
  | deposit (d : BridgeEvent)
  | claim (c : ClaimEvent)
  | oldClaim (c : OldClaimEvent)
  | newWrappedToken (originNetwork : Nat)
      (originTokenAddress wrappedTokenAddress : Address)
  | verifyBatchesTrustedAggregator (rollupID : Nat) (exitRoot : H)
  | rollupManagerVerifyBatches (rollupID : Nat) (exitRoot : H)
  | updateHashChainValue (newGlobalExitRoot : H)
  | updateRemovalHashChainValue (removedGlobalExitRoot : H)
  | backwardLET (LET : LETEvent H)
  | forwardLET (LET : LETEvent H) (newLeaves : Bytes)
  | setClaim (globalIndex : BitVec 256)
  | updatedUnsetGlobalIndexHashChain (unsetGlobalIndex : BitVec 256)
  | ignored
  | unparsed
deriving DecidableEq

structure Log (H : Type) where
  blockNumber : Nat
  blockHash : H
  txHash : H
  data : LogData H
deriving DecidableEq

inductive ReadErr
  | parse
  | globalIndex (err : GlobalIndexErr)
  | leaves
  | processing (event : EventOrder)
deriving DecidableEq

/-- The part of the Ethereum client that is not in this model: the decoder of
the leaves of a ForwardLET event. -/
structure EtherMan where
  decodeForwardLETLeaves : Bytes → Option (List LeafData)

def Event.order : Event H → EventOrder
  | .globalExitRoot _ => .globalExitRootsOrder
  | .removeL2GER _ => .removeL2GEROrder
  | .deposit _ => .depositsOrder
  | .claim _ => .claimsOrder
  | .token _ => .tokensOrder
  | .verifyBatch _ => .verifyBatchOrder
  | .backwardLET _ => .backwardLETOrder
  | .unsetClaim _ => .unsetClaimOrder
  | .setClaim _ => .setClaimOrder
  | .forwardLET _ => .forwardLETOrder

def Block.opened (blockNumber : Nat) (blockHash : H) : Block H :=
  { blockNumber := blockNumber
    blockHash := blockHash
    globalExitRoots := []
    removeL2GER := []
    deposits := []
    claims := []
    tokens := []
    verifiedBatches := []
    unsetClaims := []
    setClaims := []
    backwardLETs := []
    forwardLETs := [] }

def Block.push (block : Block H) : Event H → Block H
  | .globalExitRoot ger =>
    { block with globalExitRoots := block.globalExitRoots ++ [ger] }
  | .removeL2GER ger => { block with removeL2GER := block.removeL2GER ++ [ger] }
  | .deposit made => { block with deposits := block.deposits ++ [made] }
  | .claim made => { block with claims := block.claims ++ [made] }
  | .token wrapped => { block with tokens := block.tokens ++ [wrapped] }
  | .verifyBatch batch =>
    { block with verifiedBatches := block.verifiedBatches ++ [batch] }
  | .backwardLET backward =>
    { block with backwardLETs := block.backwardLETs ++ [backward] }
  | .unsetClaim unset =>
    { block with unsetClaims := block.unsetClaims ++ [unset] }
  | .setClaim set => { block with setClaims := block.setClaims ++ [set] }
  | .forwardLET forward =>
    { block with forwardLETs := block.forwardLETs ++ [forward] }

def Block.count (block : Block H) : EventOrder → Nat
  | .globalExitRootsOrder => block.globalExitRoots.length
  | .removeL2GEROrder => block.removeL2GER.length
  | .depositsOrder => block.deposits.length
  | .claimsOrder => block.claims.length
  | .tokensOrder => block.tokens.length
  | .verifyBatchOrder => block.verifiedBatches.length
  | .backwardLETOrder => block.backwardLETs.length
  | .unsetClaimOrder => block.unsetClaims.length
  | .setClaimOrder => block.setClaims.length
  | .forwardLETOrder => block.forwardLETs.length

structure Reading (H : Type) where
  blocks : List (Block H)
  blocksOrder : H → List Order

section Decoders

variable [DecidableEq H]

/-- The blocks before the one to which the event of a log belongs, and that
block with the event. -/
def appendOrOpen (vLog : Log H) (event : Event H) (blocks : List (Block H)) :
    Except ReadErr (List (Block H) × Block H) :=
  match blocks.getLast? with
  | none =>
    .ok (blocks, (Block.opened vLog.blockNumber vLog.blockHash).push event)
  | some last =>
    if last.blockHash ≠ vLog.blockHash ∨
        last.blockNumber ≠ vLog.blockNumber then
      .ok (blocks, (Block.opened vLog.blockNumber vLog.blockHash).push event)
    else if last.blockHash = vLog.blockHash ∧
        last.blockNumber = vLog.blockNumber then
      .ok (blocks.dropLast, last.push event)
    else
      .error (.processing event.order)

def storeEvent (vLog : Log H) (event : Event H) (read : Reading H) :
    Except ReadErr (Reading H) := do
  let (earlier, last) ← appendOrOpen vLog event read.blocks
  let order : Order :=
    { name := event.order
      pos := last.count event.order - 1 }
  pure
    { blocks := earlier ++ [last]
      blocksOrder := Function.update read.blocksOrder last.blockHash
        (read.blocksOrder last.blockHash ++ [order]) }

def exitRootOf (vLog : Log H) (exitRoots : List H) (globalExitRoot : H) :
    GlobalExitRoot H :=
  { blockID := 0
    blockNumber := vLog.blockNumber
    exitRoots := exitRoots
    globalExitRoot := globalExitRoot
    networkID := 0
    id := 0 }

def removeL2GER (removedGlobalExitRoot : H) (vLog : Log H) :
    Reading H → Except ReadErr (Reading H) :=
  storeEvent vLog (.removeL2GER (exitRootOf vLog [] removedGlobalExitRoot))

def addSovereignChainL2GER (newGlobalExitRoot : H) (vLog : Log H) :
    Reading H → Except ReadErr (Reading H) :=
  storeEvent vLog (.globalExitRoot (exitRootOf vLog [] newGlobalExitRoot))

def processUpdateGlobalExitRootEvent [Externals H]
    (mainnetExitRoot rollupExitRoot : H) (vLog : Log H) :
    Reading H → Except ReadErr (Reading H) :=
  storeEvent vLog (.globalExitRoot (exitRootOf vLog
    [mainnetExitRoot, rollupExitRoot] (hash mainnetExitRoot rollupExitRoot)))

def depositOf (vLog : Log H) (d : BridgeEvent) : Deposit H :=
  { id := 0
    leafType := d.leafType
    originalNetwork := d.originNetwork
    originalAddress := d.originAddress
    amount := d.amount
    destinationNetwork := d.destinationNetwork
    destinationAddress := d.destinationAddress
    depositCount := d.depositCount
    blockID := 0
    blockNumber := vLog.blockNumber
    networkID := 0
    txHash := vLog.txHash
    metadata := d.metadata
    readyForClaim := false }

def depositEvent (vLog : Log H) (d : BridgeEvent) :
    Reading H → Except ReadErr (Reading H) :=
  storeEvent vLog (.deposit (depositOf vLog d))

def claimOf (vLog : Log H) (amount : Nat)
    (destinationAddress originAddress : Address)
    (index originNetwork rollupIndex : Nat) (mainnetFlag : Bool)
    (globalIndex : String) : Claim H :=
  { mainnetFlag := mainnetFlag
    rollupIndex := rollupIndex
    index := index
    originalNetwork := originNetwork
    originalAddress := originAddress
    amount := amount
    destinationAddress := destinationAddress
    blockID := 0
    blockNumber := vLog.blockNumber
    networkID := 0
    txHash := vLog.txHash
    globalIndex := globalIndex }

def oldClaimOf (vLog : Log H) (c : OldClaimEvent) : Claim H :=
  claimOf vLog c.amount c.destinationAddress c.originAddress c.index
    c.originNetwork 0 false ""

def newClaimOf (vLog : Log H) (c : ClaimEvent) : Except ReadErr (Claim H) :=
  match decodeGlobalIndex c.globalIndex.toNat with
  | .error err => .error (.globalIndex err)
  | .ok (mainnetFlag, rollupIndex, localExitRootIndex) =>
    .ok (claimOf vLog c.amount c.destinationAddress c.originAddress
      localExitRootIndex.toNat c.originNetwork rollupIndex.toNat mainnetFlag
      (toString c.globalIndex.toNat))

def oldClaimEvent (vLog : Log H) (c : OldClaimEvent) :
    Reading H → Except ReadErr (Reading H) :=
  storeEvent vLog (.claim (oldClaimOf vLog c))

def newClaimEvent (vLog : Log H) (c : ClaimEvent) (read : Reading H) :
    Except ReadErr (Reading H) := do
  let claim ← newClaimOf vLog c
  storeEvent vLog (.claim claim) read

def tokenOf (vLog : Log H) (originNetwork : Nat)
    (originTokenAddress wrappedTokenAddress : Address) : TokenWrapped :=
  { metadata :=
      { name := ""
        symbol := ""
        decimals := 0 }
    originalNetwork := originNetwork
    originalTokenAddress := originTokenAddress
    wrappedTokenAddress := wrappedTokenAddress
    blockID := 0
    blockNumber := vLog.blockNumber
    networkID := 0 }

def tokenWrappedEvent (vLog : Log H) (originNetwork : Nat)
    (originTokenAddress wrappedTokenAddress : Address) :
    Reading H → Except ReadErr (Reading H) :=
  storeEvent vLog (.token
    (tokenOf vLog originNetwork originTokenAddress wrappedTokenAddress))

def verifiedBatchOf (vLog : Log H) (rollupID : Nat) (localExitRoot : H) :
    VerifiedBatch H :=
  { blockNumber := vLog.blockNumber
    rollupID := rollupID
    localExitRoot := localExitRoot }

def verifyBatches (vLog : Log H) (rollupID : Nat) (localExitRoot : H) :
    Reading H → Except ReadErr (Reading H) :=
  storeEvent vLog (.verifyBatch (verifiedBatchOf vLog rollupID localExitRoot))

def unsetClaimOf (unsetGlobalIndex : BitVec 256) :
    Except ReadErr UnsetClaim :=
  match decodeGlobalIndex unsetGlobalIndex.toNat with
  | .error err => .error (.globalIndex err)
  | .ok (mainnetFlag, rollupIndex, localRootIndex) =>
    .ok
      { blockID := 0
        mainnetFlag := mainnetFlag
        rollupIndex := rollupIndex.toNat
        index := localRootIndex.toNat
        globalIndex := unsetGlobalIndex.toNat }

def unsetClaimSovereignEvent (vLog : Log H)
    (unsetGlobalIndex : BitVec 256) (read : Reading H) :
    Except ReadErr (Reading H) := do
  let unsetClaim ← unsetClaimOf unsetGlobalIndex
  storeEvent vLog (.unsetClaim unsetClaim) read

def setClaimOf (vLog : Log H) (globalIndex : BitVec 256) :
    Except ReadErr (SetClaim H) :=
  match decodeGlobalIndex globalIndex.toNat with
  | .error err => .error (.globalIndex err)
  | .ok (mainnetFlag, rollupIndex, localRootIndex) =>
    .ok
      { blockID := 0
        mainnetFlag := mainnetFlag
        rollupIndex := rollupIndex.toNat
        index := localRootIndex.toNat
        globalIndex := globalIndex.toNat
        txHash := vLog.txHash }

def setClaimSovereignEvent (vLog : Log H) (globalIndex : BitVec 256)
    (read : Reading H) : Except ReadErr (Reading H) := do
  let setClaim ← setClaimOf vLog globalIndex
  storeEvent vLog (.setClaim setClaim) read

/-- The record of a BackwardLET event; counts are cut to 32 bits. -/
def backwardLETOf (LET : LETEvent H) : BackwardLET H :=
  { blockID := 0
    previousDepositCount := LET.previousDepositCount % 2 ^ 32
    previousRoot := LET.previousRoot
    newDepositCount := LET.newDepositCount % 2 ^ 32
    newRoot := LET.newRoot }

def backwardLETSovereignEvent (vLog : Log H) (LET : LETEvent H) :
    Reading H → Except ReadErr (Reading H) :=
  storeEvent vLog (.backwardLET (backwardLETOf LET))

namespace EtherMan

/-- The record of a ForwardLET event; counts are cut to 32 bits. -/
def forwardLETOf (etherMan : EtherMan) (vLog : Log H) (LET : LETEvent H)
    (newLeaves : Bytes) : Except ReadErr (ForwardLET H) :=
  match etherMan.decodeForwardLETLeaves newLeaves with
  | none => .error .leaves
  | some leaves =>
    .ok
      { blockID := 0
        previousDepositCount := LET.previousDepositCount % 2 ^ 32
        previousRoot := LET.previousRoot
        newDepositCount := LET.newDepositCount % 2 ^ 32
        newRoot := LET.newRoot
        newRawLeaves := newLeaves
        newLeaves := leaves
        txHash := vLog.txHash }

def forwardLETSovereignEvent (etherMan : EtherMan) (vLog : Log H)
    (LET : LETEvent H) (newLeaves : Bytes) (read : Reading H) :
    Except ReadErr (Reading H) := do
  let forwardLET ← etherMan.forwardLETOf vLog LET newLeaves
  storeEvent vLog (.forwardLET forwardLET) read

variable [Externals H]

def processEvent (etherMan : EtherMan) (vLog : Log H) (read : Reading H) :
    Except ReadErr (Reading H) :=
  match vLog.data with
  | .updateGlobalExitRoot mainnetExitRoot rollupExitRoot =>
    processUpdateGlobalExitRootEvent mainnetExitRoot rollupExitRoot vLog read
  | .updateL1InfoTree mainnetExitRoot rollupExitRoot =>
    processUpdateGlobalExitRootEvent mainnetExitRoot rollupExitRoot vLog read
  | .deposit d => depositEvent vLog d read
  | .claim c => newClaimEvent vLog c read
  | .oldClaim c => oldClaimEvent vLog c read
  | .newWrappedToken originNetwork originTokenAddress wrappedTokenAddress =>
    tokenWrappedEvent vLog originNetwork originTokenAddress
      wrappedTokenAddress read
  | .verifyBatchesTrustedAggregator rollupID exitRoot =>
    verifyBatches vLog rollupID exitRoot read
  | .rollupManagerVerifyBatches rollupID exitRoot =>
    verifyBatches vLog rollupID exitRoot read
  | .updateHashChainValue newGlobalExitRoot =>
    addSovereignChainL2GER newGlobalExitRoot vLog read
  | .updateRemovalHashChainValue removedGlobalExitRoot =>
    removeL2GER removedGlobalExitRoot vLog read
  | .backwardLET LET => backwardLETSovereignEvent vLog LET read
  | .forwardLET LET newLeaves =>
    etherMan.forwardLETSovereignEvent vLog LET newLeaves read
  | .setClaim globalIndex => setClaimSovereignEvent vLog globalIndex read
  | .updatedUnsetGlobalIndexHashChain unsetGlobalIndex =>
    unsetClaimSovereignEvent vLog unsetGlobalIndex read
  | .ignored => .ok read
  | .unparsed => .error .parse

def readEvents (etherMan : EtherMan) (logs : List (Log H)) :
    Except ReadErr (Reading H) :=
  logs.foldlM (fun read vLog => etherMan.processEvent vLog read)
    { blocks := []
      blocksOrder := fun _ => [] }

end EtherMan

end Decoders

end BridgeService
