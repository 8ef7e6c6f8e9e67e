import BridgeService.Bridgectrl.RollupExit
import BridgeService.Storage.ExitTables
import BridgeService.Synchronizer.Handlers

/-!
# What an event does to the tables

One rule for each kind of event says how the tables change when its handler
succeeds.  Everything that is proved about runs of the synchronizer is proved
from these rules.
-/

namespace BridgeService

inductive Event (H : Type)
  | globalExitRoot (ger : GlobalExitRoot H)
  | removeL2GER (ger : GlobalExitRoot H)
  | deposit (deposit : Deposit H)
  | claim (claim : Claim H)
  | token (token : TokenWrapped)
  | verifyBatch (batch : VerifiedBatch H)
  | backwardLET (backwardLET : BackwardLET H)
  | unsetClaim (unsetClaim : UnsetClaim)
  | setClaim (setClaim : SetClaim H)
  | forwardLET (forwardLET : ForwardLET H)

variable {H : Type}

def Block.event (block : Block H) (element : Order) : Option (Event H) :=
  match element.name with
  | .globalExitRootsOrder =>
    block.globalExitRoots[element.pos]?.map .globalExitRoot
  | .removeL2GEROrder => block.removeL2GER[element.pos]?.map .removeL2GER
  | .depositsOrder => block.deposits[element.pos]?.map .deposit
  | .claimsOrder => block.claims[element.pos]?.map .claim
  | .tokensOrder => block.tokens[element.pos]?.map .token
  | .verifyBatchOrder => block.verifiedBatches[element.pos]?.map .verifyBatch
  | .backwardLETOrder => block.backwardLETs[element.pos]?.map .backwardLET
  | .unsetClaimOrder => block.unsetClaims[element.pos]?.map .unsetClaim
  | .setClaimOrder => block.setClaims[element.pos]?.map .setClaim
  | .forwardLETOrder => block.forwardLETs[element.pos]?.map .forwardLET

/-- A global exit root has no exit roots, on L2, or two of them, on L1. -/
def Event.WellFormed : Event H → Prop
  | .globalExitRoot ger =>
    ger.exitRoots.length = 0 ∨ ger.exitRoots.length = 2
  | _ => True

/-- The order entry points to an event of the block that can be handled. -/
def Block.WellFormedAt (block : Block H) (element : Order) : Prop :=
  ∃ event, block.event element = some event ∧ event.WellFormed

/-- Counts of an event stay below the number of leaves of the exit tree, as
the bridge contract enforces. -/
def Event.WithinCap (height : Nat) : Event H → Prop
  | .deposit made => made.depositCount + 1 < 2 ^ height
  | .forwardLET added =>
    added.previousDepositCount + added.newLeaves.length < 2 ^ height
  | _ => True

/-- What the effect of an event depends on besides the tables of the
transaction. -/
structure BlockContext (H : Type) where
  height : Nat
  rollupHeight : Nat
  synchronizer : ClientSynchronizer
  committed : Tables H
  blockID : Nat
  blockNumber : Nat

variable [DecidableEq H] [Externals H]

inductive DepositsPushed (height : Nat) :
    List (Deposit H) → Tables H → Tables H → Prop
  | nil (t : Tables H) : DepositsPushed height [] t t
  | cons {deposit : Deposit H} {rest : List (Deposit H)} {t t' : Tables H}
      (id : Nat) (fresh : ∀ row, row ∈ t.deposit → row.id < id)
      (next : deposit.depositCount = (t.leavesOf deposit.networkID).length)
      (others : DepositsPushed height rest
        (t.pushDeposit height (Storage.depositRow id deposit)) t') :
      DepositsPushed height (deposit :: rest) t t'

namespace BlockContext

def networkID (ctx : BlockContext H) : Nat :=
  ctx.synchronizer.networkID

def LETMatches (ctx : BlockContext H) (root : H) (depositCount : Nat)
    (t : Tables H) : Prop :=
  treeRoot ctx.height (t.leavesOf ctx.networkID) = root ∧
    t.getNumberDeposits ctx.networkID ctx.blockNumber = depositCount

def forwardDeposits (ctx : BlockContext H) (forwardLET : ForwardLET H) :
    List (Deposit H) :=
  forwardLET.newLeaves.zipIdx.map fun (leaf, i) =>
    ctx.synchronizer.leafDeposit forwardLET ctx.blockID ctx.blockNumber
      ((forwardLET.previousDepositCount + i) % 2 ^ 32) leaf

/-- Entries of the exit roots table after an L1 global exit root has completed
the L2 entries that waited for it. -/
def completeL2 (ctx : BlockContext H) (ger : GlobalExitRoot H)
    (t : Tables H) : Tables H :=
  (ctx.committed.getL2ExitRootsByGER ger.globalExitRoot).foldl
    (fun t row => t.updateL2GER { row with exitRoots := ger.exitRoots }) t

def fill (ctx : BlockContext H) (ger : GlobalExitRoot H)
    (row : ExitRootRow H) : ExitRootRow H :=
  if row.id ∈ (ctx.committed.getL2ExitRootsByGER ger.globalExitRoot).map
      GlobalExitRoot.id then
    { row with exitRoots := ger.exitRoots }
  else
    row

omit [Externals H] in
theorem completeL2_eq (ctx : BlockContext H) (ger : GlobalExitRoot H)
    (t : Tables H) :
    ctx.completeL2 ger t =
      { t with exitRoot := t.exitRoot.map (ctx.fill ger) } := by
  unfold completeL2 fill
  generalize ctx.committed.getL2ExitRootsByGER ger.globalExitRoot = gers
  induction gers generalizing t with
  | nil => simp
  | cons first rest induction =>
    rw [List.foldl_cons, induction, Tables.updateL2GER, List.map_map]
    congr 1
    apply List.map_congr_left
    intro row _
    by_cases here : row.id = first.id
    · simp [here]
    · simp [here]

/-- Exit roots of an L2 entry: those of its L1 entry, if there is one. -/
def KnownExitRoots (ctx : BlockContext H) (ger : H) (exitRoots : List H) :
    Prop :=
  (∃ l1GER, ctx.committed.getL1ExitRootByGER ger = .ok l1GER ∧
    exitRoots = l1GER.exitRoots) ∨
  ctx.committed.getL1ExitRootByGER ger = .error .storageNotFound ∧
    exitRoots = []

def pushExitRoot (ctx : BlockContext H) (id : Nat) (ger : H)
    (exitRoots : List H) (t : Tables H) : Tables H :=
  { t with
    exitRoot := t.exitRoot ++
      [{ id := id
         blockID := ctx.blockID
         globalExitRoot := ger
         exitRoots := exitRoots
         networkID := ctx.networkID
         allowed := true }] }

def setClaimRow (ctx : BlockContext H) (setClaim : SetClaim H)
    (deposit : Deposit H) : ClaimRow H :=
  { networkID := ctx.networkID
    index := setClaim.index
    origNet := deposit.originalNetwork
    origAddr := deposit.originalAddress
    amount := deposit.amount
    destAddr := deposit.destinationAddress
    blockID := ctx.blockID
    txHash := setClaim.txHash
    rollupIndex := setClaim.rollupIndex
    mainnetFlag := setClaim.mainnetFlag
    globalIndex := toString setClaim.globalIndex }

end BlockContext

/-- The tables after the handler of an event has succeeded. -/
inductive Applies (ctx : BlockContext H) (t : Tables H) :
    Event H → Tables H → Prop
  | globalExitRootL1 {ger : GlobalExitRoot H} (id : Nat)
      (two : ger.exitRoots.length = 2)
      (fresh : ∀ row, row ∈ (ctx.completeL2 ger t).exitRoot → row.id < id) :
      Applies ctx t (.globalExitRoot ger)
        (ctx.pushExitRoot id ger.globalExitRoot ger.exitRoots
          (ctx.completeL2 ger t))
  | globalExitRootL2 {ger : GlobalExitRoot H} (id : Nat)
      (none : ger.exitRoots.length = 0) (exitRoots : List H)
      (known : ctx.KnownExitRoots ger.globalExitRoot exitRoots)
      (fresh : ∀ row, row ∈ t.exitRoot → row.id < id) :
      Applies ctx t (.globalExitRoot ger)
        (ctx.pushExitRoot id ger.globalExitRoot exitRoots t)
  | removeL2GER {ger : GlobalExitRoot H} (low high : Nat)
      (found : ∃ row, row ∈ t.exitRoot ∧
        Storage.isEntryOf ger.globalExitRoot ctx.networkID row = true) :
      Applies ctx t (.removeL2GER ger)
        (Tables.setReady
          { t with
            removeExitRoot := t.removeExitRoot ++
              [{ blockID := ctx.blockID
                 globalExitRoot := ger.globalExitRoot
                 networkID := ctx.networkID }]
            exitRoot := t.exitRoot.map fun row =>
              if Storage.isEntryOf ger.globalExitRoot ctx.networkID row then
                { row with allowed := false }
              else
                row }
          false fun row => low < row.id && row.id ≤ high &&
            row.networkID == 0 && row.destNet == ctx.networkID)
  | deposit {made : Deposit H} {t' : Tables H}
      (pushed : DepositsPushed ctx.height
        [{ made with
           blockID := ctx.blockID
           networkID := ctx.networkID }] t t') :
      Applies ctx t (.deposit made) t'
  | claim {made : Claim H} :
      Applies ctx t (.claim made)
        { t with
          claim := t.claim ++
            [Storage.claimRow
              { made with
                blockID := ctx.blockID
                networkID := ctx.networkID }] }
  | token {wrapped : TokenWrapped} (row : TokenRow)
      (here : row.blockID = ctx.blockID)
      (onNetwork : row.networkID = ctx.networkID) :
      Applies ctx t (.token wrapped)
        { t with tokenWrapped := t.tokenWrapped ++ [row] }
  | verifyBatchIgnored {batch : VerifiedBatch H}
      (zero : batch.localExitRoot = hashZero) :
      Applies ctx t (.verifyBatch batch) t
  | verifyBatch {batch : VerifiedBatch H} {t' : Tables H}
      (nonzero : batch.localExitRoot ≠ hashZero)
      (positive : 0 < batch.rollupID)
      (known : batch.rollupID ∈ ctx.synchronizer.allNetworkIDs →
        t.checkIfRootExists batch.localExitRoot batch.rollupID = true)
      (added : RollupLeafAdded ctx.rollupHeight
        { id := 0
          blockID := ctx.blockID
          leaf := batch.localExitRoot
          rollupId := batch.rollupID
          root := hashZero } t t') :
      Applies ctx t (.verifyBatch batch) t'
  | backwardLET {backward : BackwardLET H}
      (notL1 : ctx.networkID ≠ 0)
      (previous : ctx.LETMatches backward.previousRoot
        backward.previousDepositCount t)
      (enough : backward.newDepositCount ≤ (t.leavesOf ctx.networkID).length)
      (reached : ctx.LETMatches backward.newRoot backward.newDepositCount
        (t.resetDeposits backward.newDepositCount ctx.networkID)) :
      Applies ctx t (.backwardLET backward)
        { t.resetDeposits backward.newDepositCount ctx.networkID with
          backwardLET := t.backwardLET ++
            [{ backward with blockID := ctx.blockID }] }
  | unsetClaim {unset : UnsetClaim} :
      Applies ctx t (.unsetClaim unset)
        { t with
          setUnsetClaim := t.setUnsetClaim ++
            [{ blockID := ctx.blockID
               mainnetFlag := unset.mainnetFlag
               rollupIndex := unset.rollupIndex
               index := unset.index
               globalIndex := toString unset.globalIndex
               type := .unset }]
          claim := t.claim.filter fun row =>
            !(row.globalIndex == toString unset.globalIndex &&
              row.networkID == ctx.networkID) }
  | setClaim {set : SetClaim H} (deposit : Deposit H) :
      Applies ctx t (.setClaim set)
        { t with
          setUnsetClaim := t.setUnsetClaim ++
            [{ blockID := ctx.blockID
               mainnetFlag := set.mainnetFlag
               rollupIndex := set.rollupIndex
               index := set.index
               globalIndex := toString set.globalIndex
               type := .set }]
          claim := t.claim ++ [ctx.setClaimRow set deposit] }
  | forwardLET {forward : ForwardLET H} {t' : Tables H}
      (previous : ctx.LETMatches forward.previousRoot
        forward.previousDepositCount t)
      (pushed : DepositsPushed ctx.height (ctx.forwardDeposits forward) t t')
      (reached : ctx.LETMatches forward.newRoot forward.newDepositCount t') :
      Applies ctx t (.forwardLET forward)
        { t' with
          forwardLET := t'.forwardLET ++
            [{ blockID := ctx.blockID
               previousDepositCnt := forward.previousDepositCount
               previousRoot := forward.previousRoot
               newDepositCnt := forward.newDepositCount
               newRoot := forward.newRoot
               newRawLeaves := forward.newRawLeaves }] }

end BridgeService
