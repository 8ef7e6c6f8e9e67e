import BridgeService.Bridgectrl.MerkleTree
import BridgeService.Lib.Rows

/-!
# Tables of the bridge database

The schemas `sync` and `mt` as lists of rows, with the statements of the
storage layer as functions on them.  A statement reads the whole database and
either fails or returns its result; unique constraints and the number of rows
of a scalar subquery are checked as the database does.

The row of `sync.block` with id zero, to which rows of the trusted sequencer
refer, has neither a number nor a network and is never deleted; it is not
listed.
-/

namespace BridgeService

open List

structure BlockRow (H : Type) where
  id : Nat
  blockNum : Nat
  blockHash : H
  networkID : Nat
deriving DecidableEq

structure DepositRow (H : Type) where
  id : Nat
  leafType : Nat
  networkID : Nat
  origNet : Nat
  origAddr : Address
  amount : Nat
  destNet : Nat
  destAddr : Address
  blockID : Nat
  depositCnt : Nat
  txHash : H
  metadata : Bytes
  readyForClaim : Bool
  ignore : Bool
deriving DecidableEq

structure ClaimRow (H : Type) where
  networkID : Nat
  index : Nat
  origNet : Nat
  origAddr : Address
  amount : Nat
  destAddr : Address
  blockID : Nat
  txHash : H
  rollupIndex : Nat
  mainnetFlag : Bool
  globalIndex : String
deriving DecidableEq

structure TokenRow where
  networkID : Nat
  origNet : Nat
  origTokenAddr : Address
  wrappedTokenAddr : Address
  blockID : Nat
  metadata : TokenMetadata
deriving DecidableEq

structure ExitRootRow (H : Type) where
  id : Nat
  blockID : Nat
  globalExitRoot : H
  exitRoots : List H
  networkID : Nat
  allowed : Bool
deriving DecidableEq

structure RemoveExitRootRow (H : Type) where
  blockID : Nat
  globalExitRoot : H
  networkID : Nat
deriving DecidableEq

structure ForwardLETRow (H : Type) where
  blockID : Nat
  previousDepositCnt : Nat
  previousRoot : H
  newDepositCnt : Nat
  newRoot : H
  newRawLeaves : Bytes
deriving DecidableEq

inductive SetUnset
  | set
  | unset
deriving DecidableEq

structure SetUnsetClaimRow where
  blockID : Nat
  mainnetFlag : Bool
  rollupIndex : Nat
  index : Nat
  globalIndex : String
  type : SetUnset
deriving DecidableEq

structure RootRow (H : Type) where
  root : H
  depositID : Nat
  network : Nat
deriving DecidableEq

/-- A transaction that the claim transaction manager follows, by the deposit
that it claims. -/
structure MonitoredTxRow where
  depositID : Nat
deriving DecidableEq

structure Tables (H : Type) where
  block : List (BlockRow H)
  deposit : List (DepositRow H)
  claim : List (ClaimRow H)
  tokenWrapped : List TokenRow
  exitRoot : List (ExitRootRow H)
  removeExitRoot : List (RemoveExitRootRow H)
  backwardLET : List (BackwardLET H)
  forwardLET : List (ForwardLETRow H)
  setUnsetClaim : List SetUnsetClaimRow
  root : List (RootRow H)
  rht : List (RhtRow H)
  rollupExit : List (RollupExitLeaf H)
  monitoredTxs : List MonitoredTxRow
deriving DecidableEq

/-- Last values handed out by the id sequences.  A sequence is shared by all
transactions and does not go back when one is rolled back. -/
structure Sequences where
  block : Nat
  deposit : Nat
  exitRoot : Nat
  rollupExit : Nat
deriving DecidableEq

def DepositRow.toDeposit {H : Type} (row : DepositRow H) (blockNumber : Nat) :
    Deposit H :=
  { id := row.id
    leafType := row.leafType
    originalNetwork := row.origNet
    originalAddress := row.origAddr
    amount := row.amount
    destinationNetwork := row.destNet
    destinationAddress := row.destAddr
    depositCount := row.depositCnt
    blockID := row.blockID
    blockNumber := blockNumber
    networkID := row.networkID
    txHash := row.txHash
    metadata := row.metadata
    readyForClaim := row.readyForClaim }

namespace Tables

variable {H : Type}

def empty : Tables H :=
  { block := []
    deposit := []
    claim := []
    tokenWrapped := []
    exitRoot := []
    removeExitRoot := []
    backwardLET := []
    forwardLET := []
    setUnsetClaim := []
    root := []
    rht := []
    rollupExit := []
    monitoredTxs := [] }

def deleteDeposits (t : Tables H) (gone : DepositRow H → Bool) : Tables H :=
  let ids := (t.deposit.filter gone).map DepositRow.id
  { t with
    deposit := t.deposit.filter fun row => !gone row
    root := t.root.filter fun row => row.depositID ∉ ids
    rht := t.rht.filter fun row => row.depositID ∉ ids }

def deleteBlocks (t : Tables H) (gone : BlockRow H → Bool) : Tables H :=
  let ids := (t.block.filter gone).map BlockRow.id
  let t := t.deleteDeposits fun row => row.blockID ∈ ids
  { t with
    block := t.block.filter fun row => !gone row
    claim := t.claim.filter fun row => row.blockID ∉ ids
    tokenWrapped := t.tokenWrapped.filter fun row => row.blockID ∉ ids
    exitRoot := t.exitRoot.filter fun row => row.blockID ∉ ids
    removeExitRoot := t.removeExitRoot.filter fun row => row.blockID ∉ ids
    backwardLET := t.backwardLET.filter fun row => row.blockID ∉ ids
    forwardLET := t.forwardLET.filter fun row => row.blockID ∉ ids
    setUnsetClaim := t.setUnsetClaim.filter fun row => row.blockID ∉ ids
    rollupExit := t.rollupExit.filter fun row => row.blockID ∉ ids }

def setReady (t : Tables H) (ready : Bool) (matching : DepositRow H → Bool) :
    Tables H :=
  { t with
    deposit := t.deposit.map fun row =>
      if matching row then { row with readyForClaim := ready } else row }

theorem mem_setReady {t : Tables H} {ready : Bool}
    {matching : DepositRow H → Bool} {row : DepositRow H} :
    row ∈ (t.setReady ready matching).deposit ↔ ∃ old, old ∈ t.deposit ∧ row =
        if matching old then { old with readyForClaim := ready } else old := by
  simp only [setReady, mem_map, eq_comm]

def depositsOf (t : Tables H) (networkID : Nat) : List (DepositRow H) :=
  t.deposit.filter fun row => row.networkID = networkID

section Blocks

def reset (t : Tables H) (blockNumber networkID : Nat) : Tables H :=
  t.deleteBlocks fun row =>
    blockNumber < row.blockNum && row.networkID == networkID

def blockNumOf (t : Tables H) (row : DepositRow H) : Option Nat :=
  (t.block.find? fun block =>
    block.id == row.blockID && block.networkID == row.networkID).map
      BlockRow.blockNum

def getNumberDeposits (t : Tables H) (networkID blockNumber : Nat) : Nat :=
  let counts := (t.deposit.filter fun row =>
    row.networkID == networkID &&
      (t.blockNumOf row).any fun num => num ≤ blockNumber).map
        DepositRow.depositCnt
  match counts.max? with
  | none => 0
  | some count => (count + 1) % 2 ^ 32

def getDeposit (t : Tables H) (depositCounter networkID : Nat) :
    Except Err (Deposit H) :=
  let found := t.deposit.findSome? fun row =>
    if row.networkID = networkID ∧ row.depositCnt = depositCounter then
      (t.blockNumOf row).map row.toDeposit
    else
      none
  match found with
  | none => .error .storageNotFound
  | some deposit => .ok deposit

end Blocks

section Trees

def getRoot (t : Tables H) (depositCnt network : Nat) : Except Err H :=
  let found := t.root.find? fun row =>
    row.network == network &&
      t.deposit.any fun deposit =>
        deposit.id == row.depositID && deposit.depositCnt == depositCnt
  match found with
  | none => .error .storageNotFound
  | some row => .ok row.root

def getLastComputedRoot (t : Tables H) (networkID : Nat) : Except Err H :=
  match (Rows.orderBy RootRow.depositID
      (t.root.filter fun row => row.network == networkID)).reverse with
  | [] => .error .storageNotFound
  | row :: _ => .ok row.root

def setRoot (t : Tables H) (root : H) (depositID network : Nat) :
    Except Err (Tables H) :=
  if t.root.any fun row => row.depositID == depositID then
    .error .database
  else if t.deposit.any fun row => row.id == depositID then
    .ok { t with
      root := t.root ++
        [{ root := root
           depositID := depositID
           network := network }] }
  else
    .error .database

theorem setRoot_ok {t t' : Tables H} {root : H} {depositID network : Nat}
    (changed : t.setRoot root depositID network = .ok t') :
    t' =
      { t with
        root := t.root ++
          [{ root := root
             depositID := depositID
             network := network }] } := by
  rw [setRoot] at changed
  split at changed
  · contradiction
  · split at changed
    · exact (Except.ok.inj changed).symm
    · contradiction

def getLastDepositCount (t : Tables H) (networkID : Nat) : Except Err Nat :=
  let last := ((t.root.filter fun row => row.network == networkID).map
    RootRow.depositID).max?
  match last with
  | none => .error .storageNotFound
  | some id =>
    match ((t.deposit.filter fun row => row.id == id).map
      DepositRow.depositCnt).max? with
    | none => .error .storageNotFound
    | some count => .ok count

def resetDeposits (t : Tables H) (depositCount networkID : Nat) : Tables H :=
  t.deleteDeposits fun row =>
    depositCount ≤ row.depositCnt && row.networkID == networkID

variable [DecidableEq H]

def get (t : Tables H) (key : H) : Except Err (H × H) :=
  match t.rht.find? fun row => row.key == key with
  | none => .error .storageNotFound
  | some row => .ok row.value

def bulkSet (t : Tables H) (rows : List (RhtRow H)) :
    Except Err (Tables H) :=
  let keys := (t.rht ++ rows).map fun row => (row.key, row.depositID)
  if keys.Nodup then .ok { t with rht := t.rht ++ rows }
  else .error .database

theorem bulkSet_ok {t t' : Tables H} {rows : List (RhtRow H)}
    (changed : t.bulkSet rows = .ok t') :
    t' = { t with rht := t.rht ++ rows } := by
  rw [bulkSet] at changed
  split at changed
  · exact (Except.ok.inj changed).symm
  · contradiction

def checkIfRootExists (t : Tables H) (root : H) (network : Nat) : Bool :=
  t.root.any fun row => row.root == root && row.network == network

def depositCountsByRoot (t : Tables H) (root : H) (network : Nat) :
    List Nat :=
  (t.root.filter fun row => row.root == root && row.network == network).flatMap
    fun row =>
      (t.deposit.filter fun deposit => deposit.id == row.depositID).map
        DepositRow.depositCnt

end Trees

section RollupTree

variable [DecidableEq H]

def isRollupExitRoot (t : Tables H) (root : H) : Bool :=
  t.rollupExit.any fun row => row.root == root

def getRollupExitLeavesByRoot (t : Tables H) (root : H) :
    List (RollupExitLeaf H) :=
  Rows.orderBy RollupExitLeaf.rollupId
    (t.rollupExit.filter fun row => row.root == root)

/-- Rows of one rollup under a root, read by a scalar subquery. -/
def rollupExitRows (t : Tables H) (root : H) (rollupID : Nat) :
    List (RollupExitLeaf H) :=
  t.rollupExit.filter fun row => row.root == root && row.rollupId == rollupID

def getLatestRollupExitLeaves (t : Tables H) : List (RollupExitLeaf H) :=
  Rows.orderBy RollupExitLeaf.rollupId
    (Rows.newest RollupExitLeaf.rollupId RollupExitLeaf.id t.rollupExit)

end RollupTree

section ExitRoots

variable [DecidableEq H]

def twoExitRoots (row : ExitRootRow H) : Except Err (List H) :=
  match row.exitRoots with
  | mainnet :: rollup :: _ => .ok [mainnet, rollup]
  | _ => .error .panic

def latestL1ExitRoot (t : Tables H) (matching : ExitRootRow H → Bool) :
    Except Err (GlobalExitRoot H) :=
  let rows := t.exitRoot.filter fun row =>
    row.allowed && 0 < row.blockID && row.networkID == 0 && matching row
  match Rows.lastBy ExitRootRow.id rows with
  | none => .error .storageNotFound
  | some row => do
      let exitRoots ← twoExitRoots row
      pure
        { blockID := row.blockID
          blockNumber := 0
          exitRoots := exitRoots
          globalExitRoot := row.globalExitRoot
          networkID := 0
          id := 0 }

omit [DecidableEq H] in
theorem length_latestL1ExitRoot {t : Tables H}
    {matching : ExitRootRow H → Bool} {ger : GlobalExitRoot H}
    (found : t.latestL1ExitRoot matching = .ok ger) :
    ger.exitRoots.length = 2 := by
  rw [latestL1ExitRoot] at found
  split at found
  · contradiction
  · next row _ =>
    rcases rowEq : row.exitRoots with _ | ⟨mainnet, _ | ⟨rollup, rest⟩⟩
    · simp [twoExitRoots, rowEq, bind, Except.bind] at found
    · simp [twoExitRoots, rowEq, bind, Except.bind] at found
    · simp only [twoExitRoots, rowEq, bind, Except.bind, pure, Except.pure,
        Except.ok.injEq] at found
      rw [← found]
      rfl

def getLatestL1SyncedExitRoot (t : Tables H) : Except Err (GlobalExitRoot H) :=
  t.latestL1ExitRoot fun _ => true

def getL1ExitRootByGER (t : Tables H) (ger : H) :
    Except Err (GlobalExitRoot H) :=
  t.latestL1ExitRoot fun row => row.globalExitRoot == ger

def getL2ExitRootsByGER (t : Tables H) (ger : H) : List (GlobalExitRoot H) :=
  let rows := t.exitRoot.filter fun row =>
    row.allowed && 0 < row.blockID && row.globalExitRoot == ger &&
      row.networkID != 0 && row.exitRoots.isEmpty
  (Rows.orderBy ExitRootRow.id rows).reverse.map fun row =>
    { blockID := row.blockID
      blockNumber := 0
      exitRoots := []
      globalExitRoot := row.globalExitRoot
      networkID := row.networkID
      id := row.id }

theorem mem_getL2ExitRootsByGER {t : Tables H} {ger : H}
    {row : ExitRootRow H}
    (distinct : (t.exitRoot.map ExitRootRow.id).Nodup)
    (stored : row ∈ t.exitRoot) :
    row.id ∈ (t.getL2ExitRootsByGER ger).map GlobalExitRoot.id ↔
      row.allowed = true ∧ 0 < row.blockID ∧ row.globalExitRoot = ger ∧
        row.networkID ≠ 0 ∧ row.exitRoots = [] := by
  have selected : ∀ {source : ExitRootRow H},
      (source.allowed && decide (0 < source.blockID) &&
        source.globalExitRoot == ger && source.networkID != 0 &&
        source.exitRoots.isEmpty) = true ↔
      source.allowed = true ∧ 0 < source.blockID ∧
        source.globalExitRoot = ger ∧ source.networkID ≠ 0 ∧
        source.exitRoots = [] := by
    simp [and_assoc]
  rw [getL2ExitRootsByGER, map_map, mem_map]
  constructor
  · rintro ⟨source, sourceIn, sameID⟩
    rw [mem_reverse, Rows.mem_orderBy, mem_filter,
      selected] at sourceIn
    have same : source = row :=
      inj_on_of_nodup_map distinct sourceIn.1 stored sameID
    rw [← same]
    exact sourceIn.2
  · intro waits
    refine ⟨row, ?_, rfl⟩
    rw [mem_reverse, Rows.mem_orderBy, mem_filter, selected]
    exact ⟨stored, waits⟩

def updateL2GER (t : Tables H) (ger : GlobalExitRoot H) : Tables H :=
  { t with
    exitRoot := t.exitRoot.map fun row =>
      if row.id = ger.id then { row with exitRoots := ger.exitRoots }
      else row }

def latestTrustedRow (t : Tables H) (networkID : Nat) :
    Option (ExitRootRow H) :=
  Rows.lastBy ExitRootRow.id
    (t.exitRoot.filter fun row => row.networkID == networkID && row.allowed)

end ExitRoots

end Tables

end BridgeService
