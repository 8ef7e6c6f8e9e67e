import BridgeService.Bridgectrl.Hash
import BridgeService.Lib.ErrorState

/-!
# Exit trees

An exit tree keeps its number of leaves and one sibling for each level, and
writes the nodes of every new path to a store.  The store is the interface of
the source; it may fail at any call.  Changes that a method makes to the tree
itself survive a failure of the store, so a tree method runs on the pair of
the tree and the state of the store.
-/

namespace BridgeService

open ErrorState

/-- Errors returned by the modelled functions, and the run-time panic of an
index out of range. -/
inductive Err
  | storageNotFound
  | l1GERNotFound
  | depositNotSynced
  | networkNotRegister
  | nilDBTransaction
  | database
  | mismatchedDepositCount (index expected : Nat)
  | atHeight (height : Nat) (cause : Err)
  | moreThanOneRoot
  | rollupIdMismatch
  | rollupIndexOutOfBounds (index length : Nat)
  | indexOutOfBounds (index length : Nat)
  | rootMismatch
  | noRollupLeaves
  | rollupLeafNotSynced
  | gettingDeposit (depositCnt networkID : Nat) (cause : Err)
  | gettingGlobalExitRoot (cause : Err)
  | proofFailed (text : String) (network : Nat) (cause : Err)
  | cannotResetL1Deposits
  | tokenMetadata
  | invalidDataFromRPC (event : EventOrder)
  | wrongExitRootsLength (length : Nat)
  | rootDoesNotExist
  | letMismatch
  | destinationMismatch
  | gettingLastRoot (cause : Err)
  | proofLength (length height : Nat)
  | backwardLETOfL1
  | outOfFuel
  | panic
deriving DecidableEq

/-- A statement runs on the connection pool or in the open transaction. -/
inductive Querier
  | pool
  | tx
deriving DecidableEq

structure RhtRow (H : Type) where
  key : H
  value : H × H
  depositID : Nat
deriving DecidableEq

structure RollupExitInsert (H : Type) where
  leaf : H
  rollupId : Nat
  root : H
  blockID : Nat
deriving DecidableEq

structure MerkleTreeStore (σ H : Type) where
  get : H → Querier → EStateM Err σ (H × H)
  bulkSet : List (RhtRow H) → Querier → EStateM Err σ Unit
  getRoot : (depositCount network : Nat) → Querier → EStateM Err σ H
  setRoot : H → (depositID network : Nat) → Querier → EStateM Err σ Unit
  getLastDepositCount : (networkID : Nat) → Querier → EStateM Err σ Nat
  addRollupExitLeaves : List (RollupExitInsert H) → Querier →
    EStateM Err σ Unit
  getLatestRollupExitLeaves : Querier → EStateM Err σ (List (RollupExitLeaf H))
  isRollupExitRoot : H → Querier → EStateM Err σ Bool

structure MerkleTree (H : Type) where
  networkID : Nat
  height : Nat
  count : Nat
  siblings : List H
deriving DecidableEq

namespace MerkleTree

variable {σ H : Type} [Externals H]

def onStore {α : Type} (call : EStateM Err σ α) :
    EStateM Err (MerkleTree H × σ) α := fun (mt, store) =>
  match call store with
  | .ok value store => .ok value (mt, store)
  | .error err store => .error err (mt, store)

def getRoot (store : MerkleTreeStore σ H) (mt : MerkleTree H)
    (dbTx : Querier) : EStateM Err σ H :=
  if mt.count = 0 then pure (zeroHashes mt.height)
  else store.getRoot (mt.count - 1) mt.networkID dbTx

/-- Children of a node on the path to the last leaf. -/
def getAtHeight (store : MerkleTreeStore σ H) (dbTx : Querier) (h : Nat)
    (cur : H) : EStateM Err σ (H × H) :=
  handle (store.get cur dbTx) fun err => throw (.atHeight h err)

/-- Left children from `cur` at level `h` down to the leaf at `index`, the
lowest level last. -/
def leftChildren (store : MerkleTreeStore σ H) (dbTx : Querier)
    (index : Nat) : (h : Nat) → (cur : H) → EStateM Err σ (List H)
  | 0, _ => pure []
  | h + 1, cur => do
      let value ← getAtHeight store dbTx h cur
      let next := if index &&& (1 <<< h) > 0 then value.2 else value.1
      let below ← leftChildren store dbTx index h next
      pure (value.1 :: below)

def initSiblings (store : MerkleTreeStore σ H) (mt : MerkleTree H)
    (dbTx : Querier) : EStateM Err σ (List H) := do
  if mt.count = 0 then
    pure ((List.range mt.height).map zeroHashes)
  else
    let root ← getRoot store mt dbTx
    let siblings ← leftChildren store dbTx (mt.count - 1) mt.height root
    pure siblings.reverse

def lastCount (store : MerkleTreeStore σ H) (networkID : Nat) :
    EStateM Err σ Nat :=
  handle
    (do
      let depositCnt ← store.getLastDepositCount networkID .pool
      pure ((depositCnt + 1) % 2 ^ 32))
    fun
    | .storageNotFound => pure 0
    | err => throw err

def newMerkleTree (store : MerkleTreeStore σ H) (height networkID : Nat) :
    EStateM Err σ (MerkleTree H) := do
  let depositCnt ← lastCount store networkID
  let mt : MerkleTree H :=
    { networkID := networkID
      height := height
      count := depositCnt
      siblings := [] }
  let siblings ← initSiblings store mt .pool
  pure { mt with siblings := siblings }

structure LeafPath (H : Type) where
  cur : H
  isFilledSubTree : Bool
  siblings : List H
  leaves : List (H × H × H)

def addLeafLevel (index : Nat) (path : LeafPath H) (h : Nat) : LeafPath H :=
  if index &&& (1 <<< h) > 0 then
    let sibling := path.siblings.getD h hashZero
    let parent := hash sibling path.cur
    { path with
      cur := parent
      leaves := path.leaves ++ [(parent, sibling, path.cur)] }
  else
    let parent := hash path.cur (zeroHashes h)
    { cur := parent
      isFilledSubTree := false
      siblings :=
        if path.isFilledSubTree then path.siblings.set h path.cur
        else path.siblings
      leaves := path.leaves ++ [(parent, path.cur, zeroHashes h)] }

def addLeafPath (mt : MerkleTree H) (leaf : H) (index : Nat) : LeafPath H :=
  (List.range mt.height).foldl (addLeafLevel index)
    { cur := leaf
      isFilledSubTree := true
      siblings := mt.siblings
      leaves := [] }

def pathRows (depositID : Nat) (path : LeafPath H) : List (RhtRow H) :=
  path.leaves.map fun (key, left, right) =>
    { key := key
      value := (left, right)
      depositID := depositID }

def addLeaf (store : MerkleTreeStore σ H) (depositID : Nat) (leaf : H)
    (index : Nat) (dbTx : Querier) : EStateM Err (MerkleTree H × σ) Unit := do
  let (mt, _) ← get
  if index ≠ mt.count then
    throw (.mismatchedDepositCount index mt.count)
  let path := addLeafPath mt leaf index
  modify fun (mt, state) => ({ mt with siblings := path.siblings }, state)
  onStore (store.setRoot path.cur depositID mt.networkID dbTx)
  onStore (store.bulkSet (pathRows depositID path) dbTx)
  modify fun (mt, state) =>
    ({ mt with count := (mt.count + 1) % 2 ^ 32 }, state)

theorem addLeaf_eq (store : MerkleTreeStore σ H) (depositID : Nat) (leaf : H)
    (index : Nat) (dbTx : Querier) (mt : MerkleTree H) (state : σ) :
    addLeaf store depositID leaf index dbTx (mt, state) =
      if index ≠ mt.count then
        .error (.mismatchedDepositCount index mt.count) (mt, state)
      else
        let path := addLeafPath mt leaf index
        match store.setRoot path.cur depositID mt.networkID dbTx state with
        | .error err state =>
          .error err ({ mt with siblings := path.siblings }, state)
        | .ok _ state =>
          match store.bulkSet (pathRows depositID path) dbTx state with
          | .error err state =>
            .error err ({ mt with siblings := path.siblings }, state)
          | .ok _ state =>
            .ok () ({ mt with
              siblings := path.siblings
              count := (mt.count + 1) % 2 ^ 32 }, state) := by
  by_cases same : index ≠ mt.count
  · rw [if_pos same]
    refine Eq.trans (bind_of_ok rfl) ?_
    simp only [if_pos same]
    rfl
  · rw [if_neg same]
    refine Eq.trans (bind_of_ok rfl) ?_
    simp only [if_neg same]
    refine Eq.trans (bind_of_ok rfl) ?_
    simp only [bind, EStateM.bind, onStore]
    cases store.setRoot (addLeafPath mt leaf index).cur depositID
      mt.networkID dbTx state with
    | error err state => rfl
    | ok value state =>
      dsimp only
      cases store.bulkSet (pathRows depositID (addLeafPath mt leaf index))
        dbTx state with
      | error err state => rfl
      | ok value state => rfl

/-- Rebuild the siblings for the count in the tree; a failure leaves none. -/
def refreshSiblings (store : MerkleTreeStore σ H) (dbTx : Querier) :
    EStateM Err (MerkleTree H × σ) Unit := fun (mt, state) =>
  match initSiblings store mt dbTx state with
  | .ok siblings state => .ok () ({ mt with siblings := siblings }, state)
  | .error err state => .error err ({ mt with siblings := [] }, state)

def resetLeaf (store : MerkleTreeStore σ H) (depositCount : Nat)
    (dbTx : Querier) : EStateM Err (MerkleTree H × σ) Unit := do
  modify fun (mt, state) => ({ mt with count := depositCount }, state)
  refreshSiblings store dbTx

def rollbackMT (store : MerkleTreeStore σ H) (networkID : Nat)
    (dbTx : Querier) : EStateM Err (MerkleTree H × σ) Unit := do
  let depositCnt ← onStore (lastCount store networkID)
  modify fun (mt, state) => ({ mt with count := depositCnt }, state)
  refreshSiblings store dbTx

def buildIntermediate : List H → List (H × H × H) × List H
  | left :: right :: rest =>
    ((hash left right, left, right) :: (buildIntermediate rest).1,
      hash left right :: (buildIntermediate rest).2)
  | _ => ([], [])

def padLevel (h : Nat) (leaves : List H) : List H :=
  if leaves.length % 2 = 1 then leaves ++ [zeroHashes h] else leaves

def buildMTRoot (height : Nat) (leaves : List H) : Except Err H :=
  let leaves := if leaves = [] then [zeroHashes 0] else leaves
  let (ns, _) := (List.range height).foldl
    (fun (_, leaves) h => buildIntermediate (padLevel h leaves))
    (([], leaves) : List (H × H × H) × List H)
  match ns with
  | [(root, _, _)] => .ok root
  | _ => .error .moreThanOneRoot

def storeLeaves (store : MerkleTreeStore σ H) (mt : MerkleTree H)
    (leaves : List H) (blockID : Nat) (dbTx : Querier) :
    EStateM Err σ Unit := do
  let root ← ofExcept (buildMTRoot mt.height leaves)
  let exist ← store.isRollupExitRoot root dbTx
  if !exist then
    let inserts := leaves.zipIdx.map fun (leaf, i) =>
      { leaf := leaf
        rollupId := i + 1
        root := root
        blockID := blockID }
    store.addRollupExitLeaves inserts dbTx

def emptyRollupLeaves (rollupLeaf : RollupExitLeaf H) (length : Nat) :
    List (RollupExitLeaf H) :=
  (List.range' length (rollupLeaf.rollupId - length)).map fun i =>
    { id := 0
      blockID := rollupLeaf.blockID
      leaf := hashZero
      rollupId := i + 1
      root := hashZero }

def addRollupExitLeaf (store : MerkleTreeStore σ H) (mt : MerkleTree H)
    (rollupLeaf : RollupExitLeaf H) (dbTx : Querier) :
    EStateM Err σ Unit := do
  let storedRollupLeaves ← store.getLatestRollupExitLeaves dbTx
  let storedRollupLeaves := storedRollupLeaves ++
    emptyRollupLeaves rollupLeaf storedRollupLeaves.length
  if rollupLeaf.rollupId = 0 then throw .panic
  match storedRollupLeaves[rollupLeaf.rollupId - 1]? with
  | none => throw .panic
  | some stored =>
    if stored.rollupId = rollupLeaf.rollupId then
      let leaves :=
        (storedRollupLeaves.set (rollupLeaf.rollupId - 1) rollupLeaf).map
          RollupExitLeaf.leaf
      storeLeaves store mt leaves rollupLeaf.blockID dbTx
    else
      throw .rollupIdMismatch

structure SiblingPath (H : Type) where
  index : Nat
  siblings : List H
  ns : List (H × H × H)
  leaves : List H

def computeSiblingsLevel (path : SiblingPath H) (h : Nat) :
    Except Err (SiblingPath H) := do
  let leaves := padLevel h path.leaves
  let sibling ←
    if path.index % 2 = 1 then
      pure (leaves.getD (path.index - 1) hashZero)
    else if path.index + 1 ≥ leaves.length then
      throw (.indexOutOfBounds (path.index + 1) leaves.length)
    else
      pure (leaves.getD (path.index + 1) hashZero)
  let (nsi, hashes) := buildIntermediate leaves
  pure
    { index := path.index / 2
      siblings := path.siblings ++ [sibling]
      ns := nsi
      leaves := hashes }

/-- The function `ComputeSiblings`: the siblings of a leaf and the root. -/
def computeSiblings (rollupIndex : Nat) (leaves : List H) (height : Nat) :
    Except Err (List H × H) := do
  let leaves := if leaves = [] then [zeroHashes 0] else leaves
  if rollupIndex ≥ leaves.length then
    throw (.rollupIndexOutOfBounds rollupIndex leaves.length)
  let path ← (List.range height).foldlM computeSiblingsLevel
    { index := rollupIndex
      siblings := []
      ns := []
      leaves := leaves }
  match path.ns with
  | [(root, _, _)] => pure (path.siblings, root)
  | _ => throw .moreThanOneRoot

def calculateRoot (leafHash : H) (smtProof : List H) (index height : Nat) :
    H :=
  (List.range height).foldl
    (fun node h =>
      if (index >>> h) &&& 1 = 1 then hash (smtProof.getD h hashZero) node
      else hash node (smtProof.getD h hashZero))
    leafHash

end MerkleTree

end BridgeService
