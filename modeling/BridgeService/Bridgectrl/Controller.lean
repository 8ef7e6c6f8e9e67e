import BridgeService.Storage.Statements

/-!
# The bridge controller

The controller owns one exit tree for each registered network and the rollup
exit tree.  The map from network ids to positions and the slice of trees of
the source are one map from network ids to trees here.
-/

namespace BridgeService

namespace World

variable {H : Type}

def setTree (w : World H) (networkID : Nat) (mt : MerkleTree H) : World H :=
  { w with exitTrees := Function.update w.exitTrees networkID (some mt) }

end World

namespace BridgeController

variable {H α : Type} [DecidableEq H] [Externals H]

/-- Run a method of the tree of a network; its changes to the tree stay even
if it fails. -/
def onTree (networkID : Nat)
    (method : EStateM Err (MerkleTree H × World H) α) : Service H α := fun w =>
  match w.exitTrees networkID with
  | none => .error .networkNotRegister w
  | some mt =>
    match method (mt, w) with
    | .ok value (mt, w) => .ok value (w.setTree networkID mt)
    | .error err (mt, w) => .error err (w.setTree networkID mt)

omit [DecidableEq H] [Externals H] in
theorem onTree_registered {networkID : Nat}
    {method : EStateM Err (MerkleTree H × World H) α} {w : World H}
    {mt : MerkleTree H} (registered : w.exitTrees networkID = some mt) :
    onTree networkID method w =
      match method (mt, w) with
      | .ok value (mt, w) => .ok value (w.setTree networkID mt)
      | .error err (mt, w) => .error err (w.setTree networkID mt) := by
  rw [onTree, registered]

def addDeposit (deposit : Deposit H) (dbTx : Querier) : Service H Unit :=
  onTree deposit.networkID
    (MerkleTree.addLeaf Storage.merkleTreeStore deposit.id
      (hashDeposit deposit) deposit.depositCount dbTx)

def reorgMT (depositCount networkID : Nat) (dbTx : Querier) :
    Service H Unit :=
  onTree networkID
    (MerkleTree.resetLeaf Storage.merkleTreeStore depositCount dbTx)

def rollbackMT (networkID : Nat) (dbTx : Querier) : Service H Unit :=
  onTree networkID
    (MerkleTree.rollbackMT Storage.merkleTreeStore networkID dbTx)

def getExitRoot (networkID : Nat) (dbTx : Querier) : Service H H := fun w =>
  match w.exitTrees networkID with
  | none => .error .networkNotRegister w
  | some mt => mt.getRoot Storage.merkleTreeStore dbTx w

def addRollupExitLeaf (rollupLeaf : RollupExitLeaf H) (dbTx : Querier) :
    Service H Unit := fun w =>
  w.rollupsTree.addRollupExitLeaf Storage.merkleTreeStore rollupLeaf dbTx w

/-- Trees of all networks, read back from the store at start-up. -/
def newBridgeController (height : Nat) : List Nat → Service H Unit
  | [] => do
      let rollupsTree ←
        MerkleTree.newMerkleTree Storage.merkleTreeStore height (2 ^ 31 - 1)
      modify fun w => { w with rollupsTree := rollupsTree }
  | networkID :: rest => do
      let mt ←
        MerkleTree.newMerkleTree Storage.merkleTreeStore height networkID
      modify fun w => w.setTree networkID mt
      newBridgeController height rest

end BridgeController

end BridgeService
