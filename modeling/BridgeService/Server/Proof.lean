import BridgeService.Bridgectrl.BuildRoot
import BridgeService.Lib.Lru
import BridgeService.Storage.Statements

/-!
# Proofs of the bridge service

A proof is read from the stored nodes by walking down from a root.  Nodes are
kept in a cache that is never invalidated, so a walk may pass through nodes of
deposits that were deleted since.
-/

namespace BridgeService

open ErrorState

structure BridgeServer where
  height : Nat
  finalizedGER : Bool
deriving DecidableEq

abbrev NodeCache (H : Type) := Lru H (H × H)

abbrev Serving (H α : Type) := EStateM Err (NodeCache H × World H) α

namespace BridgeServer

variable {H α : Type} [DecidableEq H] [Externals H]

def onStorage (call : Service H α) : Serving H α := fun (cache, w) =>
  match call w with
  | .ok value w => .ok value (cache, w)
  | .error err w => .error err (cache, w)

def getNode (parentHash : H) (dbTx : Querier) : Serving H (H × H) := do
  let (cache, _) ← get
  match cache.get parentHash with
  | some (value, cache) => do
      modify fun (_, w) => (cache, w)
      pure value
  | none => do
      let value ← onStorage (Storage.get parentHash dbTx)
      modify fun (cache, w) => (cache.add parentHash value, w)
      pure value

/-- Siblings from `cur` at level `h` down to the leaf at `index`, the lowest
level last. -/
def siblingsDown (index : Nat) (dbTx : Querier) :
    (h : Nat) → (cur : H) → Serving H (List H)
  | 0, _ => pure []
  | h + 1, cur => do
      let node ← handle (getNode cur dbTx) fun err => throw (.atHeight h err)
      if index &&& (1 <<< h) > 0 then do
        let below ← siblingsDown index dbTx h node.2
        pure (node.1 :: below)
      else do
        let below ← siblingsDown index dbTx h node.1
        pure (node.2 :: below)

def getProof (s : BridgeServer) (index : Nat) (root : H) (dbTx : Querier) :
    Serving H (List H) := do
  let siblings ← siblingsDown index dbTx s.height root
  pure siblings.reverse

/-- The part of `getRollupExitProof` after the leaves have been read. -/
def rollupProofOf (height rollupIndex : Nat) (root : H) (ls : List H) :
    Except Err (List H × H) := do
  let (siblings, r) ← MerkleTree.computeSiblings rollupIndex ls height
  if root ≠ r then throw .rootMismatch
  if siblings.length = 0 ∨ ls.length = 0 then throw .noRollupLeaves
  match ls[rollupIndex]? with
  | none => throw .rollupLeafNotSynced
  | some leaf => pure (siblings, leaf)

def getRollupExitProof (s : BridgeServer) (rollupIndex : Nat) (root : H)
    (dbTx : Querier) : Serving H (List H × H) := do
  let leaves ← onStorage (Storage.getRollupExitLeavesByRoot root dbTx)
  MonadExcept.ofExcept (rollupProofOf s.height rollupIndex root
    (leaves.map RollupExitLeaf.leaf))

end BridgeServer

end BridgeService
