import BridgeService.Etherman.Types
import BridgeService.Lib.PaddedTree

/-!
# Hashes of the exit trees

Neither the Keccak function nor the ABI decoder is part of the service.  They
enter as a class with one operation for each shape of input that the service
hashes (a pair of nodes, the metadata of a deposit, the packed fields of a
deposit leaf) and the decoder of token metadata.
-/

namespace BridgeService

class Externals (H : Type) where
  hashZero : H
  hash : H → H → H
  hashBytes : Bytes → H
  hashLeaf : (leafType origNet : Nat) → (origAddr : Address) →
    (destNet : Nat) → (destAddr : Address) → (amount : Nat) →
    (metaHash : H) → H
  decodeToken : Bytes → Option TokenMetadata

export Externals (hashZero hash)

variable {H : Type} [Externals H]

private def zeroHashesFrom (zero : H) : Nat → List H
  | 0 => [zero]
  | height + 1 => zero :: zeroHashesFrom (hash zero zero) height

def generateZeroHashes (H : Type) [Externals H] (height : Nat) : List H :=
  zeroHashesFrom hashZero height

/-- Entry of the table of 65 empty subtrees prepared at start-up. -/
def zeroHashes (level : Nat) : H :=
  (generateZeroHashes H 64).getD level hashZero

def hashDeposit (deposit : Deposit H) : H :=
  let origNet := deposit.originalNetwork % 2 ^ 32
  let destNet := deposit.destinationNetwork % 2 ^ 32
  let metaHash := Externals.hashBytes deposit.metadata
  Externals.hashLeaf deposit.leafType origNet deposit.originalAddress destNet
    deposit.destinationAddress deposit.amount metaHash

/-- Root of the full tree of a height over zero-padded leaves. -/
def treeRoot (height : Nat) (leaves : List H) : H :=
  PaddedTree.root hash hashZero height leaves

/-- Node of the full tree over zero-padded leaves. -/
def treeNode (leaves : List H) (level position : Nat) : H :=
  PaddedTree.node hash (PaddedTree.padded hashZero leaves) level position

private theorem zeroHashesFrom_getD (zero : H) (height level : Nat)
    (inside : level ≤ height) (default : H) :
    (zeroHashesFrom zero height).getD level default =
      PaddedTree.emptyNode hash zero level := by
  induction height generalizing zero level with
  | zero =>
    have here : level = 0 := by omega
    subst level
    rfl
  | succ height induction =>
    cases level with
    | zero => rfl
    | succ level =>
      rw [zeroHashesFrom, List.getD_cons_succ,
        induction (hash zero zero) level (by omega)]
      exact PaddedTree.emptyNode_combine hash zero level

theorem zeroHashes_eq_emptyNode {level : Nat} (inside : level ≤ 64) :
    (zeroHashes level : H) = PaddedTree.emptyNode hash hashZero level :=
  zeroHashesFrom_getD hashZero 64 level inside hashZero

theorem treeNode_eq_zeroHashes {leaves : List H} {level position : Nat}
    (inside : level ≤ 64)
    (vacant : leaves.length ≤ position * 2 ^ level) :
    treeNode leaves level position = zeroHashes level := by
  rw [zeroHashes_eq_emptyNode inside]
  apply PaddedTree.node_eq_emptyNode
  intro index below
  apply PaddedTree.padded_of_length_le
  have reached : position * 2 ^ level ≤ index := by
    rw [← below]
    exact Nat.div_mul_le_self index (2 ^ level)
  omega

theorem treeRoot_eq_treeNode (height : Nat) (leaves : List H) :
    treeRoot height leaves = treeNode leaves height 0 := rfl

theorem treeNode_succ (leaves : List H) (level position : Nat) :
    treeNode leaves (level + 1) position =
      hash (treeNode leaves level (2 * position))
        (treeNode leaves level (2 * position + 1)) := rfl

/-- Symbolic digests: Keccak as a free operation on terms, with the empty
subtrees named by their level. -/
inductive Digest
  | zero (level : Nat)
  | node (left right : Digest)
  | bytes (content : Bytes)
  | leaf (leafType origNet : Nat) (origAddr : Address) (destNet : Nat)
      (destAddr : Address) (amount : Nat) (metaHash : Digest)
deriving DecidableEq

namespace Digest

def pair : Digest → Digest → Digest
  | .zero level, .zero other =>
    if level = other then .zero (level + 1)
    else .node (.zero level) (.zero other)
  | left, right => .node left right

instance : Externals Digest where
  hashZero := .zero 0
  hash := pair
  hashBytes := .bytes
  hashLeaf := .leaf
  decodeToken _ := none

def children : Digest → Digest × Digest
  | .zero (level + 1) => (.zero level, .zero level)
  | .node left right => (left, right)
  | other => (other, other)

theorem children_pair (left right : Digest) :
    children (pair left right) = (left, right) := by
  cases left with
  | zero level =>
    cases right with
    | zero other =>
      by_cases same : level = other
      · simp [pair, same, children]
      · simp [pair, same, children]
    | node => rfl
    | bytes => rfl
    | leaf => rfl
  | node => rfl
  | bytes => rfl
  | leaf => rfl

theorem hash_injective : Function.Injective2 (hash : Digest → _) := by
  intro left left' right right' same
  have recovered := congrArg children same
  change children (pair left right) = children (pair left' right') at recovered
  rw [children_pair, children_pair] at recovered
  exact Prod.mk.inj recovered

theorem hashDeposit_ne_zero (deposit : Deposit Digest) :
    hashDeposit deposit ≠ hashZero := by
  intro same
  exact Digest.noConfusion same

end Digest

end BridgeService
