import Mathlib.Data.Nat.Notation

/-!
# Events read from the chains

The records that the Ethereum client hands to the synchronizer.  Hashes are
elements of a type parameter, unsigned machine integers are natural numbers,
and amounts are the unsigned values of the contracts.  A global index of a
claim is kept as the decimal text that the service stores.
-/

namespace BridgeService

abbrev Address := BitVec 160

abbrev Bytes := List UInt8

structure GlobalExitRoot (H : Type) where
  blockID : Nat
  blockNumber : Nat
  exitRoots : List H
  globalExitRoot : H
  networkID : Nat
  id : Nat
deriving DecidableEq

structure Deposit (H : Type) where
  id : Nat
  leafType : Nat
  originalNetwork : Nat
  originalAddress : Address
  amount : Nat
  destinationNetwork : Nat
  destinationAddress : Address
  depositCount : Nat
  blockID : Nat
  blockNumber : Nat
  networkID : Nat
  txHash : H
  metadata : Bytes
  readyForClaim : Bool
deriving DecidableEq

structure Claim (H : Type) where
  mainnetFlag : Bool
  rollupIndex : Nat
  index : Nat
  originalNetwork : Nat
  originalAddress : Address
  amount : Nat
  destinationAddress : Address
  blockID : Nat
  blockNumber : Nat
  networkID : Nat
  txHash : H
  globalIndex : String
deriving DecidableEq

structure TokenMetadata where
  name : String
  symbol : String
  decimals : Nat
deriving DecidableEq

structure TokenWrapped where
  metadata : TokenMetadata
  originalNetwork : Nat
  originalTokenAddress : Address
  wrappedTokenAddress : Address
  blockID : Nat
  blockNumber : Nat
  networkID : Nat
deriving DecidableEq

structure VerifiedBatch (H : Type) where
  blockNumber : Nat
  rollupID : Nat
  localExitRoot : H
deriving DecidableEq

structure RollupExitLeaf (H : Type) where
  id : Nat
  blockID : Nat
  leaf : H
  rollupId : Nat
  root : H
deriving DecidableEq

structure UnsetClaim where
  blockID : Nat
  mainnetFlag : Bool
  rollupIndex : Nat
  index : Nat
  globalIndex : Nat
deriving DecidableEq

structure SetClaim (H : Type) where
  blockID : Nat
  mainnetFlag : Bool
  rollupIndex : Nat
  index : Nat
  globalIndex : Nat
  txHash : H
deriving DecidableEq

structure BackwardLET (H : Type) where
  blockID : Nat
  previousDepositCount : Nat
  previousRoot : H
  newDepositCount : Nat
  newRoot : H
deriving DecidableEq

structure LeafData where
  leafType : Nat
  originNetwork : Nat
  originAddress : Address
  destinationNetwork : Nat
  destinationAddress : Address
  amount : Nat
  metadata : Bytes
deriving DecidableEq

structure ForwardLET (H : Type) where
  blockID : Nat
  previousDepositCount : Nat
  previousRoot : H
  newDepositCount : Nat
  newRoot : H
  newRawLeaves : Bytes
  newLeaves : List LeafData
  txHash : H
deriving DecidableEq

structure Block (H : Type) where
  blockNumber : Nat
  blockHash : H
  globalExitRoots : List (GlobalExitRoot H)
  removeL2GER : List (GlobalExitRoot H)
  deposits : List (Deposit H)
  claims : List (Claim H)
  tokens : List TokenWrapped
  verifiedBatches : List (VerifiedBatch H)
  unsetClaims : List UnsetClaim
  setClaims : List (SetClaim H)
  backwardLETs : List (BackwardLET H)
  forwardLETs : List (ForwardLET H)
deriving DecidableEq

inductive EventOrder
  | globalExitRootsOrder
  | removeL2GEROrder
  | depositsOrder
  | claimsOrder
  | tokensOrder
  | verifyBatchOrder
  | backwardLETOrder
  | unsetClaimOrder
  | setClaimOrder
  | forwardLETOrder
deriving DecidableEq

structure Order where
  name : EventOrder
  pos : Nat
deriving DecidableEq

end BridgeService
