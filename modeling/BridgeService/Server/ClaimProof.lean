import BridgeService.Server.Proof

/-!
# Claim proofs

The three methods of the service that return a proof for a deposit.  They
differ in how they choose the global exit root: the latest one of the
destination network, or the one that the caller names.  The proof is then read
under the exit root that the chosen entry has for the network of the deposit.
The leaf at which the walk ends is never compared with the deposit.
-/

namespace BridgeService

open ErrorState

structure ClaimProof (H : Type) where
  globalExitRoot : GlobalExitRoot H
  merkleProof : List H
  rollupMerkleProof : List H
deriving DecidableEq

/-- Texts of the errors of a method, for a proof in the exit tree of L1, in the
rollup exit tree and in the exit tree of a rollup. -/
structure ProofTexts where
  mainnet : String
  rollup : String
  inRollup : String

namespace BridgeServer

variable {H α : Type} [DecidableEq H] [Externals H]

def emptyProof : List H :=
  List.replicate 32 hashZero

/-- Report a failed call with a text; a panic is not an error. -/
def orFail (wrap : Err → Err) (call : Serving H α) : Serving H α :=
  handle call fun
    | .panic => throw .panic
    | err => throw (wrap err)

def exitRootAt (ger : GlobalExitRoot H) (index : Nat) : Serving H H :=
  match ger.exitRoots[index]? with
  | none => throw .panic
  | some exitRoot => pure exitRoot

def merkleProofs (s : BridgeServer) (texts : ProofTexts)
    (depositCnt networkID : Nat) (globalExitRoot : GlobalExitRoot H)
    (dbTx : Querier) : Serving H (ClaimProof H) := do
  if networkID = 0 then
    let mainnetExitRoot ← exitRootAt globalExitRoot 0
    let merkleProof ← orFail (.proofFailed texts.mainnet networkID)
      (s.getProof depositCnt mainnetExitRoot dbTx)
    pure
      { globalExitRoot := globalExitRoot
        merkleProof := merkleProof
        rollupMerkleProof := emptyProof }
  else
    let rollupExitRoot ← exitRootAt globalExitRoot 1
    let (rollupMerkleProof, rollupLeaf) ←
      orFail (.proofFailed texts.rollup networkID)
        (s.getRollupExitProof (networkID - 1) rollupExitRoot dbTx)
    let merkleProof ← orFail (.proofFailed texts.inRollup networkID)
      (s.getProof depositCnt rollupLeaf dbTx)
    pure
      { globalExitRoot := globalExitRoot
        merkleProof := merkleProof
        rollupMerkleProof := rollupMerkleProof }

def proofTexts : ProofTexts :=
  { mainnet := "getting the proof failed"
    rollup := "getting the rollup proof failed"
    inRollup := "getting the proof failed" }

def proofTextsByGER : ProofTexts :=
  { mainnet := "getting the proof failed (MAINNET)"
    rollup := "getting the rollupexit proof failed"
    inRollup := "getting the proof failed (ROLLUP)" }

def getClaimProof (s : BridgeServer) (depositCnt networkID : Nat)
    (dbTx : Querier) : Serving H (ClaimProof H) := do
  let deposit ← onStorage (Storage.getDeposit depositCnt networkID dbTx)
  if deposit.readyForClaim = false then throw .depositNotSynced
  let globalExitRoot ←
    if s.finalizedGER = true ∧ deposit.destinationNetwork ≠ 0 ∧
        networkID ≠ 0 then
      onStorage (Storage.getLatestTrustedExitRoot networkID dbTx)
    else
      onStorage (Storage.getLatestExitRoot deposit.destinationNetwork dbTx)
  s.merkleProofs proofTexts depositCnt networkID globalExitRoot dbTx

/-- The status of the deposit is only logged. -/
def getClaimProofbyGER (s : BridgeServer) (depositCnt networkID : Nat)
    (ger : H) (dbTx : Querier) : Serving H (ClaimProof H) := do
  if dbTx = .pool then
    let _ ← orFail (.gettingDeposit depositCnt networkID)
      (onStorage (Storage.getDeposit depositCnt networkID .pool))
  let globalExitRoot ← orFail .gettingGlobalExitRoot
    (onStorage (Storage.getL1ExitRootByGER ger dbTx))
  s.merkleProofs proofTextsByGER depositCnt networkID globalExitRoot dbTx

def getClaimProofForCompressed (s : BridgeServer) (ger : H)
    (depositCnt networkID : Nat) (dbTx : Querier) :
    Serving H (ClaimProof H) := do
  if dbTx = .pool then
    let deposit ← onStorage (Storage.getDeposit depositCnt networkID .pool)
    if deposit.readyForClaim = false then throw .depositNotSynced
  let globalExitRoot ← onStorage (Storage.getL1ExitRootByGER ger dbTx)
  s.merkleProofs proofTexts depositCnt networkID globalExitRoot dbTx

end BridgeServer

inductive ClaimProofCall (H : Type)
  | latest
  | byGER (ger : H)
  | forCompressed (ger : H)

def ClaimProofCall.run {H : Type} [DecidableEq H] [Externals H]
    (s : BridgeServer) (depositCnt networkID : Nat) (dbTx : Querier) :
    ClaimProofCall H → Serving H (ClaimProof H)
  | .latest => s.getClaimProof depositCnt networkID dbTx
  | .byGER ger => s.getClaimProofbyGER depositCnt networkID ger dbTx
  | .forCompressed ger =>
    s.getClaimProofForCompressed ger depositCnt networkID dbTx

section Specification

variable {H : Type} [Externals H]

/-- The check of the bridge contract for a leaf. -/
def ClaimProof.Accepted (height depositCnt networkID : Nat) (leaf : H)
    (proof : ClaimProof H) : Prop :=
  let root := MerkleTree.calculateRoot leaf proof.merkleProof depositCnt height
  if networkID = 0 then proof.globalExitRoot.exitRoots[0]? = some root
  else
    proof.globalExitRoot.exitRoots[1]? =
      some (MerkleTree.calculateRoot root proof.rollupMerkleProof
        (networkID - 1) height)

instance [DecidableEq H] (height depositCnt networkID : Nat) (leaf : H)
    (proof : ClaimProof H) :
    Decidable (proof.Accepted height depositCnt networkID leaf) :=
  inferInstanceAs (Decidable (ite _ _ _))

namespace Tables

variable [DecidableEq H]

/-- The exit roots of an entry, or of its L1 entry if its own are missing. -/
def entryRoots (t : Tables H) (row : ExitRootRow H) : Except Err (List H) :=
  if row.exitRoots.length = 2 then .ok row.exitRoots
  else
    match t.getL1ExitRootByGER row.globalExitRoot with
    | .ok l1GER => .ok l1GER.exitRoots
    | .error .panic => .error .panic
    | .error _ => .error .l1GERNotFound

def trustedExitRoot (t : Tables H) (networkID : Nat) :
    Except Err (GlobalExitRoot H) :=
  match t.latestTrustedRow networkID with
  | none => .error .storageNotFound
  | some row =>
    match t.entryRoots row with
    | .error err => .error err
    | .ok exitRoots =>
      .ok
        { blockID := row.blockID
          blockNumber := 0
          exitRoots := exitRoots
          globalExitRoot := row.globalExitRoot
          networkID := row.networkID
          id := row.id }

def claimEntry (t : Tables H) (s : BridgeServer) (call : ClaimProofCall H)
    (networkID destNet : Nat) : Except Err (GlobalExitRoot H) :=
  match call with
  | .latest =>
    if s.finalizedGER = true ∧ destNet ≠ 0 ∧ networkID ≠ 0 then
      t.trustedExitRoot networkID
    else if destNet ≠ 0 then t.trustedExitRoot destNet
    else t.getLatestL1SyncedExitRoot
  | .byGER ger => t.getL1ExitRootByGER ger
  | .forCompressed ger => t.getL1ExitRootByGER ger

def localExitRoot (t : Tables H) (networkID : Nat) (exitRoots : List H) :
    Option H :=
  if networkID = 0 then exitRoots[0]?
  else
    exitRoots[1]?.bind fun rollupExitRoot =>
      ((t.getRollupExitLeavesByRoot rollupExitRoot)[networkID - 1]?).map
        RollupExitLeaf.leaf

end Tables

end Specification

end BridgeService
