import BridgeService.Claimtxman.MonitoredTx
import BridgeService.Lib.Rows

/-!
# Parameters of a compressed claim

The calls of the transactions of a group are taken apart again, and the claims
are handed to the claim compressor with the exit roots of the newest deposit.
The decoder of the call data is a parameter.
-/

namespace BridgeService

open Rows

variable {H : Type}

structure BridgeClaimXParams (H : Type) where
  smtProofLocalExitRoot : List H
  smtProofRollupExitRoot : List H
  globalIndex : Nat
  mainnetExitRoot : H
  rollupExitRoot : H
  originNetwork : Nat
  originTokenAddress : Address
  destinationNetwork : Nat
  destinationAddress : Address
  amount : Nat
  metadata : Bytes
  isMessage : Bool
deriving DecidableEq

structure CompressClaimCallData (H : Type) where
  smtProofLocalExitRoot : List H
  smtProofRollupExitRoot : List H
  globalIndex : Nat
  originNetwork : Nat
  originAddress : Address
  destinationAddress : Address
  amount : Nat
  metadata : Bytes
  isMessage : Bool
deriving DecidableEq

structure CompressClaimParameters (H : Type) where
  mainnetExitRoot : H
  rollupExitRoot : H
  claimData : List (CompressClaimCallData H)
deriving DecidableEq

inductive ComposeErr
  | methodUnknown
  | unpack
  | panic
deriving DecidableEq

/-- Selectors of the two methods, and the decoder of their arguments, which
does not say which method it was. -/
structure ComposeCompressClaim (H : Type) where
  methodClaimAssets : Bytes
  methodClaimMessages : Bytes
  unpack : Bytes → Option (BridgeClaimXParams H)

namespace ComposeCompressClaim

def extractParams (c : ComposeCompressClaim H) (data : Bytes) :
    Except ComposeErr (BridgeClaimXParams H) :=
  if data.length < 4 then .error .panic
  else
    let decoded (isMessage : Bool) :
        Except ComposeErr (BridgeClaimXParams H) :=
      match c.unpack (data.drop 4) with
      | none => .error .unpack
      | some params => .ok { params with isMessage := isMessage }
    if data.take 4 = c.methodClaimAssets then decoded false
    else if data.take 4 = c.methodClaimMessages then decoded true
    else .error .methodUnknown

def extractAll (c : ComposeCompressClaim H) :
    List (MonitoredTx H) →
      Except ComposeErr (List (Nat × BridgeClaimXParams H))
  | [] => .ok []
  | tx :: rest => do
      let params ← c.extractParams tx.data
      let others ← c.extractAll rest
      pure ((tx.depositID, params) :: others)

def claimData (params : BridgeClaimXParams H) : CompressClaimCallData H :=
  { smtProofLocalExitRoot := params.smtProofLocalExitRoot
    smtProofRollupExitRoot := params.smtProofRollupExitRoot
    globalIndex := params.globalIndex
    originNetwork := params.originNetwork
    originAddress := params.originTokenAddress
    destinationAddress := params.destinationAddress
    amount := params.amount
    metadata := params.metadata
    isMessage := params.isMessage }

def getCompressClaimParametersFromMonitoredTx (c : ComposeCompressClaim H)
    (txs : List (MonitoredTx H)) :
    Except ComposeErr (CompressClaimParameters H) := do
  let params ← c.extractAll txs
  match lastBy Prod.fst params with
  | none => throw .panic
  | some newest =>
    pure
      { mainnetExitRoot := newest.2.mainnetExitRoot
        rollupExitRoot := newest.2.rollupExitRoot
        claimData := params.map fun claim => claimData claim.2 }

def Decodes (c : ComposeCompressClaim H) (tx : MonitoredTx H) : Prop :=
  ∃ params, c.extractParams tx.data = .ok params

section Decoding

variable {c : ComposeCompressClaim H} {txs : List (MonitoredTx H)}

private theorem extractAll_total
    (decodes : ∀ tx, tx ∈ txs → c.Decodes tx) :
    ∃ params, c.extractAll txs = .ok params ∧
      params.length = txs.length := by
  induction txs with
  | nil => exact ⟨[], rfl, rfl⟩
  | cons tx rest induction =>
    obtain ⟨params, here⟩ := decodes tx List.mem_cons_self
    obtain ⟨others, done, length⟩ := induction fun other mem =>
      decodes other (List.mem_cons_of_mem tx mem)
    rw [extractAll, here, done]
    exact ⟨_, rfl, by simp [length]⟩

theorem compose_total (some : txs ≠ [])
    (decodes : ∀ tx, tx ∈ txs → c.Decodes tx) :
    ∃ composed, c.getCompressClaimParametersFromMonitoredTx txs =
      .ok composed := by
  obtain ⟨params, done, length⟩ := extractAll_total decodes
  rw [getCompressClaimParametersFromMonitoredTx, done]
  cases newest : lastBy Prod.fst params with
  | none =>
    rw [lastBy_eq_none newest] at length
    exact absurd (List.length_eq_zero_iff.mp length.symm) some
  | some claim =>
    simp only [bind, Except.bind, newest]
    exact ⟨_, rfl⟩

end Decoding

end ComposeCompressClaim

end BridgeService
