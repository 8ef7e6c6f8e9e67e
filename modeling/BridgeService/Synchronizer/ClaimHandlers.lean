import BridgeService.Storage.ClaimedDeposits
import BridgeService.Synchronizer.Faultless

/-!
# What the handlers of claims do to the tables

Without faults, a claim is stored unless its primary key is taken, an
UnsetClaim event deletes the claims with its global index, and a SetClaim event
stores a claim made of the deposit that it names.
-/

namespace BridgeService

open ErrorState World

namespace Tables

variable {H : Type}

def withClaim (t : Tables H) (claim : Claim H) : Tables H :=
  { t with claim := t.claim ++ [Storage.claimRow claim] }

def withoutClaim (t : Tables H) (globalIndex networkID : Nat) : Tables H :=
  { t with
    claim := t.claim.filter fun row =>
      !(row.globalIndex == toString globalIndex &&
        row.networkID == networkID) }

def withSetUnset (t : Tables H) (row : SetUnsetClaimRow) : Tables H :=
  { t with setUnsetClaim := t.setUnsetClaim ++ [row] }

end Tables

namespace Storage

variable {H : Type} {t : Tables H} {fails : Prop}

theorem addClaim_inTx {claim : Claim H}
    (taken : t.claimConflict claim = true → fails) :
    Triple (WithinTx fun t' => t' = t) (addClaim claim .tx)
      (fun _ => WithinTx fun t' => t' = t.withClaim claim)
      fun _ _ => fails := by
  apply update_inTx
  · rintro _ t' rfl changed
    split at changed
    · contradiction
    · cases changed
      exact rfl
  · rintro _ err rfl changed
    split at changed
    · next conflict => exact taken conflict
    · contradiction

theorem addSetUnsetClaim_inTx {row : SetUnsetClaimRow} :
    Triple (WithinTx fun t' => t' = t)
      (addSetUnsetClaim row .tx : Service H Unit)
      (fun _ => WithinTx fun t' => t' = t.withSetUnset row) fun _ _ => fails :=
  update_total

theorem deleteClaim_inTx {globalIndex networkID : Nat} :
    Triple (WithinTx fun t' => t' = t)
      (deleteClaimByGlobalIndex globalIndex networkID .tx : Service H Unit)
      (fun _ => WithinTx fun t' => t' = t.withoutClaim globalIndex networkID)
      fun _ _ => fails :=
  update_total

theorem getDeposit_inTx {depositCounter networkID : Nat} {found : Deposit H}
    (answer : t.getDeposit depositCounter networkID = .ok found) :
    Triple (WithinTx fun t' => t' = t) (getDeposit depositCounter networkID .tx)
      (fun deposit => WithinTx fun t' => t' = t ∧ deposit = found)
      fun _ _ => fails := by
  apply query_inTx
  · rintro _ value rfl read
    rw [answer] at read
    cases read
    exact ⟨rfl, rfl⟩
  · rintro _ err rfl read
    simp [answer] at read

end Storage

namespace ClientSynchronizer

variable {H : Type} [DecidableEq H] [Externals H] {s : ClientSynchronizer}
  {t : Tables H} {fails : Prop} {blockID : Nat}

theorem processClaim_inTx {claim : Claim H}
    (taken : t.claimConflict { claim with
      blockID := blockID
      networkID := s.networkID } = true → fails) :
    Triple (WithinTx fun t' => t' = t) (s.processClaim claim blockID)
      (fun _ => WithinTx fun t' => t' = t.withClaim { claim with
        blockID := blockID
        networkID := s.networkID })
      fun _ _ => fails :=
  orRollback_fails (Storage.addClaim_inTx taken)

theorem processUnsetClaimSovereign_inTx {unsetClaim : UnsetClaim} :
    Triple (WithinTx fun t' => t' = t)
      (s.processUnsetClaimSovereign unsetClaim blockID : Service H Unit)
      (fun _ => WithinTx fun t' => ∃ row, t' =
        (t.withSetUnset row).withoutClaim unsetClaim.globalIndex s.networkID)
      fun _ _ => fails := by
  apply Triple.bind (orRollback_fails Storage.addSetUnsetClaim_inTx)
  intro _
  apply Triple.consequence (orRollback_fails Storage.deleteClaim_inTx)
    (fun _ start => start) _ fun _ _ failed => failed
  rintro _ w ⟨faultless, t', view, rfl⟩
  exact ⟨faultless, _, view, _, rfl⟩

def setClaimRecord (s : ClientSynchronizer) (setClaim : SetClaim H)
    (deposit : Deposit H) (blockID blockNumber : Nat) : Claim H :=
  { mainnetFlag := setClaim.mainnetFlag
    rollupIndex := setClaim.rollupIndex
    index := setClaim.index
    originalNetwork := deposit.originalNetwork
    originalAddress := deposit.originalAddress
    amount := deposit.amount
    destinationAddress := deposit.destinationAddress
    blockID := blockID
    blockNumber := blockNumber
    networkID := s.networkID
    txHash := setClaim.txHash
    globalIndex := toString setClaim.globalIndex }

theorem processSetClaimSovereign_inTx {setClaim : SetClaim H}
    {blockNumber : Nat} {deposit : Deposit H}
    (found : t.getDeposit setClaim.index
      (if setClaim.mainnetFlag then 0
        else (setClaim.rollupIndex + 1) % 2 ^ 32) = .ok deposit)
    (here : deposit.destinationNetwork = s.networkID)
    (taken : t.claimConflict
      (s.setClaimRecord setClaim deposit blockID blockNumber) = true → fails) :
    Triple (WithinTx fun t' => t' = t)
      (s.processSetClaimSovereign setClaim blockID blockNumber)
      (fun _ => WithinTx fun t' => ∃ row, t' = (t.withSetUnset row).withClaim
        (s.setClaimRecord setClaim deposit blockID blockNumber))
      fun _ _ => fails := by
  apply Triple.bind (orRollback_fails Storage.addSetUnsetClaim_inTx)
  intro _
  have foundAgain : ∀ row, (t.withSetUnset row).getDeposit setClaim.index
      (if setClaim.mainnetFlag then 0
        else (setClaim.rollupIndex + 1) % 2 ^ 32) = .ok deposit :=
    fun _ => found
  apply Triple.bind (orRollback_fails (Storage.getDeposit_inTx (foundAgain _)))
  intro answer
  apply triple_inTx
  rintro _ ⟨rfl, rfl⟩
  have passes : ¬s.networkID ≠ answer.destinationNetwork := by
    rw [here]
    simp
  rw [if_neg passes]
  have takenAgain : ∀ row, (t.withSetUnset row).claimConflict
      (s.setClaimRecord setClaim answer blockID blockNumber) = true →
        fails := fun _ => taken
  apply Triple.consequence
    (orRollback_fails (Storage.addClaim_inTx (takenAgain _)))
    (fun _ start => start) _ fun _ _ failed => failed
  rintro _ w ⟨faultless, t', view, rfl⟩
  exact ⟨faultless, _, view, _, rfl⟩

end ClientSynchronizer

end BridgeService
