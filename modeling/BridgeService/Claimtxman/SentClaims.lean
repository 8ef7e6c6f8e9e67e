import BridgeService.Claimtxman.GroupHistory
import BridgeService.Claimtxman.PassOutcome

/-!
# Claims that were sent

A pass sends claims before its transaction is committed.  If a later part of
the pass fails, the transaction is rolled back, and the tables do not know the
claims that were sent.
-/

namespace BridgeService

variable {H : Type} [DecidableEq H]

namespace MonitorCompressedTxs

variable {tm : MonitorCompressedTxs H} {inputs : PassInputs H}
  {store store' : ClaimStore H} {cfg : ConfigGroupingClaims}
  {deposit : List ClaimDeposit}

/-- After a pass, every hash it was given for a claim is in the history of the
group. -/
def RemembersSent (tm : MonitorCompressedTxs H) (inputs : PassInputs H)
    (store : ClaimStore H) : Prop :=
  ∀ groupID txHash, (groupID, txHash) ∈ (tm.monitorTxs inputs store).sent →
    ∃ row, row ∈ (tm.monitorTxs inputs store).store.monitoredTxsGroup ∧
      row.groupID = groupID ∧ txHash ∈ hashes row.txHashes

/-- The claims that a pass is about to send have a hash that their group has
already. -/
def SendsNothingNew (tm : MonitorCompressedTxs H) (inputs : PassInputs H)
    (store : ClaimStore H) : Prop :=
  ∀ row, row ∈ store.monitoredTxsGroup → tm.Occupied store row →
    ∀ txHash, tm.Sends inputs (ClaimStore.readGroup row) txHash →
      txHash ∈ hashes row.txHashes

omit [DecidableEq H] in
theorem Advances.sent {row row' : MonitoredTxGroupDBEntry H} {txHash : H}
    (advances : Advances tm inputs row row')
    (sends : tm.Sends inputs (ClaimStore.readGroup row) txHash) :
    txHash ∈ hashes row'.txHashes := by
  rw [advances.txHashes, hashes_historyAfter, claimed, sendClaim_sends sends,
    txHashes_sentEntry]
  simp [hashes]

section

variable (ran : ClaimStore.Run cfg (.empty deposit) store)
  (settings : tm.cfg = cfg)

include ran settings

theorem hasHistory_of_run {row : MonitoredTxGroupDBEntry H}
    (stored : row ∈ store.monitoredTxsGroup) :
    HasHistory (tm.claimed inputs row) :=
  ((ClaimStore.historyKept ran row stored).claimed settings).hasHistory

theorem not_sends_of_pending {row : MonitoredTxGroupDBEntry H}
    (stored : row ∈ store.monitoredTxsGroup)
    (pending : pendingEntries row.txHashes ≠ []) (txHash : H) :
    ¬tm.Sends inputs (ClaimStore.readGroup row) txHash := by
  intro sends
  have kept := ClaimStore.historyKept ran row stored
  rcases canSend_cases settings kept.read sends.allowed with
    empty | ⟨nothing, _⟩
  · apply pending
    change row.txHashes = [] at empty
    rw [empty]
    rfl
  · exact pending nothing

private theorem remembersSent_of_undisturbed
    (undisturbed : Undisturbed tm inputs store) :
    RemembersSent tm inputs store := by
  intro groupID txHash sent
  have keyed := ClaimStore.keyed_of_run ran
  obtain ⟨running, row, stored, occupied, rfl, sends⟩ :=
    (mem_sent keyed).mp sent
  have effect := monitorTxs_effect keyed (monitorTxs_commits keyed
    (fun row => hasHistory_of_run ran settings) running undisturbed)
  obtain ⟨row', stored', step⟩ := effect.exists_group stored
  refine ⟨row', stored', step.groupID, ?_⟩
  cases step with
  | idle empty => exact absurd occupied empty
  | advance _ advances => exact advances.sent sends

private theorem remembersSent_of_rolledBack (running : ¬Stops inputs)
    (disturbed : ¬Undisturbed tm inputs store) :
    RemembersSent tm inputs store ↔ SendsNothingNew tm inputs store := by
  have keyed := ClaimStore.keyed_of_run ran
  have rolledBack := monitorTxs_rollsBack keyed
    (fun row => hasHistory_of_run ran settings) running disturbed
  constructor
  · intro remembers row stored occupied txHash sends
    obtain ⟨other, otherIn, same, known⟩ := remembers row.groupID txHash
      ((mem_sent keyed).mpr ⟨running, row, stored, occupied, rfl, sends⟩)
    rw [rolledBack] at otherIn
    rwa [List.inj_on_of_nodup_map keyed.groups otherIn stored same] at known
  · intro nothingNew groupID txHash sent
    obtain ⟨_, row, stored, occupied, rfl, sends⟩ := (mem_sent keyed).mp sent
    rw [rolledBack]
    exact ⟨row, stored, rfl, nothingNew row stored occupied txHash sends⟩

end

/-- A pass remembers what it has sent exactly if it stops before it sends, is
not disturbed afterwards, or sends nothing new.  A claim that is remembered
keeps later passes from sending another one while it is pending. -/
theorem sent_claims_remembered_iff
    (ran : ClaimStore.Run cfg (.empty deposit) store)
    (settings : tm.cfg = cfg) :
    (RemembersSent tm inputs store ↔
      Stops inputs ∨ Undisturbed tm inputs store ∨
        SendsNothingNew tm inputs store) ∧
      ∀ store', ClaimStore.Run cfg (tm.monitorTxs inputs store).store store' →
        ∀ row, row ∈ store'.monitoredTxsGroup →
          pendingEntries row.txHashes ≠ [] →
          ∀ inputs' txHash,
            ¬tm.Sends inputs' (ClaimStore.readGroup row) txHash := by
  have keyed := ClaimStore.keyed_of_run ran
  constructor
  · by_cases stops : Stops inputs
    · simp only [stops, true_or, iff_true]
      intro groupID txHash sent
      exact absurd stops ((mem_sent keyed).mp sent).1
    · by_cases undisturbed : Undisturbed tm inputs store
      · simp only [undisturbed, true_or, or_true, iff_true]
        exact remembersSent_of_undisturbed ran settings undisturbed
      · simp only [stops, undisturbed, false_or]
        exact remembersSent_of_rolledBack ran settings stops undisturbed
  · intro store' later row stored pending inputs' txHash
    have whole : ClaimStore.Run cfg (.empty deposit) store' :=
      (ran.tail (.pass tm inputs settings rfl)).trans later
    exact not_sends_of_pending whole settings stored pending txHash

end MonitorCompressedTxs

namespace SampleClaims

open MonitorCompressedTxs

def grouped : ClaimStore Nat :=
  (afterPasses (grouping 2 settings.maxRetries_lt) waiting
    [answers 1]).addClaimTx (claimTx 2 5) 1

theorem run_grouped :
    ClaimStore.Run (grouping 2 (by decide)) (.empty deposits) grouped :=
  ((run_waiting _).trans (run_afterPasses _ _ _)).tail
    (.addClaimTx (claimTx 2 5) 1 rfl rfl rfl rfl rfl)

def uncommitted (now : Nat) : PassInputs Nat :=
  { answers now with
    fault := fun part => part == .commit }

/-- A pass that sends a claim and then cannot commit forgets the claim, and the
next pass sends one more. -/
theorem sent_claim_forgotten :
    ClaimStore.Run (grouping 2 (by decide)) (.empty deposits) grouped ∧
      ((monitor (grouping 2 (by decide))).monitorTxs (uncommitted 2)
        grouped).sent = [(1, 102)] ∧
      ¬RemembersSent (monitor (grouping 2 (by decide))) (uncommitted 2)
        grouped ∧
      ((monitor (grouping 2 (by decide))).monitorTxs (answers 3)
        ((monitor (grouping 2 (by decide))).monitorTxs (uncommitted 2)
          grouped).store).sent = [(1, 103)] := by
  have first : ((monitor (grouping 2 (by decide))).monitorTxs
      (uncommitted 2) grouped).sent = [(1, 102)] := by
    decide +kernel
  refine ⟨run_grouped, first, ?_, by decide +kernel⟩
  intro remembers
  have known := remembers 1 102 (by rw [first]; simp)
  revert known
  decide +kernel

theorem sent_claims_remembered_sample :
    ((monitor (grouping 2 (by decide))).monitorTxs (answers 2)
      grouped).sent = [(1, 102)] ∧
      RemembersSent (monitor (grouping 2 (by decide))) (answers 2)
        grouped := by
  refine ⟨by decide +kernel, ?_⟩
  apply (sent_claims_remembered_iff run_grouped rfl).1.mpr
  refine .inr (.inl ⟨rfl, rfl, ?_⟩)
  intro _
  have data : ∀ tx, tx ∈ (newGroup (answers 2)
      (grouped.getLatestMonitoredTxGroupID + 1) ((monitor (grouping 2
        (by decide))).chosen (answers 2) grouped) none).txs →
      tx.data = [0, 0, 0, 0] := by
    decide +kernel
  refine ⟨ComposeCompressClaim.compose_total ?_ ?_, some [7], rfl⟩
  · decide +kernel
  · exact fun tx mem => decodes (data tx mem)

end SampleClaims

end BridgeService
