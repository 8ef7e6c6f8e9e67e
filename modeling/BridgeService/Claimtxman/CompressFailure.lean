import BridgeService.Claimtxman.SentClaims

/-!
# A failing call of the compressor

The client answers a call of the compressor contract that fails with empty data
and no error.  The group that is being built is stored with these data, unless
the pass is rolled back for another reason.
-/

namespace BridgeService

open List

variable {H : Type}

def Client.compressClaimCall :
    Except String (Option Bytes) → Except String (Option Bytes)
  | .error _ => .ok (some [])
  | .ok compressedData => .ok compressedData

namespace MonitorCompressedTxs

def compressing (inputs : PassInputs H)
    (answer : Except String (Option Bytes)) : PassInputs H :=
  { inputs with compressClaimCall := Client.compressClaimCall answer }

variable [DecidableEq H]

def storeAfter (tm : MonitorCompressedTxs H) (inputs : PassInputs H)
    (answer : Except String (Option Bytes)) (store : ClaimStore H) :
    ClaimStore H :=
  (tm.monitorTxs (compressing inputs answer) store).store

structure CallsCompressor (tm : MonitorCompressedTxs H)
    (inputs : PassInputs H) (store : ClaimStore H) : Prop where
  running : ¬Stops inputs
  some : tm.chosen inputs store ≠ []
  composed : ∃ params,
    tm.compressClaimComposer.getCompressClaimParametersFromMonitoredTx
      (newGroup inputs (store.getLatestMonitoredTxGroupID + 1)
        (tm.chosen inputs store) none).txs = .ok params

def Stores (inputs : PassInputs H) : Prop :=
  inputs.fault .execute = false ∧ inputs.fault .commit = false

/-- A pass whose call of the compressor fails adds no group, keeps the
candidates, and a later pass groups them with the data of the contract. -/
structure FailureChangesNothing (tm : MonitorCompressedTxs H)
    (inputs : PassInputs H) (err : String) (store : ClaimStore H) : Prop where
  groups : (tm.storeAfter inputs (.error err) store).monitoredTxsGroup.map
      MonitoredTxGroupDBEntry.groupID =
    store.monitoredTxsGroup.map MonitoredTxGroupDBEntry.groupID
  candidates : ∀ tx, tx ∈ candidates (tm.activeTxs inputs store) →
    tx ∈ (tm.storeAfter inputs (.error err) store).monitoredTxs
  later : ∀ inputs' data,
    CallsCompressor tm inputs' (tm.storeAfter inputs (.error err) store) →
    Stores inputs' →
    ∃ row, row ∈ (tm.storeAfter inputs' (.ok data)
        (tm.storeAfter inputs (.error err) store)).monitoredTxsGroup ∧
      row.depositIDs = (tm.chosen inputs' store).map MonitoredTx.depositID ∧
      row.compressedTxData = data

variable {cfg : ConfigGroupingClaims} {deposit : List ClaimDeposit}
  {tm : MonitorCompressedTxs H} {inputs : PassInputs H} {store : ClaimStore H}
  (ran : ClaimStore.Run cfg (.empty deposit) store) (settings : tm.cfg = cfg)
  (calls : CallsCompressor tm inputs store)

include ran settings calls

private theorem group_stored (answer : Except String (Option Bytes))
    (stores : Stores inputs) :
    ∃ data, Client.compressClaimCall answer = .ok data ∧
      createdRow inputs (store.getLatestMonitoredTxGroupID + 1)
        (tm.chosen inputs store) data ∈
        (tm.storeAfter inputs answer store).monitoredTxsGroup := by
  have returned : ∃ data, Client.compressClaimCall answer = .ok data := by
    cases answer with
    | error err => exact ⟨_, rfl⟩
    | ok data => exact ⟨_, rfl⟩
  have keyed := ClaimStore.keyed_of_run ran
  have running : ¬Stops (compressing inputs answer) := calls.running
  have effect := monitorTxs_effect keyed (monitorTxs_commits keyed
    (fun row => hasHistory_of_run ran settings) running
    ⟨stores.1, stores.2, fun _ => ⟨calls.composed, returned⟩⟩)
  obtain ⟨kept, new, groups, _, added⟩ := effect.groups
  cases added with
  | nothing none => exact absurd none calls.some
  | @group data some compressed =>
    refine ⟨data, compressed, ?_⟩
    rw [storeAfter, groups]
    exact mem_append_right kept mem_cons_self

/-- A failing call of the compressor changes nothing exactly if the pass is
rolled back because the store update or the commit fails. -/
theorem failure_changes_nothing_iff (err : String) :
    FailureChangesNothing tm inputs err store ↔ ¬Stores inputs := by
  constructor
  · intro unchanged stores
    obtain ⟨data, _, stored⟩ :=
      group_stored ran settings calls (.error err) stores
    have known := mem_map_of_mem (f := MonitoredTxGroupDBEntry.groupID)
      stored
    rw [unchanged.groups] at known
    obtain ⟨row, rowIn, same⟩ := mem_map.mp known
    have bound := ClaimStore.le_latest rowIn
    rw [same] at bound
    exact Nat.not_succ_le_self _ bound
  · intro fails
    have running : ¬Stops (compressing inputs (.error err)) := calls.running
    have rolledBack : tm.storeAfter inputs (.error err) store = store :=
      monitorTxs_rollsBack (ClaimStore.keyed_of_run ran)
        (fun row => hasHistory_of_run ran settings) running
        fun undisturbed => fails ⟨undisturbed.execute, undisturbed.commit⟩
    constructor
    · rw [rolledBack]
    · intro tx candidate
      rw [rolledBack]
      exact (mem_activeTxs.mp (mem_candidates candidate).1).1
    · rw [rolledBack]
      intro inputs' data calls' stores
      obtain ⟨data', returned, stored⟩ :=
        group_stored ran settings calls' (.ok data) stores
      cases returned
      exact ⟨_, stored, rfl, rfl⟩

end MonitorCompressedTxs

namespace SampleClaims

open MonitorCompressedTxs

private theorem waiting_calls (inputs : PassInputs Nat)
    (running : ¬Stops inputs)
    (chosen : (monitor settings).chosen inputs waiting = [claimTx 1 5]) :
    CallsCompressor (monitor settings) inputs waiting := by
  refine ⟨running, by simp [chosen], ?_⟩
  rw [chosen]
  exact ⟨_, rfl⟩

theorem failed_call_stored :
    ClaimStore.Run settings (.empty deposits) waiting ∧
      CallsCompressor (monitor settings) (answers 1) waiting ∧
      ((monitor settings).storeAfter (answers 1) (.error "reverted")
        waiting).monitoredTxsGroup.map (fun row =>
          (row.depositIDs, row.compressedTxData)) = [([1], some [])] ∧
      ¬FailureChangesNothing (monitor settings) (answers 1) "reverted"
        waiting := by
  refine ⟨run_waiting _, waiting_calls _ (by simp [Stops, answers])
    (by decide +kernel), by decide +kernel, ?_⟩
  intro unchanged
  have groups := unchanged.groups
  revert groups
  decide +kernel

theorem failed_call_rolled_back :
    FailureChangesNothing (monitor settings) (uncommitted 1) "reverted"
      waiting :=
  (failure_changes_nothing_iff (run_waiting _) rfl
    (waiting_calls _ (by simp [Stops, uncommitted, answers])
      (by decide +kernel)) _).mpr (by simp [Stores, uncommitted])

end SampleClaims

end BridgeService
