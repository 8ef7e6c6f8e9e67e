import BridgeService.Claimtxman.PassRows
import Mathlib.Logic.Relation

/-!
# Runs of the monitor of grouped claims

The tables change by passes of the monitors, by new transactions and by
deposits that the synchronizers store or remove.  The monitors of several
networks share the tables and the settings.
-/

namespace BridgeService

open Rows List

variable {H : Type} [DecidableEq H]

/-- One change of the tables.  The service adds claims without a value. -/
inductive ClaimStore.Step (cfg : ConfigGroupingClaims)
    (store store' : ClaimStore H) : Prop
  | pass (tm : MonitorCompressedTxs H) (inputs : PassInputs H)
      (settings : tm.cfg = cfg)
      (ran : store' = (tm.monitorTxs inputs store).store)
  | addClaimTx (mTx : MonitoredTx H) (now : Nat)
      (created : mTx.status = .created) (unsent : mTx.history = [])
      (single : mTx.groupID = none) (noValue : mTx.value = none)
      (ran : store' = store.addClaimTx mTx now)
  | deposits (deposit : List ClaimDeposit)
      (ran : store' = { store with deposit := deposit })

abbrev ClaimStore.Run (cfg : ConfigGroupingClaims) :
    ClaimStore H → ClaimStore H → Prop :=
  Relation.ReflTransGen (ClaimStore.Step cfg)

namespace MonitorCompressedTxs

variable {tm : MonitorCompressedTxs H} {inputs : PassInputs H}
  {store store' : ClaimStore H}

theorem TxStep.depositID {tx tx' : MonitoredTx H}
    (step : TxStep tm inputs store tx tx') :
    tx'.depositID = tx.depositID := by
  cases step with
  | idle free passed => rfl
  | grouped updatedAt active stored grouped => rfl
  | chosen updatedAt chosen => rfl

omit [DecidableEq H] in
theorem GroupStep.groupID {row row' : MonitoredTxGroupDBEntry H}
    (step : GroupStep tm inputs store row row') :
    row'.groupID = row.groupID := by
  cases step with
  | idle empty => rfl
  | advance occupied advances => exact advances.groupID

namespace Effect

variable (effect : Effect tm inputs store store')

include effect in
theorem mem_groups {row' : MonitoredTxGroupDBEntry H}
    (stored : row' ∈ store'.monitoredTxsGroup) :
    (∃ row, row ∈ store.monitoredTxsGroup ∧
      GroupStep tm inputs store row row') ∨
      ∃ compressedData, tm.chosen inputs store ≠ [] ∧
        inputs.compressClaimCall = .ok compressedData ∧
        row' = createdRow inputs (store.getLatestMonitoredTxGroupID + 1)
          (tm.chosen inputs store) compressedData := by
  obtain ⟨kept, new, rows, steps, added⟩ := effect.groups
  rw [rows] at stored
  rcases mem_append.mp stored with old | isNew
  · exact .inl (SideBySide.exists_left steps old)
  · cases added with
    | nothing none => contradiction
    | group some compressed =>
      exact .inr ⟨_, some, compressed, mem_singleton.mp isNew⟩

include effect in
theorem exists_group {row : MonitoredTxGroupDBEntry H}
    (stored : row ∈ store.monitoredTxsGroup) :
    ∃ row', row' ∈ store'.monitoredTxsGroup ∧
      GroupStep tm inputs store row row' := by
  obtain ⟨kept, new, rows, steps, added⟩ := effect.groups
  obtain ⟨row', mem, step⟩ := SideBySide.exists_right steps stored
  exact ⟨row', by simp [rows, mem], step⟩

include effect in
theorem exists_new (some : tm.chosen inputs store ≠ []) :
    ∃ compressedData, inputs.compressClaimCall = .ok compressedData ∧
      createdRow inputs (store.getLatestMonitoredTxGroupID + 1)
        (tm.chosen inputs store) compressedData ∈
          store'.monitoredTxsGroup := by
  obtain ⟨kept, new, rows, steps, added⟩ := effect.groups
  cases added with
  | nothing none => exact absurd none some
  | @group compressedData some compressed =>
    refine ⟨compressedData, compressed, ?_⟩
    rw [rows]
    exact mem_append_right _ mem_cons_self

include effect in
theorem mem_txs {tx' : MonitoredTx H}
    (stored : tx' ∈ store'.monitoredTxs) :
    ∃ tx, tx ∈ store.monitoredTxs ∧ TxStep tm inputs store tx tx' :=
  SideBySide.exists_left effect.txs stored

include effect in
theorem keyed (keyed : store.Keyed) : store'.Keyed := by
  constructor
  · rw [SideBySide.map_eq effect.txs fun tx tx' => TxStep.depositID]
    exact keyed.txs
  · obtain ⟨kept, new, rows, steps, added⟩ := effect.groups
    rw [rows, map_append,
      SideBySide.map_eq steps fun row row' => GroupStep.groupID,
      nodup_append]
    refine ⟨keyed.groups, ?_, ?_⟩
    · cases added with
      | nothing none => simp
      | group some compressed => simp
    · intro groupID old groupID' isNew
      obtain ⟨row, stored, rfl⟩ := mem_map.mp old
      obtain ⟨row', stored', rfl⟩ := mem_map.mp isNew
      have bound := ClaimStore.le_latest stored
      rw [added.groupID stored']
      omega
  · intro tx' stored' groupID grouped'
    obtain ⟨tx, stored, step⟩ := effect.mem_txs stored'
    cases step with
    | idle free passed =>
      obtain ⟨row, rowIn, rfl⟩ := keyed.known tx' stored groupID grouped'
      obtain ⟨row', rowIn', step⟩ := effect.exists_group rowIn
      exact ⟨row', rowIn', step.groupID⟩
    | grouped updatedAt active rowIn grouped =>
      obtain ⟨row, rowIn, rfl⟩ := keyed.known tx stored groupID grouped'
      obtain ⟨row', rowIn', step⟩ := effect.exists_group rowIn
      exact ⟨row', rowIn', step.groupID⟩
    | chosen updatedAt chosen =>
      obtain ⟨compressedData, _, rowIn'⟩ :=
        effect.exists_new (ne_nil_of_mem chosen)
      exact ⟨_, rowIn', Option.some.inj grouped'⟩

end Effect

end MonitorCompressedTxs

namespace ClaimStore

variable {cfg : ConfigGroupingClaims} {store store' : ClaimStore H}

omit [DecidableEq H] in
@[simp] theorem addClaimTx_monitoredTxsGroup (store : ClaimStore H)
    (mTx : MonitoredTx H) (now : Nat) :
    (store.addClaimTx mTx now).monitoredTxsGroup =
      store.monitoredTxsGroup := by
  rcases store.addClaimTx_cases mTx now with same | ⟨_, added⟩
  · rw [same]
  · rw [added]

omit [DecidableEq H] in
@[simp] theorem addClaimTx_deposit (store : ClaimStore H)
    (mTx : MonitoredTx H) (now : Nat) :
    (store.addClaimTx mTx now).deposit = store.deposit := by
  rcases store.addClaimTx_cases mTx now with same | ⟨_, added⟩
  · rw [same]
  · rw [added]

omit [DecidableEq H] in
private theorem Keyed.addClaimTx (keyed : store.Keyed) (mTx : MonitoredTx H)
    (now : Nat) (single : mTx.groupID = none) :
    (store.addClaimTx mTx now).Keyed := by
  rcases store.addClaimTx_cases mTx now with same | ⟨fresh, added⟩
  · rw [same]
    exact keyed
  · rw [added]
    constructor
    · rw [map_append, nodup_append]
      refine ⟨keyed.txs, by simp, ?_⟩
      intro depositID old depositID' isNew
      obtain ⟨row, stored, rfl⟩ := mem_map.mp old
      rw [map_cons, map_nil, mem_singleton] at isNew
      rw [isNew]
      exact fresh row stored
    · exact keyed.groups
    · intro tx mem groupID grouped
      rcases Rows.mem_push.mp mem with old | rfl
      · exact keyed.known tx old groupID grouped
      · simp [single] at grouped

theorem Step.keyed (step : ClaimStore.Step cfg store store')
    (keyed : store.Keyed) : store'.Keyed := by
  cases step with
  | pass tm inputs settings ran =>
    subst ran
    rcases MonitorCompressedTxs.monitorTxs_cases keyed with same | effect
    · rw [same]
      exact keyed
    · exact effect.keyed keyed
  | addClaimTx mTx now created unsent single noValue ran =>
    subst ran
    exact keyed.addClaimTx mTx now single
  | deposits deposit ran =>
    subst ran
    exact ⟨keyed.txs, keyed.groups, keyed.known⟩

omit [DecidableEq H] in
theorem keyed_empty (deposit : List ClaimDeposit) :
    (ClaimStore.empty deposit : ClaimStore H).Keyed := by
  constructor
  · exact nodup_nil
  · exact nodup_nil
  · intro tx mem
    contradiction

theorem keyed_of_run {deposit : List ClaimDeposit}
    (ran : ClaimStore.Run cfg (.empty deposit) store) : store.Keyed := by
  induction ran with
  | refl => exact keyed_empty deposit
  | tail _ step induction => exact step.keyed induction

theorem forall_groups_of_run {deposit : List ClaimDeposit}
    {fact : MonitoredTxGroupDBEntry H → Prop}
    (created : ∀ inputs groupID txs compressedData,
      fact (MonitorCompressedTxs.createdRow inputs groupID txs compressedData))
    (advances : ∀ (tm : MonitorCompressedTxs H) inputs row row',
      tm.cfg = cfg → fact row →
      MonitorCompressedTxs.Advances tm inputs row row' → fact row')
    (ran : ClaimStore.Run cfg (.empty deposit) store) :
    ∀ row, row ∈ store.monitoredTxsGroup → fact row := by
  induction ran with
  | refl =>
    intro row mem
    contradiction
  | @tail before after earlier step induction =>
    cases step with
    | pass tm inputs settings ran =>
      subst ran
      rcases MonitorCompressedTxs.monitorTxs_cases
          (keyed_of_run earlier) with same | effect
      · rw [same]
        exact induction
      · intro row' stored
        rcases effect.mem_groups stored with
          ⟨row, rowIn, step⟩ | ⟨compressedData, _, _, rfl⟩
        · cases step with
          | idle empty => exact induction row' rowIn
          | advance occupied done =>
            exact advances tm inputs row row' settings
              (induction row rowIn) done
        · exact created inputs _ _ compressedData
    | addClaimTx mTx now _ _ _ _ ran =>
      subst ran
      rw [addClaimTx_monitoredTxsGroup]
      exact induction
    | deposits deposit ran =>
      subst ran
      exact induction

end ClaimStore

/-! A small monitor whose runs can be computed. -/

namespace SampleClaims

def grouping (maxRetries : Nat) (small : (maxRetries : Int) < 2 ^ 31) :
    ConfigGroupingClaims :=
  { triggerNumberOfClaims := 1
    maxNumberOfClaimsPerGroup := 10
    triggerRetainedClaimPeriod := 100
    maxRetries := maxRetries
    retryInterval := 1
    retryTimeout := 10
    maxRetries_lt := small }

def settings : ConfigGroupingClaims := grouping 2 (by decide)

def params : BridgeClaimXParams Nat :=
  { smtProofLocalExitRoot := []
    smtProofRollupExitRoot := []
    globalIndex := 0
    mainnetExitRoot := 0
    rollupExitRoot := 0
    originNetwork := 0
    originTokenAddress := 0
    destinationNetwork := 1
    destinationAddress := 0
    amount := 0
    metadata := []
    isMessage := false }

def composer : ComposeCompressClaim Nat :=
  { methodClaimAssets := [0, 0, 0, 0]
    methodClaimMessages := [1, 1, 1, 1]
    unpack := fun _ => some params }

def monitor (cfg : ConfigGroupingClaims) : MonitorCompressedTxs Nat :=
  { cfg := cfg
    rollupID := 1
    compressClaimComposer := composer }

def answers (now : Nat) : PassInputs Nat :=
  { clock := fun _ => now
    fault := fun _ => false
    listed := id
    listed_perm := fun rows => .refl rows
    estimateGas := fun _ => .ok ()
    sendCompressedClaims := fun groupID => .ok (100 * groupID + now)
    checkTxWasMined := fun _ _ => .ok none
    compressClaimCall := .ok (some [7]) }

def claimTx (depositID ger : Nat) : MonitoredTx Nat :=
  { depositID := depositID
    fromAddr := 0
    toAddr := none
    nonce := 0
    value := none
    data := [0, 0, 0, 0]
    gas := 0
    gasPrice := none
    status := .created
    history := []
    createdAt := 0
    updatedAt := 0
    groupID := none
    globalExitRoot := ger }

def deposits : List ClaimDeposit :=
  [{ id := 1
     destNet := 1 },
   { id := 2
     destNet := 1 }]

theorem decodes {tx : MonitoredTx Nat} (data : tx.data = [0, 0, 0, 0]) :
    composer.Decodes tx := by
  rw [ComposeCompressClaim.Decodes, data]
  exact ⟨_, rfl⟩

def waiting : ClaimStore Nat :=
  (ClaimStore.empty deposits).addClaimTx (claimTx 1 5) 0

theorem run_waiting (cfg : ConfigGroupingClaims) :
    ClaimStore.Run cfg (.empty deposits) waiting :=
  .single (.addClaimTx (claimTx 1 5) 0 rfl rfl rfl rfl rfl)

def afterPasses (cfg : ConfigGroupingClaims) (store : ClaimStore Nat)
    (passes : List (PassInputs Nat)) : ClaimStore Nat :=
  passes.foldl (fun store inputs =>
    ((monitor cfg).monitorTxs inputs store).store) store

theorem run_afterPasses (cfg : ConfigGroupingClaims)
    (store : ClaimStore Nat) (passes : List (PassInputs Nat)) :
    ClaimStore.Run cfg store (afterPasses cfg store passes) := by
  induction passes generalizing store with
  | nil => exact .refl
  | cons inputs rest induction =>
    exact .head (.pass (monitor cfg) inputs rfl rfl) (induction _)

end SampleClaims

end BridgeService
