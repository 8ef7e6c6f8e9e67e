import BridgeService.Claimtxman.GroupHistory
import BridgeService.Claimtxman.GroupTxs
import BridgeService.Claimtxman.PassOutcome

/-!
# Runs with steady deposits

As long as the deposits of the monitored transactions stay in the tables and
the compressor returns data, every group keeps its data and its transactions,
and a transaction without a group waits for one.
-/

namespace BridgeService

open List

variable {H : Type} [DecidableEq H]

/-- One change of the tables; the monitor of any network may make a pass. -/
inductive ClaimMove (H : Type)
  | pass (tm : MonitorCompressedTxs H) (inputs : PassInputs H)
  | addClaimTx (mTx : MonitoredTx H) (now : Nat)
  | deposits (deposit : List ClaimDeposit)

namespace ClaimMove

def apply (store : ClaimStore H) : ClaimMove H → ClaimStore H
  | .pass tm inputs => (tm.monitorTxs inputs store).store
  | .addClaimTx mTx now => store.addClaimTx mTx now
  | .deposits deposit => { store with deposit := deposit }

open MonitorCompressedTxs in
/-- All monitors have the same settings, the compressor does not return
nothing, a new transaction belongs to a deposit, and deposits of monitored
transactions are not removed. -/
def Steady (cfg : ConfigGroupingClaims) (store : ClaimStore H) :
    ClaimMove H → Prop
  | .pass tm inputs => tm.cfg = cfg ∧ inputs.compressClaimCall ≠ .ok none
  | .addClaimTx mTx _ =>
    mTx.status = .created ∧ mTx.history = [] ∧ mTx.groupID = none ∧
      mTx.value = none ∧
      ∃ rollupID, store.hasDestination mTx.depositID rollupID = true
  | .deposits deposit =>
    (deposit.map ClaimDeposit.id).Nodup ∧ DepositsStay store deposit

theorem step {cfg : ConfigGroupingClaims} {store : ClaimStore H}
    {move : ClaimMove H} (steady : move.Steady cfg store) :
    ClaimStore.Step cfg store (move.apply store) := by
  cases move with
  | pass tm inputs => exact .pass tm inputs steady.1 rfl
  | addClaimTx mTx now =>
    obtain ⟨created, unsent, single, noValue, _⟩ := steady
    exact .addClaimTx mTx now created unsent single noValue rfl
  | deposits deposit => exact .deposits deposit rfl

end ClaimMove

def ClaimStore.SteadyStep (cfg : ConfigGroupingClaims)
    (store store' : ClaimStore H) : Prop :=
  ∃ move : ClaimMove H, move.Steady cfg store ∧ store' = move.apply store

abbrev ClaimStore.SteadyRun (cfg : ConfigGroupingClaims) :
    ClaimStore H → ClaimStore H → Prop :=
  Relation.ReflTransGen (ClaimStore.SteadyStep cfg)

namespace MonitorCompressedTxs

variable {tm : MonitorCompressedTxs H} {inputs : PassInputs H}
  {store store' : ClaimStore H} {cfg : ConfigGroupingClaims}
  {deposit : List ClaimDeposit}

structure SteadyStore (cfg : ConfigGroupingClaims) (store : ClaimStore H) :
    Prop where
  keyed : store.Keyed
  distinct : (store.deposit.map ClaimDeposit.id).Nodup
  follow : ∀ row, row ∈ store.monitoredTxsGroup → TxsFollow cfg store row
  kept : ∀ row, row ∈ store.monitoredTxsGroup → HistoryKept cfg row
  data : ∀ row, row ∈ store.monitoredTxsGroup → row.compressedTxData ≠ none
  single : ∀ tx, tx ∈ store.monitoredTxs → tx.groupID = none →
    tx.status = .created ∧ tx.history = []
  destination : ∀ tx, tx ∈ store.monitoredTxs →
    ∃ rollupID, store.hasDestination tx.depositID rollupID = true

private theorem SteadyStore.pass (steady : SteadyStore cfg store)
    (retry : 1 ≤ cfg.maxRetries) (settings : tm.cfg = cfg)
    (compresses : inputs.compressClaimCall ≠ .ok none) :
    SteadyStore cfg (tm.monitorTxs inputs store).store := by
  rcases monitorTxs_cases steady.keyed with same | effect
  · rw [same]
    exact steady
  · constructor
    · exact effect.keyed steady.keyed
    · rw [effect.deposit]
      exact steady.distinct
    · exact TxsFollow.pass retry settings steady.distinct effect steady.keyed
        steady.follow
    · intro row' stored'
      rcases effect.mem_groups stored' with
        ⟨row, stored, step⟩ | ⟨compressedData, _, _, rfl⟩
      · cases step with
        | idle empty => exact steady.kept row' stored
        | advance occupied advances =>
          exact (steady.kept row stored).advances settings advances
      · exact .created_row cfg inputs _ _ compressedData
    · intro row' stored'
      rcases effect.mem_groups stored' with
        ⟨row, stored, step⟩ | ⟨compressedData, _, compressed, rfl⟩
      · cases step with
        | idle empty => exact steady.data row' stored
        | advance occupied advances =>
          rw [advances.compressedTxData]
          exact steady.data row stored
      · intro none
        change compressedData = .none at none
        rw [none] at compressed
        exact compresses compressed
    · intro tx' stored' single
      obtain ⟨tx, stored, step⟩ := effect.mem_txs stored'
      cases step with
      | idle free passed => exact steady.single tx' stored single
      | grouped updatedAt active rowIn grouped =>
        have none : tx.groupID = none := single
        simp [none] at grouped
      | chosen updatedAt chosen => contradiction
    · intro tx' stored'
      obtain ⟨tx, stored, step⟩ := effect.mem_txs stored'
      rw [step.depositID]
      simp only [ClaimStore.hasDestination, effect.deposit]
      exact steady.destination tx stored

omit [DecidableEq H] in
private theorem SteadyStore.addClaimTx (steady : SteadyStore cfg store)
    {mTx : MonitoredTx H} {now : Nat}
    (fits : (ClaimMove.addClaimTx mTx now).Steady cfg store)
    (keyed : (store.addClaimTx mTx now).Keyed) :
    SteadyStore cfg (store.addClaimTx mTx now) := by
  obtain ⟨created, unsent, single, _, rollupID, destination⟩ := fits
  have added : ∀ tx, tx ∈ (store.addClaimTx mTx now).monitoredTxs →
      tx ∈ store.monitoredTxs ∨ tx.status = mTx.status ∧
        tx.history = mTx.history ∧ tx.depositID = mTx.depositID := by
    intro tx mem
    rcases store.addClaimTx_cases mTx now with same | ⟨_, added⟩
    · rw [same] at mem
      exact .inl mem
    · rw [added] at mem
      rcases Rows.mem_push.mp mem with old | rfl
      · exact .inl old
      · exact .inr ⟨rfl, rfl, rfl⟩
  have sameDestination : ∀ depositID rollupID,
      (store.addClaimTx mTx now).hasDestination depositID rollupID =
        store.hasDestination depositID rollupID := by
    intro depositID rollupID
    simp [ClaimStore.hasDestination]
  constructor
  · exact keyed
  · simpa using steady.distinct
  · rw [ClaimStore.addClaimTx_monitoredTxsGroup]
    exact fun row stored =>
      (steady.follow row stored).addClaimTx mTx now single
  · simpa using steady.kept
  · simpa using steady.data
  · intro tx mem none
    rcases added tx mem with old | ⟨status, history, _⟩
    · exact steady.single tx old none
    · rw [status, history]
      exact ⟨created, unsent⟩
  · intro tx mem
    simp only [sameDestination]
    rcases added tx mem with old | ⟨_, _, depositID⟩
    · exact steady.destination tx old
    · rw [depositID]
      exact ⟨rollupID, destination⟩

omit [DecidableEq H] in
private theorem SteadyStore.deposits (steady : SteadyStore cfg store)
    (distinct : (deposit.map ClaimDeposit.id).Nodup)
    (stay : DepositsStay store deposit) :
    SteadyStore cfg { store with deposit := deposit } where
  keyed := ⟨steady.keyed.txs, steady.keyed.groups, steady.keyed.known⟩
  distinct := distinct
  follow row stored := (steady.follow row stored).deposits stay
  kept := steady.kept
  data := steady.data
  single := steady.single
  destination := by
    intro tx stored
    obtain ⟨rollupID, destination⟩ := steady.destination tx stored
    exact ⟨rollupID, stay.hasDestination stored destination⟩

theorem SteadyStore.move (steady : SteadyStore cfg store)
    (retry : 1 ≤ cfg.maxRetries) {move : ClaimMove H}
    (fits : move.Steady cfg store) : SteadyStore cfg (move.apply store) := by
  have keyed := (ClaimMove.step fits).keyed steady.keyed
  cases move with
  | pass tm inputs => exact steady.pass retry fits.1 fits.2
  | addClaimTx mTx now => exact steady.addClaimTx fits keyed
  | deposits deposit => exact steady.deposits fits.1 fits.2

/-- What becomes of a transaction: its destination and its group stay, and
its claim is not taken up again. -/
structure TxMove (store store' : ClaimStore H) (tx tx' : MonitoredTx H) :
    Prop where
  depositID : tx'.depositID = tx.depositID
  createdAt : tx'.createdAt = tx.createdAt
  groupID : ∀ groupID, tx.groupID = some groupID → tx'.groupID = some groupID
  destination : ∀ rollupID,
    store'.hasDestination tx'.depositID rollupID = true ↔
      store.hasDestination tx.depositID rollupID = true
  active : tx'.status ∈ [MonitoredTxStatus.created, .compressing, .claiming] →
    tx.status ∈ [MonitoredTxStatus.created, .compressing, .claiming]

omit [DecidableEq H] in
theorem TxMove.of_destination {tx : MonitoredTx H}
    (same : ∀ rollupID, store'.hasDestination tx.depositID rollupID = true ↔
      store.hasDestination tx.depositID rollupID = true) :
    TxMove store store' tx tx :=
  ⟨rfl, rfl, fun _ => id, same, id⟩

omit [DecidableEq H] in
theorem TxMove.trans {store'' : ClaimStore H} {tx tx' tx'' : MonitoredTx H}
    (first : TxMove store store' tx tx')
    (second : TxMove store' store'' tx' tx'') :
    TxMove store store'' tx tx'' where
  depositID := second.depositID.trans first.depositID
  createdAt := second.createdAt.trans first.createdAt
  groupID groupID grouped :=
    second.groupID groupID (first.groupID groupID grouped)
  destination rollupID :=
    (second.destination rollupID).trans (first.destination rollupID)
  active := first.active ∘ second.active

private theorem TxMove.pass {tx tx' : MonitoredTx H}
    (deposit : store'.deposit = store.deposit)
    (step : TxStep tm inputs store tx tx') : TxMove store store' tx tx' := by
  have destination : ∀ rollupID,
      store'.hasDestination tx.depositID rollupID = true ↔
        store.hasDestination tx.depositID rollupID = true := by
    intro rollupID
    rw [ClaimStore.hasDestination, deposit, ClaimStore.hasDestination]
  cases step with
  | idle free passed => exact .of_destination destination
  | grouped updatedAt active stored grouped =>
    exact ⟨rfl, rfl, fun _ => id, destination, fun _ => active.1⟩
  | chosen updatedAt chosen =>
    obtain ⟨active, single⟩ := mem_chosen chosen
    refine ⟨rfl, rfl, ?_, destination,
      fun _ => (mem_activeTxs.mp active).2.1⟩
    intro groupID grouped
    simp [single] at grouped

theorem SteadyStore.txs_move (steady : SteadyStore cfg store)
    {move : ClaimMove H} (fits : move.Steady cfg store) :
    ∃ kept new, (move.apply store).monitoredTxs = kept ++ new ∧
      List.Forall₂ (TxMove store (move.apply store)) store.monitoredTxs kept ∧
      ∀ tx, tx ∈ new → ∃ mTx, move = .addClaimTx mTx tx.createdAt := by
  cases move with
  | pass tm inputs =>
    refine ⟨_, [], (append_nil _).symm, ?_, by simp⟩
    rcases monitorTxs_cases steady.keyed with unchanged | effect
    · rw [ClaimMove.apply, unchanged]
      exact List.forall₂_same.mpr fun tx _ =>
        .of_destination fun _ => Iff.rfl
    · exact effect.txs.imp fun _ _ step => .pass effect.deposit step
  | addClaimTx mTx now =>
    have destination : ∀ depositID rollupID,
        (store.addClaimTx mTx now).hasDestination depositID rollupID =
          store.hasDestination depositID rollupID := by
      intro depositID rollupID
      rw [ClaimStore.hasDestination, ClaimStore.addClaimTx_deposit,
        ClaimStore.hasDestination]
    have same : List.Forall₂ (TxMove store (store.addClaimTx mTx now))
        store.monitoredTxs store.monitoredTxs :=
      List.forall₂_same.mpr fun tx _ =>
        .of_destination fun _ => by rw [destination]
    rw [ClaimMove.apply]
    rcases store.addClaimTx_cases mTx now with unchanged | ⟨_, added⟩
    · exact ⟨_, [], by rw [unchanged, append_nil], same, by simp⟩
    · refine ⟨_, _, by rw [added], same, ?_⟩
      intro tx mem
      rw [mem_singleton.mp mem]
      exact ⟨mTx, rfl⟩
  | deposits deposit =>
    refine ⟨_, [], (append_nil _).symm, ?_, by simp⟩
    apply List.forall₂_same.mpr
    intro tx stored
    apply TxMove.of_destination
    intro rollupID
    constructor
    · intro after
      obtain ⟨other, before⟩ := steady.destination tx stored
      have stays := fits.2.hasDestination stored before
      rw [← hasDestination_unique fits.1 stays after]
      exact before
    · exact fits.2.hasDestination stored

theorem SteadyStore.tx_move (steady : SteadyStore cfg store)
    {move : ClaimMove H} (fits : move.Steady cfg store) {tx : MonitoredTx H}
    (stored : tx ∈ store.monitoredTxs) :
    ∃ tx', tx' ∈ (move.apply store).monitoredTxs ∧
      TxMove store (move.apply store) tx tx' := by
  obtain ⟨kept, new, txs, moved, _⟩ := steady.txs_move fits
  obtain ⟨tx', stored', step⟩ := SideBySide.exists_right moved stored
  exact ⟨tx', by rw [txs]; exact mem_append_left _ stored', step⟩

theorem steadyStore_of_run (retry : 1 ≤ cfg.maxRetries)
    (distinct : (deposit.map ClaimDeposit.id).Nodup)
    (ran : ClaimStore.SteadyRun cfg (.empty deposit) store) :
    SteadyStore cfg store := by
  induction ran with
  | refl =>
    constructor
    · exact ClaimStore.keyed_empty deposit
    · exact distinct
    · intro row mem
      contradiction
    · intro row mem
      contradiction
    · intro row mem
      contradiction
    · intro tx mem
      contradiction
    · intro tx mem
      contradiction
  | tail _ step induction =>
    obtain ⟨move, fits, rfl⟩ := step
    exact induction.move retry fits

end MonitorCompressedTxs

end BridgeService
