import BridgeService.Claimtxman.GroupRuns

/-!
# Transactions of a group

The transactions of a group share its outcome: they are active as long as the
group is not finished, and they fail or are confirmed with it.  This holds as
long as the deposits of the transactions stay in the tables.
-/

namespace BridgeService

open List

variable {H : Type} [DecidableEq H]

namespace MonitorCompressedTxs

variable {tm : MonitorCompressedTxs H} {inputs : PassInputs H}
  {store store' : ClaimStore H} {cfg : ConfigGroupingClaims}
  {row row' : MonitoredTxGroupDBEntry H}

def InGroup (store : ClaimStore H) (row : MonitoredTxGroupDBEntry H)
    (tx : MonitoredTx H) : Prop :=
  tx ∈ store.monitoredTxs ∧ tx.groupID = some row.groupID

def Unfinished (row : MonitoredTxGroupDBEntry H) : Prop :=
  row.status = .created ∨ row.status = .claiming

structure TxsFollow (cfg : ConfigGroupingClaims) (store : ClaimStore H)
    (row : MonitoredTxGroupDBEntry H) : Prop where
  failed : row.status = .failed →
    ∀ tx, InGroup store row tx → tx.status = .failed
  confirmed : row.status = .confirmed →
    ∀ tx, InGroup store row tx → tx.status = .confirmed
  left : Unfinished row → row.numRetries < cfg.maxRetries
  inhabited : ∃ tx, InGroup store row tx
  active : Unfinished row → ∃ rollupID, ∀ tx, InGroup store row tx →
    tx.status ∈ [MonitoredTxStatus.created, .compressing, .claiming] ∧
    store.hasDestination tx.depositID rollupID = true

omit [DecidableEq H] in
theorem hasDestination_unique
    (distinct : (store.deposit.map ClaimDeposit.id).Nodup)
    {depositID first second : Nat}
    (one : store.hasDestination depositID first = true)
    (other : store.hasDestination depositID second = true) :
    first = second := by
  simp only [ClaimStore.hasDestination, any_eq_true, Bool.and_eq_true,
    beq_iff_eq] at one other
  obtain ⟨row, stored, id, destNet⟩ := one
  obtain ⟨row', stored', id', destNet'⟩ := other
  have same := inj_on_of_nodup_map distinct stored stored'
    (id.trans id'.symm)
  rw [← destNet, ← destNet', same]

omit [DecidableEq H] in
theorem TxsFollow.occupied (follow : TxsFollow cfg store row)
    (distinct : (store.deposit.map ClaimDeposit.id).Nodup)
    (occupied : tm.Occupied store row) :
    Unfinished row ∧ ∀ tx, InGroup store row tx → tm.Active store tx := by
  obtain ⟨tx, stored, ⟨active, here⟩, grouped⟩ := occupied
  have unfinished : Unfinished row := by
    cases status : row.status with
    | created => exact .inl status
    | claiming => exact .inr status
    | failed =>
      rw [follow.failed status tx ⟨stored, grouped⟩] at active
      contradiction
    | confirmed =>
      rw [follow.confirmed status tx ⟨stored, grouped⟩] at active
      contradiction
  obtain ⟨rollupID, all⟩ := follow.active unfinished
  have same : rollupID = tm.rollupID :=
    hasDestination_unique distinct (all tx ⟨stored, grouped⟩).2 here
  refine ⟨unfinished, ?_⟩
  intro other member
  rw [Active, ← same]
  exact all other member

theorem Effect.inGroup (effect : Effect tm inputs store store')
    (keyed : store.Keyed) {row : MonitoredTxGroupDBEntry H}
    (stored : row ∈ store.monitoredTxsGroup) {tx' : MonitoredTx H}
    (member : InGroup store' row tx') :
    ∃ tx, InGroup store row tx ∧ tx'.depositID = tx.depositID ∧
      (tm.Active store tx ∧ tx'.status = (tm.txStatusAfter inputs
            (tm.claimed inputs row)).getD tx.status ∨
        ¬tm.Active store tx ∧ tx'.status = tx.status) := by
  obtain ⟨stored', grouped'⟩ := member
  obtain ⟨tx, txIn, step⟩ := effect.mem_txs stored'
  cases step with
  | idle free passed =>
    refine ⟨tx', ⟨txIn, grouped'⟩, rfl, .inr ⟨?_, rfl⟩⟩
    intro active
    rw [free active] at grouped'
    contradiction
  | @grouped other updatedAt active otherIn grouped =>
    have same : other = row := by
      apply inj_on_of_nodup_map keyed.groups otherIn stored
      exact Option.some.inj (grouped.symm.trans grouped')
    subst same
    exact ⟨tx, ⟨txIn, grouped⟩, rfl, .inl ⟨active, rfl⟩⟩
  | chosen updatedAt chosen =>
    have bound := ClaimStore.le_latest stored
    have isNew := Option.some.inj grouped'
    omega

theorem Effect.exists_inGroup (effect : Effect tm inputs store store')
    (inhabited : ∃ tx, InGroup store row tx) :
    ∃ tx', InGroup store' row tx' := by
  obtain ⟨tx, stored, grouped⟩ := inhabited
  obtain ⟨tx', stored', step⟩ := SideBySide.exists_right effect.txs stored
  refine ⟨tx', stored', ?_⟩
  cases step with
  | idle free passed => exact grouped
  | grouped updatedAt active rowIn grouped' => exact grouped
  | chosen updatedAt chosen =>
    rw [(mem_chosen chosen).2] at grouped
    contradiction

theorem TxsFollow.idle (follow : TxsFollow cfg store row)
    (effect : Effect tm inputs store store') (keyed : store.Keyed)
    (stored : row ∈ store.monitoredTxsGroup)
    (empty : ¬tm.Occupied store row) : TxsFollow cfg store' row := by
  have same : ∀ tx', InGroup store' row tx' → ∃ tx, InGroup store row tx ∧
      tx'.depositID = tx.depositID ∧ tx'.status = tx.status := by
    intro tx' member
    obtain ⟨tx, inGroup, depositID, changed⟩ :=
      effect.inGroup keyed stored member
    rcases changed with ⟨active, _⟩ | ⟨_, status⟩
    · exact absurd ⟨tx, inGroup.1, active, inGroup.2⟩ empty
    · exact ⟨tx, inGroup, depositID, status⟩
  constructor
  · intro failed tx' member
    obtain ⟨tx, inGroup, _, status⟩ := same tx' member
    rw [status, follow.failed failed tx inGroup]
  · intro confirmed tx' member
    obtain ⟨tx, inGroup, _, status⟩ := same tx' member
    rw [status, follow.confirmed confirmed tx inGroup]
  · exact follow.left
  · exact effect.exists_inGroup follow.inhabited
  · intro unfinished
    obtain ⟨rollupID, txs⟩ := follow.active unfinished
    refine ⟨rollupID, ?_⟩
    intro tx' member
    obtain ⟨tx, inGroup, depositID, status⟩ := same tx' member
    rw [status, depositID, ClaimStore.hasDestination, effect.deposit]
    exact txs tx inGroup

omit [DecidableEq H] in
theorem claimed_status (tm : MonitorCompressedTxs H)
    (inputs : PassInputs H)
    (unfinished : Unfinished row) :
    Unfinished (tm.claimed inputs row) := by
  rw [claimed]
  rcases tm.sendClaim_cases inputs (ClaimStore.readGroup row) with
    ⟨txHash, sends, sent⟩ | ⟨_, log, idle⟩
  · rw [sent]
    exact .inr rfl
  · rw [idle]
    exact unfinished

inductive Advanced (tm : MonitorCompressedTxs H) (inputs : PassInputs H)
    (row row' : MonitoredTxGroupDBEntry H) : Option MonitoredTxStatus → Prop
  | failed (exhausted : tm.Exhausted (tm.claimed inputs row))
      (status : row'.status = .failed) : Advanced tm inputs row row'
        (some .failed)
  | confirmed (left : ¬tm.Exhausted (tm.claimed inputs row))
      (mined : confirms inputs (tm.claimed inputs row) = true)
      (status : row'.status = .confirmed) : Advanced tm inputs row row'
        (some .confirmed)
  | unfinished (left : ¬tm.Exhausted (tm.claimed inputs row))
      (unconfirmed : confirms inputs (tm.claimed inputs row) = false)
      (status : row'.status = (tm.claimed inputs row).status)
      (unfinished : Unfinished row') : Advanced tm inputs row row' none

omit [DecidableEq H] in
theorem Advances.cases (advances : Advances tm inputs row row')
    (unfinished : Unfinished row) :
    Advanced tm inputs row row'
      (tm.txStatusAfter inputs (tm.claimed inputs row)) := by
  have status := advances.status
  rw [statusAfter] at status
  rw [txStatusAfter]
  by_cases exhausted : tm.Exhausted (tm.claimed inputs row)
  · rw [if_pos exhausted] at status ⊢
    exact .failed exhausted status
  · rw [if_neg exhausted] at status ⊢
    cases mined : confirms inputs (tm.claimed inputs row) with
    | true =>
      rw [mined] at status
      exact .confirmed exhausted mined status
    | false =>
      rw [mined] at status
      have status : row'.status = (tm.claimed inputs row).status := status
      refine .unfinished exhausted mined status ?_
      rw [Unfinished, status]
      exact claimed_status tm inputs unfinished

theorem TxsFollow.advance (follow : TxsFollow cfg store row)
    (settings : tm.cfg = cfg)
    (distinct : (store.deposit.map ClaimDeposit.id).Nodup)
    (effect : Effect tm inputs store store') (keyed : store.Keyed)
    (stored : row ∈ store.monitoredTxsGroup)
    (occupied : tm.Occupied store row)
    (advances : Advances tm inputs row row') : TxsFollow cfg store' row' := by
  obtain ⟨unfinished, all⟩ := follow.occupied distinct occupied
  obtain ⟨rollupID, txs⟩ := follow.active unfinished
  have follows : ∀ tx', InGroup store' row' tx' → ∃ tx,
      InGroup store row tx ∧ tx'.depositID = tx.depositID ∧
        tx'.status = (tm.txStatusAfter inputs
          (tm.claimed inputs row)).getD tx.status := by
    intro tx' member
    rw [InGroup, advances.groupID] at member
    obtain ⟨tx, inGroup, depositID, changed⟩ :=
      effect.inGroup keyed stored member
    rcases changed with ⟨_, status⟩ | ⟨inactive, _⟩
    · exact ⟨tx, inGroup, depositID, status⟩
    · exact absurd (all tx inGroup) inactive
  have inhabited : ∃ tx', InGroup store' row' tx' := by
    have still := effect.exists_inGroup follow.inhabited
    simpa [InGroup, advances.groupID] using still
  generalize outcome : tm.txStatusAfter inputs (tm.claimed inputs row) =
    txStatus at follows
  have ended := advances.cases unfinished
  rw [outcome] at ended
  cases ended with
  | failed exhausted status =>
    constructor
    · intro _ tx' member
      obtain ⟨tx, _, _, same⟩ := follows tx' member
      exact same
    · intro confirmed
      simp [status] at confirmed
    · intro unfinished'
      simp [Unfinished, status] at unfinished'
    · exact inhabited
    · intro unfinished'
      simp [Unfinished, status] at unfinished'
  | confirmed left mined status =>
    constructor
    · intro failed
      simp [status] at failed
    · intro _ tx' member
      obtain ⟨tx, _, _, same⟩ := follows tx' member
      exact same
    · intro unfinished'
      simp [Unfinished, status] at unfinished'
    · exact inhabited
    · intro unfinished'
      simp [Unfinished, status] at unfinished'
  | unfinished left unconfirmed status still =>
    constructor
    · intro failed
      simp [Unfinished, failed] at still
    · intro confirmed
      simp [Unfinished, confirmed] at still
    · intro _
      have more : ¬tm.cfg.maxRetries ≤
          (tm.claimed inputs row).numRetries := left
      rw [advances.numRetries, ← settings]
      omega
    · exact inhabited
    · intro _
      refine ⟨rollupID, ?_⟩
      intro tx' member
      obtain ⟨tx, inGroup, depositID, same⟩ := follows tx' member
      have same : tx'.status = tx.status := same
      rw [same, depositID, ClaimStore.hasDestination, effect.deposit]
      exact txs tx inGroup

theorem TxsFollow.created (retry : 1 ≤ cfg.maxRetries)
    (effect : Effect tm inputs store store') (keyed : store.Keyed)
    (some : tm.chosen inputs store ≠ []) (compressedData : Option Bytes) :
    TxsFollow cfg store' (createdRow inputs
      (store.getLatestMonitoredTxGroupID + 1) (tm.chosen inputs store)
      compressedData) := by
  constructor
  · intro failed
    contradiction
  · intro confirmed
    contradiction
  · intro _
    change (0 : Int) < cfg.maxRetries
    omega
  · obtain ⟨tx, chosen⟩ := exists_mem_of_ne_nil _ some
    obtain ⟨active, single⟩ := mem_chosen chosen
    obtain ⟨tx', stored', step⟩ := SideBySide.exists_right effect.txs
      (mem_activeTxs.mp active).1
    refine ⟨tx', stored', ?_⟩
    cases step with
    | idle free passed => exact absurd chosen passed
    | grouped updatedAt active rowIn grouped =>
      simp [single] at grouped
    | chosen updatedAt chosen => rfl
  · intro _
    refine ⟨tm.rollupID, ?_⟩
    rintro tx' ⟨stored', grouped'⟩
    obtain ⟨tx, txIn, step⟩ := effect.mem_txs stored'
    have old : ∀ groupID, tx.groupID = .some groupID →
        groupID ≤ store.getLatestMonitoredTxGroupID := by
      intro groupID grouped
      obtain ⟨row, rowIn, rfl⟩ := keyed.known tx txIn groupID grouped
      exact ClaimStore.le_latest rowIn
    cases step with
    | idle free passed =>
      have bound := old _ grouped'
      change store.getLatestMonitoredTxGroupID + 1 ≤ _ at bound
      omega
    | grouped updatedAt active rowIn grouped =>
      have bound := old _ grouped'
      change store.getLatestMonitoredTxGroupID + 1 ≤ _ at bound
      omega
    | chosen updatedAt chosen =>
      rw [ClaimStore.hasDestination, effect.deposit]
      exact (mem_activeTxs.mp (mem_chosen chosen).1).2

theorem TxsFollow.pass (retry : 1 ≤ cfg.maxRetries)
    (settings : tm.cfg = cfg)
    (distinct : (store.deposit.map ClaimDeposit.id).Nodup)
    (effect : Effect tm inputs store store') (keyed : store.Keyed)
    (follow : ∀ row, row ∈ store.monitoredTxsGroup → TxsFollow cfg store row) :
    ∀ row', row' ∈ store'.monitoredTxsGroup → TxsFollow cfg store' row' := by
  intro row' stored'
  rcases effect.mem_groups stored' with
    ⟨row, stored, step⟩ | ⟨compressedData, some, _, rfl⟩
  · cases step with
    | idle empty => exact (follow row' stored).idle effect keyed stored empty
    | advance occupied advances =>
      exact (follow row stored).advance settings distinct effect keyed
        stored occupied advances
  · exact .created retry effect keyed some compressedData

omit [DecidableEq H] in
private theorem TxsFollow.of_inGroup (follow : TxsFollow cfg store row)
    (same : ∀ tx, InGroup store' row tx ↔ InGroup store row tx)
    (stay : ∀ tx, InGroup store row tx → ∀ rollupID,
      store.hasDestination tx.depositID rollupID = true →
        store'.hasDestination tx.depositID rollupID = true) :
    TxsFollow cfg store' row := by
  constructor
  · intro failed tx member
    exact follow.failed failed tx ((same tx).mp member)
  · intro confirmed tx member
    exact follow.confirmed confirmed tx ((same tx).mp member)
  · exact follow.left
  · obtain ⟨tx, member⟩ := follow.inhabited
    exact ⟨tx, (same tx).mpr member⟩
  · intro unfinished
    obtain ⟨rollupID, txs⟩ := follow.active unfinished
    refine ⟨rollupID, ?_⟩
    intro tx member
    obtain ⟨active, destination⟩ := txs tx ((same tx).mp member)
    exact ⟨active, stay tx ((same tx).mp member) rollupID destination⟩

omit [DecidableEq H] in
theorem TxsFollow.addClaimTx (follow : TxsFollow cfg store row)
    (mTx : MonitoredTx H) (now : Nat) (single : mTx.groupID = none) :
    TxsFollow cfg (store.addClaimTx mTx now) row := by
  rcases store.addClaimTx_cases mTx now with unchanged | ⟨_, added⟩
  · rw [unchanged]
    exact follow
  · rw [added]
    refine follow.of_inGroup ?_ fun _ _ _ destination => destination
    intro tx
    constructor
    · rintro ⟨mem, grouped⟩
      rcases Rows.mem_push.mp mem with old | rfl
      · exact ⟨old, grouped⟩
      · simp [single] at grouped
    · rintro ⟨old, grouped⟩
      exact ⟨mem_append_left _ old, grouped⟩

def DepositsStay (store : ClaimStore H) (deposit : List ClaimDeposit) : Prop :=
  ∀ tx, tx ∈ store.monitoredTxs → ∀ row, row ∈ store.deposit →
    row.id = tx.depositID → row ∈ deposit

omit [DecidableEq H] in
theorem DepositsStay.hasDestination {deposit : List ClaimDeposit}
    (stay : DepositsStay store deposit) {tx : MonitoredTx H}
    (stored : tx ∈ store.monitoredTxs) {rollupID : Nat}
    (destination : store.hasDestination tx.depositID rollupID = true) :
    { store with deposit := deposit }.hasDestination tx.depositID rollupID =
      true := by
  simp only [ClaimStore.hasDestination, any_eq_true, Bool.and_eq_true,
    beq_iff_eq] at destination ⊢
  obtain ⟨row, rowIn, id, destNet⟩ := destination
  exact ⟨row, stay tx stored row rowIn id, id, destNet⟩

omit [DecidableEq H] in
theorem TxsFollow.deposits (follow : TxsFollow cfg store row)
    {deposit : List ClaimDeposit} (stay : DepositsStay store deposit) :
    TxsFollow cfg { store with deposit := deposit } row :=
  follow.of_inGroup (fun _ => Iff.rfl) fun _ member _ destination =>
    stay.hasDestination member.1 destination

end MonitorCompressedTxs

end BridgeService
