import BridgeService.Claimtxman.PassEffect

/-!
# Rows after a pass

A pass that is committed changes the tables row by row.  A group with an active
transaction advances by one round of sending, receipts and giving up, and its
active transactions follow it.  The transactions that are chosen enter one new
group.  All other rows stay as they are.
-/

namespace BridgeService

open Rows List

variable {H : Type}

theorem ClaimStore.le_latest {store : ClaimStore H}
    {row : MonitoredTxGroupDBEntry H}
    (stored : row ∈ store.monitoredTxsGroup) :
    row.groupID ≤ store.getLatestMonitoredTxGroupID := by
  rw [ClaimStore.getLatestMonitoredTxGroupID]
  cases found : lastBy MonitoredTxGroupDBEntry.groupID
      store.monitoredTxsGroup with
  | none =>
    rw [lastBy_eq_none found] at stored
    contradiction
  | some last => exact (lastBy_eq_some found).2 row stored

namespace GroupsTrigger

variable {cfg : ConfigGroupingClaims} {now : Nat}
  {candidates : List (MonitoredTx H)}

private theorem chooseGroupTxFrom_prefix (maxSize : Int)
    (group rest : List (MonitoredTx H)) :
    ∃ taken, chooseGroupTxFrom maxSize group rest = group ++ taken ∧
      taken.Sublist rest := by
  induction rest generalizing group with
  | nil => exact ⟨[], by simp [chooseGroupTxFrom], .slnil⟩
  | cons tx rest induction =>
    rw [chooseGroupTxFrom]
    split
    · refine ⟨[tx], rfl, ?_⟩
      simp
    · obtain ⟨taken, chosen, sublist⟩ := induction (group ++ [tx])
      exact ⟨tx :: taken, by simp [chosen], sublist.cons_cons tx⟩

theorem chooseTxs_sublist : (chooseTxs cfg now candidates).Sublist
    candidates := by
  obtain ⟨taken, chosen, sublist⟩ :=
    chooseGroupTxFrom_prefix cfg.maxNumberOfClaimsPerGroup [] candidates
  have grouped : (chooseGroupTx cfg candidates).Sublist candidates := by
    rw [chooseGroupTx, chosen]
    simpa using sublist
  rw [chooseTxs]
  split
  · exact grouped
  · split
    · exact grouped
    · exact nil_sublist _

@[simp] theorem chooseTxs_nil :
    chooseTxs cfg now ([] : List (MonitoredTx H)) = [] :=
  eq_nil_of_sublist_nil chooseTxs_sublist

end GroupsTrigger

namespace MonitorCompressedTxs

variable [DecidableEq H] {tm : MonitorCompressedTxs H}
  {inputs : PassInputs H} {store store' : ClaimStore H}
  {pending final : PendingTxs H} {processed new : List (MonitoredTxGroup H)}

def Occupied (tm : MonitorCompressedTxs H) (store : ClaimStore H)
    (row : MonitoredTxGroupDBEntry H) : Prop :=
  ∃ tx, tx ∈ store.monitoredTxs ∧ tm.Active store tx ∧
    tx.groupID = some row.groupID

def claimed (tm : MonitorCompressedTxs H) (inputs : PassInputs H)
    (row : MonitoredTxGroupDBEntry H) : MonitoredTxGroupDBEntry H :=
  (tm.sendClaim inputs false (ClaimStore.readGroup row)).1

structure Advances (tm : MonitorCompressedTxs H) (inputs : PassInputs H)
    (row row' : MonitoredTxGroupDBEntry H) : Prop where
  groupID : row'.groupID = row.groupID
  compressedTxData : row'.compressedTxData = row.compressedTxData
  createdAt : row'.createdAt = row.createdAt
  numRetries : row'.numRetries = (tm.claimed inputs row).numRetries
  history : row'.claimTxHistory.isSome =
    (tm.claimed inputs row).claimTxHistory.isSome
  txHashes : row'.txHashes = tm.historyAfter inputs (tm.claimed inputs row)
  status : row'.status = tm.statusAfter inputs (tm.claimed inputs row)

inductive GroupStep (tm : MonitorCompressedTxs H) (inputs : PassInputs H)
    (store : ClaimStore H) (row : MonitoredTxGroupDBEntry H) :
    MonitoredTxGroupDBEntry H → Prop
  | idle (empty : ¬tm.Occupied store row) : GroupStep tm inputs store row row
  | advance {row' : MonitoredTxGroupDBEntry H}
      (occupied : tm.Occupied store row)
      (advances : Advances tm inputs row row') :
      GroupStep tm inputs store row row'

def chosen (tm : MonitorCompressedTxs H) (inputs : PassInputs H)
    (store : ClaimStore H) : List (MonitoredTx H) :=
  GroupsTrigger.chooseTxs tm.cfg (inputs.clock .trigger)
    (candidates (tm.activeTxs inputs store))

def createdRow (inputs : PassInputs H) (groupID : Nat)
    (txs : List (MonitoredTx H)) (compressedData : Option Bytes) :
    MonitoredTxGroupDBEntry H :=
  { groupID := groupID
    status := .created
    depositIDs := txs.map MonitoredTx.depositID
    compressedTxData := compressedData
    claimTxHistory := none
    createdAt := inputs.clock .newGroup
    updatedAt := inputs.clock .storeUpdate
    numRetries := 0
    lastLog := none }

inductive NewGroups (tm : MonitorCompressedTxs H) (inputs : PassInputs H)
    (store : ClaimStore H) : List (MonitoredTxGroupDBEntry H) → Prop
  | nothing (none : tm.chosen inputs store = []) :
      NewGroups tm inputs store []
  | group {compressedData : Option Bytes}
      (some : tm.chosen inputs store ≠ [])
      (compressed : inputs.compressClaimCall = .ok compressedData) :
      NewGroups tm inputs store
        [createdRow inputs (store.getLatestMonitoredTxGroupID + 1)
          (tm.chosen inputs store) compressedData]

inductive TxStep (tm : MonitorCompressedTxs H) (inputs : PassInputs H)
    (store : ClaimStore H) (tx : MonitoredTx H) : MonitoredTx H → Prop
  | idle (free : tm.Active store tx → tx.groupID = none)
      (passed : tx ∉ tm.chosen inputs store) : TxStep tm inputs store tx tx
  | grouped {row : MonitoredTxGroupDBEntry H} (updatedAt : Nat)
      (active : tm.Active store tx) (stored : row ∈ store.monitoredTxsGroup)
      (grouped : tx.groupID = some row.groupID) :
      TxStep tm inputs store tx
        { tx with
          status := (tm.txStatusAfter inputs (tm.claimed inputs row)).getD
            tx.status
          updatedAt := updatedAt }
  | chosen (updatedAt : Nat) (chosen : tx ∈ tm.chosen inputs store) :
      TxStep tm inputs store tx
        { tx with
          groupID := some (store.getLatestMonitoredTxGroupID + 1)
          updatedAt := updatedAt }

structure Effect (tm : MonitorCompressedTxs H) (inputs : PassInputs H)
    (store store' : ClaimStore H) : Prop where
  deposit : store'.deposit = store.deposit
  groups : ∃ kept new, store'.monitoredTxsGroup = kept ++ new ∧
    List.Forall₂ (GroupStep tm inputs store) store.monitoredTxsGroup kept ∧
    NewGroups tm inputs store new
  txs : List.Forall₂ (TxStep tm inputs store) store.monitoredTxs
    store'.monitoredTxs

theorem NewGroups.groupID {new : List (MonitoredTxGroupDBEntry H)}
    (added : NewGroups tm inputs store new) {row : MonitoredTxGroupDBEntry H}
    (mem : row ∈ new) :
    row.groupID = store.getLatestMonitoredTxGroupID + 1 := by
  cases added with
  | nothing none => contradiction
  | group some compressed =>
    rw [mem_singleton.mp mem]
    rfl

theorem mem_candidates {txs : List (MonitoredTx H)} {tx : MonitoredTx H}
    (candidate : tx ∈ candidates txs) :
    tx ∈ txs ∧ ∃ ger, tx.isCandidateToBeGrouped ger = true := by
  cases txs with
  | nil => contradiction
  | cons oldest rest =>
    obtain ⟨mem, isCandidate⟩ := mem_filter.mp candidate
    exact ⟨mem, _, isCandidate⟩

theorem mem_chosen {tx : MonitoredTx H}
    (chosen : tx ∈ tm.chosen inputs store) :
    tx ∈ tm.activeTxs inputs store ∧ tx.groupID = none := by
  obtain ⟨active, ger, candidate⟩ :=
    mem_candidates (GroupsTrigger.chooseTxs_sublist.subset chosen)
  exact ⟨active, PendingTxs.candidate_groupID candidate⟩

namespace Loaded

variable (loaded : Loaded tm inputs store pending)

include loaded in
theorem chosenTxs : tm.chosenTxs inputs pending = tm.chosen inputs store := by
  rw [MonitorCompressedTxs.chosenTxs, loaded.chosen]
  rfl

variable {group : MonitoredTxGroup H}

include loaded in
theorem le_last (mem : group ∈ pending.groupTx) :
    group.dbEntry.groupID ≤ pending.lastGroupTxID := by
  obtain ⟨row, stored, same⟩ := loaded.row group mem
  rw [loaded.last, same]
  change row.groupID ≤ _
  exact ClaimStore.le_latest stored

include loaded in
theorem group_eq (mem : group ∈ pending.groupTx) :
    pending.group group.dbEntry.groupID = some group :=
  find?_key loaded.distinct mem

include loaded in
theorem group_new : pending.group (pending.lastGroupTxID + 1) = none := by
  apply find?_eq_none.mpr
  intro group mem
  have bound := loaded.le_last mem
  have different : group.dbEntry.groupID ≠ pending.lastGroupTxID + 1 := by
    omega
  simpa using different

include loaded in
theorem unique {other : MonitoredTxGroup H}
    (mem : group ∈ pending.groupTx)
    (otherIn : other ∈ pending.groupTx)
    (same : group.dbEntry.groupID = other.dbEntry.groupID) : group = other :=
  inj_on_of_nodup_map loaded.distinct mem otherIn same

include loaded in
theorem mem_txs {tx : MonitoredTx H} (mem : group ∈ pending.groupTx) :
    tx ∈ group.txs ↔ tx ∈ tm.activeTxs inputs store ∧
      tx.groupID = some group.dbEntry.groupID := by
  rw [loaded.txs group mem, mem_filter, beq_iff_eq]

include loaded in
theorem exists_group (keyed : store.Keyed)
    {row : MonitoredTxGroupDBEntry H}
    (stored : row ∈ store.monitoredTxsGroup)
    (occupied : tm.Occupied store row) :
    ∃ group, group ∈ pending.groupTx ∧
      group.dbEntry = ClaimStore.readGroup row := by
  obtain ⟨tx, txIn, active, grouped⟩ := occupied
  obtain ⟨group, mem, groupID⟩ := loaded.found tx
    (mem_activeTxs.mpr ⟨txIn, active⟩) row.groupID grouped
  obtain ⟨other, otherIn, same⟩ := loaded.row group mem
  have equal : other = row := by
    apply inj_on_of_nodup_map keyed.groups otherIn stored
    rw [← groupID, same]
    rfl
  exact ⟨group, mem, equal ▸ same⟩

include loaded in
theorem occupied_row {row : MonitoredTxGroupDBEntry H}
    (mem : group ∈ pending.groupTx)
    (same : group.dbEntry.groupID = row.groupID) : tm.Occupied store row := by
  obtain ⟨tx, txIn⟩ :=
    exists_mem_of_ne_nil _ (loaded.occupied group mem)
  obtain ⟨active, grouped⟩ := (loaded.mem_txs mem).mp txIn
  obtain ⟨stored, active⟩ := mem_activeTxs.mp active
  exact ⟨tx, stored, active, by rw [grouped, same]⟩

end Loaded

section Updates

variable (keyed : store.Keyed) (loaded : Loaded tm inputs store pending)
  (processes : Processes tm inputs pending final processed new)

variable {group' group : MonitoredTxGroup H} {tx change : MonitoredTx H}

omit [DecidableEq H] in
include processes in
theorem mem_final :
    group' ∈ final.groupTx ↔ (∃ group, group ∈ pending.groupTx ∧
        tm.processGroup inputs group = .ok group') ∨ group' ∈ new := by
  rw [processes.groupTx, mem_append]
  constructor
  · rintro (old | added)
    · exact .inl (SideBySide.exists_left processes.processed old)
    · exact .inr added
  · rintro (⟨group, groupIn, ran⟩ | added)
    · obtain ⟨result, resultIn, ran'⟩ :=
        SideBySide.exists_right processes.processed groupIn
      rw [ran] at ran'
      injection ran' with equal
      exact .inl (equal ▸ resultIn)
    · exact .inr added

include loaded in
theorem group_processed (mem : group ∈ pending.groupTx)
    (ran : tm.processGroup inputs group = .ok group') :
    pending.group group'.dbEntry.groupID = some group := by
  rw [processGroup_groupID ran]
  exact loaded.group_eq mem

include loaded in
theorem group_added (creates : Creates tm inputs pending new)
    (added : group' ∈ new) : pending.group group'.dbEntry.groupID = none := by
  cases creates with
  | nothing none => contradiction
  | group some compressed =>
    rw [mem_singleton.mp added]
    exact loaded.group_new

include loaded processes in
theorem mem_updateGroups {now : Nat}
    {change : MonitoredTxGroupDBEntry H} :
    change ∈ final.groupTx.filterMap (changedRow pending now) ↔
      ∃ group group', group ∈ pending.groupTx ∧
        tm.processGroup inputs group = .ok group' ∧
        group.dbEntry ≠ group'.dbEntry ∧
        change = { group'.dbEntry with updatedAt := now } := by
  rw [mem_filterMap]
  constructor
  · rintro ⟨group', mem, made⟩
    rcases (mem_final processes).mp mem with
      ⟨group, groupIn, ran⟩ | added
    · rw [changedRow_old (group_processed loaded groupIn ran)] at made
      by_cases same : group.dbEntry = group'.dbEntry
      · simp [same] at made
      · simp only [same, if_false, Option.some.injEq] at made
        exact ⟨group, group', groupIn, ran, same, made.symm⟩
    · rw [changedRow_new (group_added loaded processes.creates added)] at made
      contradiction
  · rintro ⟨group, group', groupIn, ran, different, rfl⟩
    refine ⟨group', (mem_final processes).mpr
      (.inl ⟨group, groupIn, ran⟩), ?_⟩
    rw [changedRow_old (group_processed loaded groupIn ran)]
    simp [different]

include loaded processes in
private theorem updateGroups_agree (now : Nat) :
    Agree MonitoredTxGroupDBEntry.groupID
      (final.groupTx.filterMap (changedRow pending now)) := by
  intro change changeIn other otherIn same
  obtain ⟨group, group', groupIn, ran, _, rfl⟩ :=
    (mem_updateGroups loaded processes).mp changeIn
  obtain ⟨group₂, group₂', groupIn₂, ran₂, _, rfl⟩ :=
    (mem_updateGroups loaded processes).mp otherIn
  change group₂'.dbEntry.groupID = group'.dbEntry.groupID at same
  rw [processGroup_groupID ran, processGroup_groupID ran₂] at same
  have equal := loaded.unique groupIn₂ groupIn same
  subst equal
  rw [ran] at ran₂
  injection ran₂ with equal
  rw [equal]

def follow (tm : MonitorCompressedTxs H) (inputs : PassInputs H)
    (entry : MonitoredTxGroupDBEntry H) (tx : MonitoredTx H) :
    MonitoredTx H :=
  { tx with
    status := (tm.txStatusAfter inputs
      (tm.sendClaim inputs false entry).1).getD tx.status }

inductive TxChange (tm : MonitorCompressedTxs H) (inputs : PassInputs H)
    (store : ClaimStore H) (pending : PendingTxs H) (tx : MonitoredTx H) :
    MonitoredTx H → Prop
  | grouped {group : MonitoredTxGroup H}
      (mem : group ∈ pending.groupTx) (txIn : tx ∈ group.txs)
      (different : follow tm inputs group.dbEntry tx ≠ tx) :
      TxChange tm inputs store pending tx (follow tm inputs group.dbEntry tx)
  | chosen (chosen : tx ∈ tm.chosen inputs store) :
      TxChange tm inputs store pending tx
        { tx with groupID := some (store.getLatestMonitoredTxGroupID + 1) }

include loaded in
private theorem TxChange.active
    (made : TxChange tm inputs store pending tx change) :
    tx ∈ tm.activeTxs inputs store ∧ change.depositID = tx.depositID := by
  cases made with
  | grouped mem txIn different =>
    exact ⟨((loaded.mem_txs mem).mp txIn).1, rfl⟩
  | chosen chosen => exact ⟨(mem_chosen chosen).1, rfl⟩

include loaded in
private theorem TxChange.unique {change' : MonitoredTx H}
    (made : TxChange tm inputs store pending tx change)
    (made' : TxChange tm inputs store pending tx change') :
    change' = change := by
  cases made with
  | grouped mem txIn different =>
    have grouped := ((loaded.mem_txs mem).mp txIn).2
    cases made' with
    | grouped mem' txIn' different' =>
      have grouped' := ((loaded.mem_txs mem').mp txIn').2
      rw [grouped] at grouped'
      rw [loaded.unique mem' mem (Option.some.inj grouped').symm]
    | chosen chosen =>
      rw [(mem_chosen chosen).2] at grouped
      contradiction
  | chosen chosen =>
    cases made' with
    | grouped mem' txIn' different' =>
      have grouped' := ((loaded.mem_txs mem').mp txIn').2
      rw [(mem_chosen chosen).2] at grouped'
      contradiction
    | chosen chosen' => rfl

include keyed loaded in
theorem getTxByDepositID_eq (mem : group ∈ pending.groupTx)
    (txIn : tx ∈ group.txs) :
    group.getTxByDepositID tx.depositID = some tx := by
  have distinct : (group.txs.map MonitoredTx.depositID).Nodup := by
    rw [loaded.txs group mem]
    exact (ClaimStore.Keyed.activeTxs keyed).sublist
      (filter_sublist.map _)
  exact find?_key distinct txIn

include loaded in
private theorem mem_added (creates : Creates tm inputs pending new)
    (change : MonitoredTx H) :
    (∃ group', group' ∈ new ∧ change ∈ group'.txs) ↔
      ∃ tx, tx ∈ tm.chosen inputs store ∧ change =
          { tx with
            groupID := some (store.getLatestMonitoredTxGroupID + 1) } := by
  rw [← loaded.chosenTxs, ← loaded.last]
  cases creates with
  | nothing none => simp [none]
  | group some compressed =>
    simp only [mem_singleton, exists_eq_left]
    rw [newGroup, newMonitoredTxGroup, MonitoredTxGroup.assignTxsGroupID,
      mem_map]
    constructor
    · rintro ⟨tx, txIn, made⟩
      exact ⟨tx, txIn, made.symm⟩
    · rintro ⟨tx, txIn, made⟩
      exact ⟨tx, txIn, made.symm⟩

include keyed loaded processes in
private theorem mem_updateTxs :
    change ∈ final.groupTx.flatMap (changedIn pending) ↔
      ∃ tx, TxChange tm inputs store pending tx change := by
  have added := mem_added loaded processes.creates change
  rw [mem_flatMap]
  constructor
  · rintro ⟨group', mem, changed⟩
    rcases (mem_final processes).mp mem with
      ⟨group, groupIn, ran⟩ | isNew
    · rw [changedIn_old (group_processed loaded groupIn ran),
        mem_filter, (processGroup_ok ran).txs] at changed
      obtain ⟨followed, different⟩ := changed
      obtain ⟨tx, txIn, rfl⟩ := mem_map.mp followed
      refine ⟨tx, .grouped groupIn txIn ?_⟩
      intro same
      change (group.getTxByDepositID tx.depositID != some (follow tm inputs
        group.dbEntry tx)) = true at different
      rw [getTxByDepositID_eq keyed loaded groupIn txIn, same] at different
      simp at different
    · rw [changedIn_new (group_added loaded processes.creates isNew)]
        at changed
      obtain ⟨tx, chosen, rfl⟩ := added.mp ⟨group', isNew, changed⟩
      exact ⟨tx, .chosen chosen⟩
  · rintro ⟨tx, made⟩
    cases made with
    | @grouped group groupIn txIn different =>
      obtain ⟨group', _, ran⟩ :=
        SideBySide.exists_right processes.processed groupIn
      refine ⟨group', (mem_final processes).mpr
        (.inl ⟨group, groupIn, ran⟩), ?_⟩
      rw [changedIn_old (group_processed loaded groupIn ran),
        mem_filter, (processGroup_ok ran).txs]
      refine ⟨mem_map_of_mem txIn, ?_⟩
      change (group.getTxByDepositID tx.depositID != _) = true
      rw [getTxByDepositID_eq keyed loaded groupIn txIn]
      simpa using Ne.symm different
    | chosen chosen =>
      obtain ⟨group', isNew, changed⟩ := added.mpr ⟨tx, chosen, rfl⟩
      refine ⟨group', (mem_final processes).mpr (.inr isNew), ?_⟩
      rw [changedIn_new (group_added loaded processes.creates isNew)]
      exact changed

include keyed loaded processes in
private theorem updateTxs_agree : Agree MonitoredTx.depositID
    (final.groupTx.flatMap (changedIn pending)) := by
  intro change changeIn other otherIn same
  obtain ⟨tx, made⟩ := (mem_updateTxs keyed loaded processes).mp changeIn
  obtain ⟨tx', made'⟩ := (mem_updateTxs keyed loaded processes).mp otherIn
  have source := made.active loaded
  have source' := made'.active loaded
  have equal : tx' = tx := by
    apply inj_on_of_nodup_map (ClaimStore.Keyed.activeTxs keyed)
      source'.1 source.1
    rw [← source.2, ← source'.2, same]
  subst equal
  exact made.unique loaded made'

include keyed loaded processes in
private theorem depositID_ne (stored : tx ∈ store.monitoredTxs)
    (none : ∀ change, ¬TxChange tm inputs store pending tx change) :
    ∀ change, change ∈ final.groupTx.flatMap (changedIn pending) →
      change.depositID ≠ tx.depositID := by
  intro change changeIn same
  obtain ⟨source, made⟩ := (mem_updateTxs keyed loaded processes).mp changeIn
  obtain ⟨active, depositID⟩ := made.active loaded
  have equal : source = tx := by
    apply inj_on_of_nodup_map keyed.txs (mem_activeTxs.mp active).1 stored
    rw [← depositID, same]
  subst equal
  exact none change made

include keyed loaded processes in
private theorem updated_tx (now : Nat)
    (made : TxChange tm inputs store pending tx change) :
    updated MonitoredTx.depositID MonitoredTx.depositID (writeTxAt now)
      (final.groupTx.flatMap (changedIn pending)) tx =
      writeTxAt now tx change :=
  updated_of_mem (updateTxs_agree keyed loaded processes)
    ((mem_updateTxs keyed loaded processes).mpr ⟨tx, made⟩)
    (made.active loaded).2

include keyed loaded processes in
private theorem tx_step (now : Nat) (stored : tx ∈ store.monitoredTxs) :
    TxStep tm inputs store tx
      (updated MonitoredTx.depositID MonitoredTx.depositID (writeTxAt now)
        (final.groupTx.flatMap (changedIn pending)) tx) := by
  by_cases isChosen : tx ∈ tm.chosen inputs store
  · rw [updated_tx keyed loaded processes now (.chosen isChosen)]
    exact .chosen now isChosen
  · by_cases grouped : tm.Active store tx ∧ tx.groupID.isSome = true
    · obtain ⟨active, hasGroup⟩ := grouped
      obtain ⟨groupID, grouped⟩ := Option.isSome_iff_exists.mp hasGroup
      have listed : tx ∈ tm.activeTxs inputs store :=
        mem_activeTxs.mpr ⟨stored, active⟩
      obtain ⟨group, groupIn, sameID⟩ := loaded.found tx listed groupID grouped
      obtain ⟨row, rowIn, read⟩ := loaded.row group groupIn
      have txIn : tx ∈ group.txs :=
        (loaded.mem_txs groupIn).mpr ⟨listed, by rw [grouped, sameID]⟩
      have rowID : tx.groupID = some row.groupID := by
        rw [grouped, ← sameID, read]
        rfl
      have made : follow tm inputs group.dbEntry tx =
          { tx with
            status := (tm.txStatusAfter inputs
              (tm.claimed inputs row)).getD tx.status } := by
        rw [follow, read]
        rfl
      by_cases same : follow tm inputs group.dbEntry tx = tx
      · rw [updated_of_forall_ne
          (depositID_ne keyed loaded processes stored ?_)]
        · have step : TxStep tm inputs store tx _ :=
            .grouped tx.updatedAt active rowIn rowID
          rw [same] at made
          rwa [← made] at step
        · intro change changes
          cases changes with
          | grouped groupIn' txIn' different =>
            have grouped' := ((loaded.mem_txs groupIn').mp txIn').2
            rw [grouped, ← sameID] at grouped'
            rw [loaded.unique groupIn' groupIn
              (Option.some.inj grouped').symm] at different
            exact different same
          | chosen chosen' => exact isChosen chosen'
      · rw [updated_tx keyed loaded processes now
          (.grouped groupIn txIn same), made]
        exact .grouped now active rowIn rowID
    · rw [updated_of_forall_ne (depositID_ne keyed loaded processes stored ?_)]
      · refine .idle ?_ isChosen
        intro active
        by_contra some
        exact grouped ⟨active, Option.isSome_iff_ne_none.mpr some⟩
      · intro change changes
        cases changes with
        | grouped groupIn txIn different =>
          obtain ⟨listed, hasGroup⟩ := (loaded.mem_txs groupIn).mp txIn
          exact grouped ⟨(mem_activeTxs.mp listed).2, by simp [hasGroup]⟩
        | chosen chosen' => exact isChosen chosen'

private structure Written (row entry row' : MonitoredTxGroupDBEntry H) :
    Prop where
  groupID : row'.groupID = row.groupID
  createdAt : row'.createdAt = row.createdAt
  numRetries : row'.numRetries = entry.numRetries
  compressedTxData : row'.compressedTxData = entry.compressedTxData
  claimTxHistory : row'.claimTxHistory = entry.claimTxHistory
  status : row'.status = entry.status

omit [DecidableEq H] in
theorem sendClaim_compressedTxData (tm : MonitorCompressedTxs H)
    (inputs : PassInputs H) (entry : MonitoredTxGroupDBEntry H) :
    (tm.sendClaim inputs false entry).1.compressedTxData =
      entry.compressedTxData := by
  rcases tm.sendClaim_cases inputs entry with ⟨txHash, _, sent⟩ | ⟨_, log, idle⟩
  · rw [sent]
    rfl
  · rw [idle]

omit [DecidableEq H] in
private theorem Written.advances {row row' : MonitoredTxGroupDBEntry H}
    (written : Written row group'.dbEntry row')
    (ran : tm.processGroup inputs group = .ok group')
    (read : group.dbEntry = ClaimStore.readGroup row) :
    Advances tm inputs row row' := by
  have done := processGroup_ok ran
  rw [read] at done
  constructor
  · exact written.groupID
  · rw [written.compressedTxData, done.same.compressedTxData]
    exact sendClaim_compressedTxData tm inputs (ClaimStore.readGroup row)
  · exact written.createdAt
  · rw [written.numRetries, done.same.numRetries]
    rfl
  · rw [written.claimTxHistory, done.same.history]
    rfl
  · have entries := done.txHashes
    rw [MonitoredTxGroupDBEntry.txHashes, ← written.claimTxHistory] at entries
    exact entries
  · rw [written.status, done.status]
    rfl

include keyed loaded processes in
private theorem group_step (now : Nat) {row : MonitoredTxGroupDBEntry H}
    (stored : row ∈ store.monitoredTxsGroup) :
    GroupStep tm inputs store row
      (updated MonitoredTxGroupDBEntry.groupID
        MonitoredTxGroupDBEntry.groupID (writeGroupAt now)
        (final.groupTx.filterMap (changedRow pending now)) row) := by
  by_cases occupied : tm.Occupied store row
  · refine .advance occupied ?_
    obtain ⟨group, groupIn, read⟩ := loaded.exists_group keyed stored occupied
    obtain ⟨group', _, ran⟩ :=
      SideBySide.exists_right processes.processed groupIn
    have rowID : group.dbEntry.groupID = row.groupID := by
      rw [read]
      rfl
    by_cases same : group.dbEntry = group'.dbEntry
    · rw [updated_of_forall_ne]
      · refine Written.advances ?_ ran read
        rw [← same, read]
        exact ⟨rfl, rfl, rfl, rfl, rfl, rfl⟩
      · intro change changeIn sameID
        obtain ⟨other, other', otherIn, ran', different, rfl⟩ :=
          (mem_updateGroups loaded processes).mp changeIn
        change other'.dbEntry.groupID = row.groupID at sameID
        rw [processGroup_groupID ran', ← rowID] at sameID
        rw [loaded.unique otherIn groupIn sameID, ran] at ran'
        injection ran' with equal
        rw [loaded.unique otherIn groupIn sameID, ← equal] at different
        exact different same
    · rw [updated_of_mem (updateGroups_agree loaded processes now)
        ((mem_updateGroups loaded processes).mpr
          ⟨group, group', groupIn, ran, same, rfl⟩)]
      · exact Written.advances ⟨rfl, rfl, rfl, rfl, rfl, rfl⟩ ran read
      · change group'.dbEntry.groupID = row.groupID
        rw [processGroup_groupID ran, rowID]
  · rw [updated_of_forall_ne]
    · exact .idle occupied
    · intro change changeIn sameID
      obtain ⟨group, group', groupIn, ran, _, rfl⟩ :=
        (mem_updateGroups loaded processes).mp changeIn
      change group'.dbEntry.groupID = row.groupID at sameID
      rw [processGroup_groupID ran] at sameID
      exact occupied (loaded.occupied_row groupIn sameID)

include loaded in
private theorem addedRow_newGroup (compressedData : Option Bytes) :
    (addedRow pending (inputs.clock .storeUpdate)
      (newGroup inputs (pending.lastGroupTxID + 1)
        (tm.chosenTxs inputs pending) compressedData)).map
          ClaimStore.insertGroup =
      some (createdRow inputs (store.getLatestMonitoredTxGroupID + 1)
        (tm.chosen inputs store) compressedData) := by
  have missing : pending.group (newGroup inputs (pending.lastGroupTxID + 1)
      (tm.chosenTxs inputs pending) compressedData).dbEntry.groupID = none :=
    loaded.group_new
  rw [addedRow_new missing, loaded.chosenTxs, loaded.last,
    MonitoredTxGroup.getTxsDepositID, newGroup, newMonitoredTxGroup,
    MonitoredTxGroup.assignTxsGroupID, map_map]
  rfl

include loaded processes in
theorem new_groups : NewGroups tm inputs store
    ((final.groupTx.filterMap (addedRow pending
      (inputs.clock .storeUpdate))).map ClaimStore.insertGroup) := by
  have old : processed.filterMap (addedRow pending
      (inputs.clock .storeUpdate)) = [] := by
    apply filterMap_eq_nil_iff.mpr
    intro group' mem
    obtain ⟨group, groupIn, ran⟩ :=
      SideBySide.exists_left processes.processed mem
    exact addedRow_old (group_processed loaded groupIn ran)
  rw [processes.groupTx, filterMap_append, old, nil_append]
  cases processes.creates with
  | nothing none =>
    rw [loaded.chosenTxs] at none
    exact .nothing none
  | group some compressed =>
    rw [map_filterMap]
    simp only [filterMap_cons, addedRow_newGroup loaded,
      filterMap_nil]
    rw [loaded.chosenTxs] at some
    exact .group some compressed

include keyed loaded processes in
private theorem execute_effect {changes : StoreChanges H}
    (generated : generateStoreUpdate pending final
      (inputs.clock .storeUpdate) = .ok changes) {fault : Bool}
    (ran : changes.execute fault (inputs.clock .storeUpdate) store =
      .ok store') :
    Effect tm inputs store store' := by
  have parts := generateStoreUpdate_ok generated
  subst parts
  have rows := execute_ok
    (updateGroups_agree loaded processes (inputs.clock .storeUpdate))
    (updateTxs_agree keyed loaded processes) ran
  subst rows
  constructor
  · rfl
  · refine ⟨_, _, map_append, ?_, ?_⟩
    · rw [List.forall₂_map_right_iff, List.forall₂_same]
      exact fun row stored => group_step keyed loaded processes _ stored
    · have added := new_groups loaded processes
      rw [map_eq_self]
      · exact added
      · intro row mem
        apply updated_of_forall_ne
        intro change changeIn sameID
        obtain ⟨group, group', groupIn, ran, _, rfl⟩ :=
          (mem_updateGroups loaded processes).mp changeIn
        change group'.dbEntry.groupID = row.groupID at sameID
        rw [processGroup_groupID ran, added.groupID mem,
          ← loaded.last] at sameID
        have bound := loaded.le_last groupIn
        omega
  · rw [List.forall₂_map_right_iff, List.forall₂_same]
    exact fun tx stored => tx_step keyed loaded processes _ stored

end Updates

theorem effect_of_isEmpty (loaded : Loaded tm inputs store pending)
    (empty : pending.isEmpty = true) : Effect tm inputs store store := by
  obtain ⟨noGroup, noCandidate⟩ :
      pending.groupTx = [] ∧ pending.txCandidatesForGroup = [] := by
    simpa [PendingTxs.isEmpty] using empty
  have none : tm.chosen inputs store = [] := by
    rw [chosen, ← loaded.chosen, noCandidate, GroupsTrigger.chooseTxs_nil]
  have free : ∀ tx, tx ∈ store.monitoredTxs → tm.Active store tx →
      tx.groupID = .none := by
    intro tx stored active
    cases grouped : tx.groupID with
    | none => rfl
    | some groupID =>
      obtain ⟨group, mem, _⟩ := loaded.found tx
        (mem_activeTxs.mpr ⟨stored, active⟩) groupID grouped
      simp [noGroup] at mem
  constructor
  · rfl
  · refine ⟨store.monitoredTxsGroup, [], by simp, ?_, .nothing none⟩
    rw [List.forall₂_same]
    intro row stored
    refine .idle ?_
    rintro ⟨tx, txIn, active, grouped⟩
    rw [free tx txIn active] at grouped
    contradiction
  · rw [List.forall₂_same]
    intro tx stored
    exact .idle (free tx stored) (by simp [none])

theorem internalMonitorTxs_ok (keyed : store.Keyed)
    (ran : (tm.internalMonitorTxs inputs store).2 = .ok store') :
    Effect tm inputs store store' := by
  rw [internalMonitorTxs] at ran
  split at ran
  · contradiction
  · split at ran
    · contradiction
    · next pending read =>
      have loaded := getPendingTxs_loaded read
      split at ran
      · next empty =>
        cases ran
        exact effect_of_isEmpty loaded empty
      · split at ran
        · contradiction
        · obtain ⟨final, processing, ran⟩ := bind_except_ok ran
          obtain ⟨changes, generated, ran⟩ := bind_except_ok ran
          obtain ⟨processed, new, processes⟩ :=
            process_ok (fun group => loaded.le_last) processing
          exact execute_effect keyed loaded processes generated ran

theorem monitorTxs_cases (keyed : store.Keyed) :
    (tm.monitorTxs inputs store).store = store ∨
      Effect tm inputs store (tm.monitorTxs inputs store).store := by
  rw [monitorTxs]
  split
  · exact .inl rfl
  · split
    · exact .inl rfl
    · next sent store' ran =>
      split
      · exact .inl rfl
      · refine .inr (internalMonitorTxs_ok keyed ?_)
        rw [ran]

end MonitorCompressedTxs

end BridgeService
