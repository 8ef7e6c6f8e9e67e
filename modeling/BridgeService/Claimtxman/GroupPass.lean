import BridgeService.Claimtxman.ClaimHistory
import Mathlib.Data.List.Forall2

/-!
# What a pass does

A pass that succeeds changes the rows of the groups that have an active
transaction, one group at a time, and of the transactions in these groups.  It
may add one group.  A pass that fails changes nothing.
-/

namespace BridgeService

open Rows List

variable {H : Type} [DecidableEq H]

namespace PendingTxs

structure Describes (groups : List (MonitoredTxGroupDBEntry H)) (ger : H)
    (mTxs : List (MonitoredTx H)) (pending : PendingTxs H) : Prop where
  candidates : pending.txCandidatesForGroup =
    mTxs.filter fun tx => tx.isCandidateToBeGrouped ger
  entry : ∀ group, group ∈ pending.groupTx →
    (groups.find? fun row => row.groupID == group.dbEntry.groupID) =
      some group.dbEntry
  txs : ∀ group, group ∈ pending.groupTx → group.txs =
      mTxs.filter fun tx => tx.groupID == some group.dbEntry.groupID
  occupied : ∀ group, group ∈ pending.groupTx → group.txs ≠ []
  found : ∀ tx, tx ∈ mTxs → ∀ groupID, tx.groupID = some groupID →
    ∃ group, group ∈ pending.groupTx ∧ group.dbEntry.groupID = groupID
  distinct : (pending.groupTx.map fun group =>
    group.dbEntry.groupID).Nodup

variable {groups : List (MonitoredTxGroupDBEntry H)} {ger : H}
  {mTxs : List (MonitoredTx H)} {pending pending' : PendingTxs H}
  {tx : MonitoredTx H}

variable {groupID : Nat} {group : MonitoredTxGroup H}
  {entry : MonitoredTxGroupDBEntry H}

omit [DecidableEq H] in
theorem group_eq_some (found : pending.group groupID = some group) :
    group ∈ pending.groupTx ∧ group.dbEntry.groupID = groupID := by
  refine ⟨mem_of_find?_eq_some found, ?_⟩
  simpa using find?_some found

omit [DecidableEq H] in
theorem group_eq_none (missing : pending.group groupID = none)
    (mem : group ∈ pending.groupTx) :
    group.dbEntry.groupID ≠ groupID := by
  intro same
  have different := find?_eq_none.mp missing group mem
  simp [same] at different

theorem candidate_groupID (candidate : tx.isCandidateToBeGrouped ger = true) :
    tx.groupID = none := by
  simp only [MonitoredTx.isCandidateToBeGrouped, Bool.and_eq_true,
    beq_iff_eq] at candidate
  exact candidate.1.2

omit [DecidableEq H] in
private theorem MonitoredTx.withGroupID (grouped : tx.groupID = some groupID) :
    { tx with groupID := some groupID } = tx := by
  rw [← grouped]

private theorem groupTx_existing
    (describes : Describes groups ger mTxs pending)
    (lookup : (groups.find? fun row => row.groupID == groupID) = some entry)
    (grouped : tx.groupID = some groupID)
    (existing : pending.group groupID = some group) :
    ((pending.setGroupDBEntry entry).addTxToGroup groupID tx).groupTx =
      pending.groupTx.map fun group =>
        if group.dbEntry.groupID = groupID then
          { group with txs := group.txs ++ [tx] }
        else group := by
  have entryID : entry.groupID = groupID := by
    simpa using find?_some lookup
  rw [setGroupDBEntry, entryID, existing]
  simp only [addTxToGroup, modifyGroup, map_map]
  apply map_congr_left
  intro other mem
  by_cases here : other.dbEntry.groupID = groupID
  · have sameEntry : other.dbEntry = entry := by
      have stored := describes.entry other mem
      rw [here, lookup] at stored
      exact (Option.some.inj stored).symm
    have kept : other.txs.map (fun tx =>
        { tx with groupID := some groupID }) = other.txs := by
      apply map_eq_self
      intro tx txIn
      apply MonitoredTx.withGroupID
      rw [describes.txs other mem, mem_filter] at txIn
      rw [beq_iff_eq.mp txIn.2, here]
    simp [here, MonitoredTxGroup.assignTxsGroupID, MonitoredTxGroup.addTx,
      kept, MonitoredTx.withGroupID grouped, ← sameEntry]
  · simp [here]

omit [DecidableEq H] in
private theorem groupTx_new
    (lookup : (groups.find? fun row => row.groupID == groupID) = some entry)
    (grouped : tx.groupID = some groupID)
    (missing : pending.group groupID = none) :
    ((pending.setGroupDBEntry entry).addTxToGroup groupID tx).groupTx =
      pending.groupTx ++
        [{ dbEntry := entry
           txs := [tx] }] := by
  have entryID : entry.groupID = groupID := by
    simpa using find?_some lookup
  rw [setGroupDBEntry, entryID, missing]
  have kept : (pending.groupTx.map fun group =>
      if group.dbEntry.groupID = groupID then group.addTx tx else group) =
      pending.groupTx := by
    apply map_eq_self
    intro group mem
    rw [if_neg (group_eq_none missing mem)]
  simp only [addTxToGroup, modifyGroup, map_append, kept]
  simp [entryID, MonitoredTxGroup.addTx, MonitoredTx.withGroupID grouped]

private theorem Describes.grouped
    (describes : Describes groups ger mTxs pending)
    (lookup : (groups.find? fun row => row.groupID == groupID) = some entry)
    (grouped : tx.groupID = some groupID)
    (other : tx.isCandidateToBeGrouped ger = false) :
    Describes groups ger (mTxs ++ [tx])
      ((pending.setGroupDBEntry entry).addTxToGroup groupID tx) := by
  have entryID : entry.groupID = groupID := by
    simpa using find?_some lookup
  have candidates : ((pending.setGroupDBEntry entry).addTxToGroup groupID
      tx).txCandidatesForGroup = pending.txCandidatesForGroup := by
    rw [setGroupDBEntry]
    split <;> rfl
  cases existing : pending.group groupID with
  | some group =>
    have groupTx := groupTx_existing describes lookup grouped existing
    obtain ⟨groupIn, sameID⟩ := group_eq_some existing
    have ids : ∀ group : MonitoredTxGroup H,
        (if group.dbEntry.groupID = groupID then
          { group with txs := group.txs ++ [tx] }
        else group).dbEntry = group.dbEntry := by
      intro group
      split <;> rfl
    constructor
    · simp [candidates, describes.candidates, other]
    · intro group mem
      rw [groupTx] at mem
      obtain ⟨old, oldIn, rfl⟩ := mem_map.mp mem
      rw [ids]
      exact describes.entry old oldIn
    · intro group mem
      rw [groupTx] at mem
      obtain ⟨old, oldIn, rfl⟩ := mem_map.mp mem
      rw [ids]
      by_cases here : old.dbEntry.groupID = groupID
      · simp [here, describes.txs old oldIn, grouped]
      · simp [here, describes.txs old oldIn, grouped, Ne.symm here]
    · intro group mem
      rw [groupTx] at mem
      obtain ⟨old, oldIn, rfl⟩ := mem_map.mp mem
      by_cases here : old.dbEntry.groupID = groupID
      · simp [here]
      · simp [here, describes.occupied old oldIn]
    · intro added addedIn id hasID
      rw [groupTx]
      rcases Rows.mem_push.mp addedIn with old | rfl
      · obtain ⟨found, foundIn, foundID⟩ := describes.found added old id hasID
        refine ⟨_, mem_map_of_mem foundIn, ?_⟩
        rw [ids, foundID]
      · rw [grouped] at hasID
        refine ⟨_, mem_map_of_mem groupIn, ?_⟩
        rw [ids, sameID]
        exact Option.some.inj hasID
    · rw [groupTx, map_map]
      have same : ((fun group : MonitoredTxGroup H =>
          group.dbEntry.groupID) ∘ fun group =>
            if group.dbEntry.groupID = groupID then
              { group with txs := group.txs ++ [tx] }
            else group) = fun group => group.dbEntry.groupID := by
        funext group
        simp only [Function.comp_apply, ids]
      rw [same]
      exact describes.distinct
  | none =>
    have groupTx := groupTx_new lookup grouped existing
    have unused : ∀ old, old ∈ mTxs → old.groupID ≠ some groupID := by
      intro old oldIn hasID
      obtain ⟨found, foundIn, foundID⟩ :=
        describes.found old oldIn groupID hasID
      exact group_eq_none existing foundIn foundID
    constructor
    · simp [candidates, describes.candidates, other]
    · intro group mem
      rw [groupTx] at mem
      rcases Rows.mem_push.mp mem with old | rfl
      · exact describes.entry group old
      · rw [entryID]
        exact lookup
    · intro group mem
      rw [groupTx] at mem
      rcases mem_append.mp mem with old | new
      · have different := group_eq_none existing old
        simp [describes.txs group old, grouped, Ne.symm different]
      · have none : (mTxs.filter fun tx =>
            tx.groupID == some groupID) = [] := by
          apply filter_eq_nil_iff.mpr
          intro old oldIn
          simpa using unused old oldIn
        simp [mem_singleton.mp new, entryID, none, grouped]
    · intro group mem
      rw [groupTx] at mem
      rcases mem_append.mp mem with old | new
      · exact describes.occupied group old
      · simp [mem_singleton.mp new]
    · intro added addedIn id hasID
      rw [groupTx]
      rcases mem_append.mp addedIn with old | new
      · obtain ⟨found, foundIn, foundID⟩ := describes.found added old id hasID
        exact ⟨found, mem_append_left _ foundIn, foundID⟩
      · rw [mem_singleton.mp new, grouped] at hasID
        refine ⟨_, mem_append_right _ mem_cons_self, ?_⟩
        rw [entryID]
        exact Option.some.inj hasID
    · rw [groupTx, map_append, nodup_append]
      refine ⟨describes.distinct, by simp, ?_⟩
      intro id idIn id' idIn'
      obtain ⟨group, groupIn, rfl⟩ := mem_map.mp idIn
      simp only [map_cons, map_nil, mem_singleton] at idIn'
      rw [idIn', entryID]
      exact group_eq_none existing groupIn

theorem sortTx_describes (describes : Describes groups ger mTxs pending)
    (sorted : sortTx groups ger pending tx = .ok pending') :
    Describes groups ger (mTxs ++ [tx]) pending' := by
  rw [sortTx] at sorted
  cases candidate : tx.isCandidateToBeGrouped ger with
  | true =>
    rw [if_pos candidate] at sorted
    cases sorted
    have none := candidate_groupID candidate
    constructor
    · simp [addTxCandidatesForGroup, describes.candidates, candidate]
    · exact describes.entry
    · intro group mem
      simp [describes.txs group mem, none]
    · exact describes.occupied
    · intro added addedIn id hasID
      rcases Rows.mem_push.mp addedIn with old | rfl
      · exact describes.found added old id hasID
      · simp [none] at hasID
    · exact describes.distinct
  | false =>
    rw [if_neg (by simp [candidate])] at sorted
    cases grouped : tx.groupID with
    | none =>
      rw [grouped] at sorted
      cases sorted
      constructor
      · simp [describes.candidates, candidate]
      · exact describes.entry
      · intro group mem
        simp [describes.txs group mem, grouped]
      · exact describes.occupied
      · intro added addedIn id hasID
        rcases Rows.mem_push.mp addedIn with old | rfl
        · exact describes.found added old id hasID
        · simp [grouped] at hasID
      · exact describes.distinct
    | some groupID =>
      simp only [grouped] at sorted
      cases lookup : groups.find? fun row => row.groupID == groupID with
      | none =>
        simp [lookup] at sorted
      | some entry =>
        rw [lookup] at sorted
        cases sorted
        exact describes.grouped lookup grouped candidate

omit [DecidableEq H] in
private theorem setGroupDBEntry_last (entry : MonitoredTxGroupDBEntry H) :
    (pending.setGroupDBEntry entry).lastGroupTxID =
      pending.lastGroupTxID := by
  rw [setGroupDBEntry]
  split <;> rfl

private theorem sortTx_last
    (sorted : sortTx groups ger pending tx = .ok pending') :
    pending'.lastGroupTxID = pending.lastGroupTxID := by
  rw [sortTx] at sorted
  split at sorted
  · cases sorted
    rfl
  · split at sorted
    · injection sorted with same
      rw [same]
    · split at sorted
      · contradiction
      · cases sorted
        exact setGroupDBEntry_last _

private theorem sortTx_total (ger : H) (pending : PendingTxs H)
    (known : ∀ groupID, tx.groupID = some groupID →
      (groups.find? fun row => row.groupID == groupID).isSome = true) :
    ∃ pending', sortTx groups ger pending tx = .ok pending' := by
  rw [sortTx]
  split
  · exact ⟨_, rfl⟩
  · split
    · exact ⟨_, rfl⟩
    · next groupID grouped =>
      obtain ⟨entry, found⟩ :=
        Option.isSome_iff_exists.mp (known groupID grouped)
      rw [found]
      exact ⟨_, rfl⟩

theorem foldlM_describes (describes : Describes groups ger mTxs pending)
    (rest : List (MonitoredTx H))
    (sorted : rest.foldlM (sortTx groups ger) pending = .ok pending') :
    Describes groups ger (mTxs ++ rest) pending' ∧
      pending'.lastGroupTxID = pending.lastGroupTxID := by
  induction rest generalizing mTxs pending with
  | nil =>
    cases sorted
    exact ⟨by simpa using describes, rfl⟩
  | cons tx rest induction =>
    rw [foldlM_cons] at sorted
    cases next : sortTx groups ger pending tx with
    | error err =>
      rw [next] at sorted
      contradiction
    | ok between =>
      rw [next] at sorted
      have described := sortTx_describes describes next
      obtain ⟨result, last⟩ := induction described sorted
      refine ⟨by simpa using result, last.trans ?_⟩
      exact sortTx_last next

private theorem foldlM_total (rest : List (MonitoredTx H))
    (known : ∀ tx, tx ∈ rest → ∀ groupID, tx.groupID = some groupID →
      (groups.find? fun row => row.groupID == groupID).isSome = true) :
    ∃ pending', rest.foldlM (sortTx groups ger) pending = .ok pending' := by
  induction rest generalizing pending with
  | nil => exact ⟨pending, rfl⟩
  | cons tx rest induction =>
    obtain ⟨between, next⟩ :=
      sortTx_total ger pending (known tx mem_cons_self)
    rw [foldlM_cons, next]
    exact induction fun other mem =>
      known other (mem_cons_of_mem tx mem)

end PendingTxs

theorem newPendingTxs_cons {groups : List (MonitoredTxGroupDBEntry H)}
    {oldest : MonitoredTx H} {rest : List (MonitoredTx H)}
    {lastGroupID : Nat} {pending : PendingTxs H}
    (read : newPendingTxs (oldest :: rest) groups lastGroupID = .ok pending) :
    pending.Describes groups oldest.globalExitRoot (oldest :: rest) ∧
      pending.lastGroupTxID = lastGroupID := by
  have start : PendingTxs.Describes groups oldest.globalExitRoot []
      { groupTx := []
        txCandidatesForGroup := []
        lastGroupTxID := lastGroupID } := by
    constructor
    · rfl
    · simp
    · simp
    · simp
    · simp
    · simp
  exact PendingTxs.foldlM_describes start (oldest :: rest) read

theorem newPendingTxs_total {groups : List (MonitoredTxGroupDBEntry H)}
    {mTxs : List (MonitoredTx H)} (lastGroupID : Nat)
    (known : ∀ tx, tx ∈ mTxs → ∀ groupID, tx.groupID = some groupID →
      (groups.find? fun row => row.groupID == groupID).isSome = true) :
    ∃ pending, newPendingTxs mTxs groups lastGroupID = .ok pending := by
  cases mTxs with
  | nil => exact ⟨_, rfl⟩
  | cons oldest rest =>
    exact PendingTxs.foldlM_total (oldest :: rest) known

namespace ClaimStore

/-- Rows have distinct keys, and a transaction is in a group that is
stored. -/
structure Keyed (store : ClaimStore H) : Prop where
  txs : (store.monitoredTxs.map MonitoredTx.depositID).Nodup
  groups : (store.monitoredTxsGroup.map MonitoredTxGroupDBEntry.groupID).Nodup
  known : ∀ tx, tx ∈ store.monitoredTxs → ∀ groupID,
    tx.groupID = some groupID →
    ∃ row, row ∈ store.monitoredTxsGroup ∧ row.groupID = groupID

end ClaimStore

namespace MonitorCompressedTxs

variable {tm : MonitorCompressedTxs H} {inputs : PassInputs H}
  {store store' : ClaimStore H}

def activeTxs (tm : MonitorCompressedTxs H) (inputs : PassInputs H)
    (store : ClaimStore H) : List (MonitoredTx H) :=
  store.getClaimTxsByStatus [.created, .compressing, .claiming] tm.rollupID
    inputs.listed

def Active (tm : MonitorCompressedTxs H) (store : ClaimStore H)
    (tx : MonitoredTx H) : Prop :=
  tx.status ∈ [MonitoredTxStatus.created, .compressing, .claiming] ∧
    store.hasDestination tx.depositID tm.rollupID = true

omit [DecidableEq H] in
theorem mem_activeTxs {tx : MonitoredTx H} :
    tx ∈ tm.activeTxs inputs store ↔
      tx ∈ store.monitoredTxs ∧ tm.Active store tx := by
  simp [activeTxs, ClaimStore.getClaimTxsByStatus, Active,
    (inputs.listed_perm store.monitoredTxs).mem_iff]

omit [DecidableEq H] in
theorem activeTxs_ordered : (tm.activeTxs inputs store).Pairwise
    fun first second => first.createdAt ≤ second.createdAt :=
  orderBy_pairwise _

omit [DecidableEq H] in
theorem ClaimStore.Keyed.activeTxs (keyed : store.Keyed) :
    ((tm.activeTxs inputs store).map MonitoredTx.depositID).Nodup :=
  ClaimStore.nodup_getClaimTxsByStatus inputs.listed_perm keyed.txs

omit [DecidableEq H] in
theorem find_group (keyed : store.Keyed) {groupIDs : List Nat}
    {row : MonitoredTxGroupDBEntry H}
    (stored : row ∈ store.monitoredTxsGroup)
    (asked : row.groupID ∈ groupIDs) :
    ((store.getMonitoredTxsGroups groupIDs).find? fun entry =>
      entry.groupID == row.groupID) = some (ClaimStore.readGroup row) := by
  have distinct : ((store.getMonitoredTxsGroups groupIDs).map
      MonitoredTxGroupDBEntry.groupID).Nodup := by
    rw [ClaimStore.getMonitoredTxsGroups, map_map]
    exact keyed.groups.sublist (filter_sublist.map _)
  have read : ClaimStore.readGroup row ∈
      store.getMonitoredTxsGroups groupIDs := by
    apply mem_map_of_mem
    exact mem_filter.mpr ⟨stored, by simpa using asked⟩
  exact find?_key distinct read

def candidates : List (MonitoredTx H) → List (MonitoredTx H)
  | [] => []
  | oldest :: rest =>
    (oldest :: rest).filter fun tx =>
      tx.isCandidateToBeGrouped oldest.globalExitRoot

/-- What a pass works on: every group with an active transaction. -/
structure Loaded (tm : MonitorCompressedTxs H) (inputs : PassInputs H)
    (store : ClaimStore H) (pending : PendingTxs H) : Prop where
  last : pending.lastGroupTxID = store.getLatestMonitoredTxGroupID
  chosen : pending.txCandidatesForGroup =
    candidates (tm.activeTxs inputs store)
  row : ∀ group, group ∈ pending.groupTx →
    ∃ row, row ∈ store.monitoredTxsGroup ∧
      group.dbEntry = ClaimStore.readGroup row
  txs : ∀ group, group ∈ pending.groupTx →
    group.txs = (tm.activeTxs inputs store).filter fun tx =>
      tx.groupID == some group.dbEntry.groupID
  occupied : ∀ group, group ∈ pending.groupTx → group.txs ≠ []
  found : ∀ tx, tx ∈ tm.activeTxs inputs store → ∀ groupID,
    tx.groupID = some groupID →
    ∃ group, group ∈ pending.groupTx ∧ group.dbEntry.groupID = groupID
  distinct : (pending.groupTx.map fun group =>
    group.dbEntry.groupID).Nodup

variable {pending : PendingTxs H}

theorem getPendingTxs_loaded
    (read : tm.getPendingTxs inputs store = .ok pending) :
    Loaded tm inputs store pending := by
  change newPendingTxs (tm.activeTxs inputs store) _ _ = .ok pending at read
  cases listed : tm.activeTxs inputs store with
  | nil =>
    rw [listed] at read
    cases read
    constructor
    · rfl
    · rw [listed]
      rfl
    · simp
    · simp
    · simp
    · simp [listed]
    · simp
  | cons oldest rest =>
    rw [listed] at read
    obtain ⟨describes, last⟩ := newPendingTxs_cons read
    constructor
    · exact last
    · rw [listed]
      exact describes.candidates
    · intro group mem
      have found := mem_of_find?_eq_some
        (describes.entry group mem)
      obtain ⟨row, stored, same⟩ := mem_map.mp found
      exact ⟨row, (mem_filter.mp stored).1, same.symm⟩
    · rw [listed]
      exact describes.txs
    · exact describes.occupied
    · rw [listed]
      exact describes.found
    · exact describes.distinct

theorem getPendingTxs_total (tm : MonitorCompressedTxs H)
    (inputs : PassInputs H) (keyed : store.Keyed) :
    ∃ pending, tm.getPendingTxs inputs store = .ok pending := by
  apply newPendingTxs_total
  intro tx txIn groupID grouped
  obtain ⟨row, stored, same⟩ :=
    keyed.known tx (mem_activeTxs.mp txIn).1 groupID grouped
  have asked : row.groupID ∈ (tm.activeTxs inputs store).filterMap
      MonitoredTx.groupID := by
    rw [same]
    exact mem_filterMap.mpr ⟨tx, txIn, grouped⟩
  have found := find_group keyed stored asked
  rw [same] at found
  exact Option.isSome_iff_exists.mpr ⟨_, found⟩

end MonitorCompressedTxs

end BridgeService
