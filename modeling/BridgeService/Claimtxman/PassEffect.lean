import BridgeService.Claimtxman.GroupPass
import BridgeService.Lib.SideBySide

/-!
# Effect of a pass on the tables

A pass that is committed has processed every group with an active transaction
and may have added one group of candidates.  Row by row this is all that
changes in the tables.
-/

namespace BridgeService

open Rows List

variable {H : Type}

namespace MonitorCompressedTxs

variable {tm : MonitorCompressedTxs H} {inputs : PassInputs H}
  {pending final : PendingTxs H}

section Process

inductive Creates (tm : MonitorCompressedTxs H) (inputs : PassInputs H)
    (pending : PendingTxs H) : List (MonitoredTxGroup H) → Prop
  | nothing (none : tm.chosenTxs inputs pending = []) :
      Creates tm inputs pending []
  | group {compressedData : Option Bytes}
      (some : tm.chosenTxs inputs pending ≠ [])
      (compressed : inputs.compressClaimCall = .ok compressedData) :
      Creates tm inputs pending
        [newGroup inputs (pending.lastGroupTxID + 1)
          (tm.chosenTxs inputs pending) compressedData]

structure Processes (tm : MonitorCompressedTxs H) (inputs : PassInputs H)
    (pending final : PendingTxs H)
    (processed new : List (MonitoredTxGroup H)) : Prop where
  groupTx : final.groupTx = processed ++ new
  processed : List.Forall₂
    (fun group group' => tm.processGroup inputs group = .ok group')
    pending.groupTx processed
  creates : Creates tm inputs pending new

private theorem createNewGroups_ok
    (fresh : ∀ group, group ∈ pending.groupTx →
      group.dbEntry.groupID ≠ pending.lastGroupTxID + 1)
    (ran : tm.createNewGroups inputs pending = .ok final) :
    ∃ new, final.groupTx = pending.groupTx ++ new ∧
      Creates tm inputs pending new := by
  rw [createNewGroups] at ran
  by_cases none : tm.chosenTxs inputs pending = []
  · rw [if_pos (by simpa using none)] at ran
    cases ran
    exact ⟨[], by simp, .nothing none⟩
  · rw [if_neg (by simpa using none)] at ran
    split at ran
    · contradiction
    · split at ran
      · contradiction
      · next compressed =>
        cases ran
        refine ⟨_, ?_, .group none compressed⟩
        have missing : PendingTxs.group
            { pending with lastGroupTxID := pending.lastGroupTxID + 1 }
            (pending.lastGroupTxID + 1) = .none := by
          apply find?_eq_none.mpr
          intro group mem
          simpa using fresh group mem
        rw [PendingTxs.addGroup]
        simp only [newGroup, newMonitoredTxGroup,
          MonitoredTxGroup.assignTxsGroupID, missing]

def Composes (tm : MonitorCompressedTxs H) (inputs : PassInputs H)
    (groupID : Nat) (txs : List (MonitoredTx H)) : Prop :=
  txs ≠ [] → (∃ params,
      tm.compressClaimComposer.getCompressClaimParametersFromMonitoredTx
        (newGroup inputs groupID txs none).txs = .ok params) ∧
    ∃ compressedData, inputs.compressClaimCall = .ok compressedData

theorem createNewGroups_ok_iff (tm : MonitorCompressedTxs H)
    (inputs : PassInputs H) (pending : PendingTxs H) :
    (∃ final, tm.createNewGroups inputs pending = .ok final) ↔
      Composes tm inputs (pending.lastGroupTxID + 1)
        (tm.chosenTxs inputs pending) := by
  rw [createNewGroups]
  by_cases none : tm.chosenTxs inputs pending = []
  · rw [if_pos (by simpa using none)]
    exact ⟨fun _ some => absurd none some, fun _ => ⟨_, rfl⟩⟩
  · rw [if_neg (by simpa using none), Composes]
    constructor
    · rintro ⟨final, ran⟩ _
      split at ran
      · contradiction
      · next params composed =>
        split at ran
        · contradiction
        · next compressedData compressed =>
          exact ⟨⟨params, composed⟩, compressedData, compressed⟩
    · intro composes
      obtain ⟨⟨params, composed⟩, compressedData, compressed⟩ := composes none
      rw [composed, compressed]
      exact ⟨_, rfl⟩

theorem processGroup_groupID {group group' : MonitoredTxGroup H}
    (ran : tm.processGroup inputs group = .ok group') :
    group'.dbEntry.groupID = group.dbEntry.groupID := by
  have same := (processGroup_ok ran).same.groupID
  rw [same]
  rcases tm.sendClaim_cases inputs group.dbEntry with
    ⟨txHash, _, sent⟩ | ⟨_, log, idle⟩
  · rw [sent]
    rfl
  · rw [idle]

theorem bind_except_ok {ε α β : Type} {first : Except ε α}
    {rest : α → Except ε β} {result : β}
    (ran : (first >>= rest) = .ok result) :
    ∃ middle, first = .ok middle ∧ rest middle = .ok result := by
  cases first with
  | error err => contradiction
  | ok middle => exact ⟨middle, rfl, ran⟩

theorem process_ok
    (below : ∀ group, group ∈ pending.groupTx →
      group.dbEntry.groupID ≤ pending.lastGroupTxID)
    (ran : (tm.process inputs pending).2 = .ok final) :
    ∃ processed new, Processes tm inputs pending final processed new := by
  obtain ⟨checked, check, ran⟩ := bind_except_ok ran
  obtain ⟨checkedTx, checks, check⟩ := bind_except_ok check
  cases check
  obtain ⟨outdated, outdate, ran⟩ := bind_except_ok ran
  obtain ⟨processed, outdates, outdate⟩ := bind_except_ok outdate
  cases outdate
  have sent := SideBySide.of_mapM checks
  rw [sendClaims, List.forall₂_map_left_iff] at sent
  have all : List.Forall₂
      (fun group group' => tm.processGroup inputs group = .ok group')
      pending.groupTx processed := by
    apply SideBySide.comp sent (SideBySide.of_mapM outdates)
    intro group between group' first second
    rw [processGroup, first]
    exact second
  have fresh : ∀ group, group ∈ processed →
      group.dbEntry.groupID ≠ pending.lastGroupTxID + 1 := by
    intro group' mem
    obtain ⟨group, groupIn, ran⟩ := SideBySide.exists_left all mem
    have bound := below group groupIn
    rw [processGroup_groupID ran]
    omega
  obtain ⟨new, groupTx, creates⟩ := createNewGroups_ok fresh ran
  refine ⟨processed, new, groupTx, all, ?_⟩
  cases creates with
  | nothing none => exact .nothing none
  | group some compressed => exact .group some compressed

end Process

section StoreUpdate

variable [DecidableEq H] {old : PendingTxs H} {now : Nat}

def addedRow (old : PendingTxs H) (now : Nat) (group : MonitoredTxGroup H) :
    Option (MonitoredTxGroupDBEntry H) :=
  match old.group group.dbEntry.groupID with
  | none => some
      { group.dbEntry with
        updatedAt := now
        depositIDs := group.getTxsDepositID }
  | some _ => none

def changedRow (old : PendingTxs H) (now : Nat) (group : MonitoredTxGroup H) :
    Option (MonitoredTxGroupDBEntry H) :=
  match old.group group.dbEntry.groupID with
  | none => none
  | some oldGroup =>
    if oldGroup.dbEntry = group.dbEntry then none
    else some { group.dbEntry with updatedAt := now }

def changedIn (old : PendingTxs H) (group : MonitoredTxGroup H) :
    List (MonitoredTx H) :=
  match old.group group.dbEntry.groupID with
  | none => group.txs
  | some oldGroup =>
    group.txs.filter fun tx =>
      oldGroup.getTxByDepositID tx.depositID != some tx

section Lookup

variable {group oldGroup : MonitoredTxGroup H}

omit [DecidableEq H] in
theorem addedRow_new (missing : old.group group.dbEntry.groupID = none) :
    addedRow old now group = some
      { group.dbEntry with
        updatedAt := now
        depositIDs := group.getTxsDepositID } := by
  rw [addedRow, missing]

omit [DecidableEq H] in
theorem addedRow_old
    (found : old.group group.dbEntry.groupID = some oldGroup) :
    addedRow old now group = none := by
  rw [addedRow, found]

theorem changedRow_new (missing : old.group group.dbEntry.groupID = none) :
    changedRow old now group = none := by
  rw [changedRow, missing]

theorem changedRow_old
    (found : old.group group.dbEntry.groupID = some oldGroup) :
    changedRow old now group =
      if oldGroup.dbEntry = group.dbEntry then none
      else some { group.dbEntry with updatedAt := now } := by
  rw [changedRow, found]

theorem changedIn_new (missing : old.group group.dbEntry.groupID = none) :
    changedIn old group = group.txs := by
  rw [changedIn, missing]

theorem changedIn_old
    (found : old.group group.dbEntry.groupID = some oldGroup) :
    changedIn old group = group.txs.filter fun tx =>
      oldGroup.getTxByDepositID tx.depositID != some tx := by
  rw [changedIn, found]

end Lookup

private theorem groupChanges_eq (groups : List (MonitoredTxGroup H)) :
    groupChanges old now groups =
      { addGroups := groups.filterMap (addedRow old now)
        updateGroups := groups.filterMap (changedRow old now)
        updateTxs := [] } := by
  induction groups with
  | nil => rfl
  | cons group rest induction =>
    rw [groupChanges, induction]
    cases found : old.group group.dbEntry.groupID with
    | none => simp [addedRow, changedRow, found]
    | some oldGroup =>
      by_cases same : oldGroup.dbEntry = group.dbEntry
      · simp [addedRow, changedRow, found, same]
      · simp [addedRow, changedRow, found, same]

private theorem changedTxs_ok {oldGroup : MonitoredTxGroup H}
    {txs changed : List (MonitoredTx H)}
    (ran : changedTxs oldGroup txs = .ok changed) :
    changed = txs.filter fun tx =>
      oldGroup.getTxByDepositID tx.depositID != some tx := by
  induction txs generalizing changed with
  | nil =>
    cases ran
    rfl
  | cons tx rest induction =>
    rw [changedTxs] at ran
    cases found : oldGroup.getTxByDepositID tx.depositID with
    | none =>
      simp [found] at ran
    | some oldTx =>
      rw [found] at ran
      obtain ⟨others, done, ran⟩ := bind_except_ok ran
      injection ran with same
      rw [← same, induction done, filter_cons, found]
      by_cases equal : oldTx = tx
      · simp [equal]
      · simp [equal]

private theorem groupTxChanges_ok {group : MonitoredTxGroup H}
    {changed : List (MonitoredTx H)}
    (ran : groupTxChanges old group = .ok changed) :
    changed = changedIn old group := by
  rw [groupTxChanges] at ran
  rw [changedIn]
  cases found : old.group group.dbEntry.groupID with
  | none =>
    rw [found] at ran
    cases ran
    exact rfl
  | some oldGroup =>
    rw [found] at ran
    exact changedTxs_ok ran

private theorem txChanges_ok {groups : List (MonitoredTxGroup H)}
    {txs : List (MonitoredTx H)} (ran : txChanges old groups = .ok txs) :
    txs = groups.flatMap (changedIn old) := by
  induction groups generalizing txs with
  | nil =>
    cases ran
    rfl
  | cons group rest induction =>
    rw [txChanges] at ran
    obtain ⟨changed, here, ran⟩ := bind_except_ok ran
    obtain ⟨others, done, ran⟩ := bind_except_ok ran
    injection ran with same
    rw [← same, flatMap_cons, induction done, groupTxChanges_ok here]

theorem generateStoreUpdate_ok {changes : StoreChanges H}
    (ran : generateStoreUpdate old final now = .ok changes) :
    changes =
      { addGroups := final.groupTx.filterMap (addedRow old now)
        updateGroups := final.groupTx.filterMap (changedRow old now)
        updateTxs := final.groupTx.flatMap (changedIn old) } := by
  obtain ⟨txs, done, ran⟩ := bind_except_ok ran
  injection ran with same
  rw [← same, groupChanges_eq, txChanges_ok done]

omit [DecidableEq H] in
theorem addGroups_ok {groups : List (MonitoredTxGroupDBEntry H)}
    {store store' : ClaimStore H}
    (ran : groups.foldlM ClaimStore.addMonitoredTxsGroup store = some store') :
    store' =
      { store with
        monitoredTxsGroup := store.monitoredTxsGroup ++
          groups.map ClaimStore.insertGroup } := by
  induction groups generalizing store with
  | nil =>
    injection ran with same
    simp [← same]
  | cons group rest induction =>
    rw [foldlM_cons, ClaimStore.addMonitoredTxsGroup] at ran
    split at ran
    · contradiction
    · rw [induction ran]
      simp

def writeGroupAt (now : Nat) (row change : MonitoredTxGroupDBEntry H) :
    MonitoredTxGroupDBEntry H :=
  ClaimStore.writeGroup row { change with updatedAt := now }

def writeTxAt (now : Nat) (row change : MonitoredTx H) : MonitoredTx H :=
  ClaimStore.writeTx row change now

omit [DecidableEq H] in
private theorem updateGroups_eq (store : ClaimStore H)
    (changes : List (MonitoredTxGroupDBEntry H)) :
    changes.foldl (fun store mTxGroup =>
      store.updateMonitoredTxsGroup { mTxGroup with updatedAt := now })
      store =
      { store with
        monitoredTxsGroup := changes.foldl
          (update MonitoredTxGroupDBEntry.groupID
            MonitoredTxGroupDBEntry.groupID (writeGroupAt now))
          store.monitoredTxsGroup } := by
  induction changes generalizing store with
  | nil => rfl
  | cons change rest induction =>
    rw [foldl_cons, induction]
    rfl

omit [DecidableEq H] in
theorem updateTxs_eq (store : ClaimStore H)
    (changes : List (MonitoredTx H)) :
    changes.foldl (fun store mTx => store.updateClaimTx mTx now) store =
      { store with
        monitoredTxs := changes.foldl
          (update MonitoredTx.depositID MonitoredTx.depositID
            (writeTxAt now)) store.monitoredTxs } := by
  induction changes generalizing store with
  | nil => rfl
  | cons change rest induction =>
    rw [foldl_cons, induction]
    rfl

omit [DecidableEq H] in
theorem execute_ok {changes : StoreChanges H} {fault : Bool}
    {store store' : ClaimStore H}
    (groups : Agree MonitoredTxGroupDBEntry.groupID changes.updateGroups)
    (txs : Agree MonitoredTx.depositID changes.updateTxs)
    (ran : changes.execute fault now store = .ok store') :
    store' =
      { monitoredTxs := store.monitoredTxs.map
          (updated MonitoredTx.depositID MonitoredTx.depositID
            (writeTxAt now) changes.updateTxs)
        monitoredTxsGroup := (store.monitoredTxsGroup ++
          changes.addGroups.map ClaimStore.insertGroup).map
            (updated MonitoredTxGroupDBEntry.groupID
              MonitoredTxGroupDBEntry.groupID (writeGroupAt now)
              changes.updateGroups)
        deposit := store.deposit } := by
  rw [StoreChanges.execute] at ran
  split at ran
  · contradiction
  · split at ran
    · contradiction
    · next added addedGroups =>
      cases ran
      have groupKept : ∀ row change : MonitoredTxGroupDBEntry H,
          (writeGroupAt now row change).groupID = row.groupID :=
        fun _ _ => rfl
      have txKept : ∀ row change : MonitoredTx H,
          (writeTxAt now row change).depositID = row.depositID :=
        fun _ _ => rfl
      rw [addGroups_ok addedGroups, updateGroups_eq, updateTxs_eq,
        foldl_update groupKept (fun _ _ => rfl) groups,
        foldl_update txKept (fun _ _ => rfl) txs]

end StoreUpdate

end MonitorCompressedTxs

end BridgeService
