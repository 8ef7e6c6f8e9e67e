import BridgeService.Claimtxman.PassRows

/-!
# Outcome of a pass

Which claims a pass sends, when it is committed, and when it is rolled back
after it has sent claims.
-/

namespace BridgeService

open Rows List

variable {H : Type}

namespace MonitorCompressedTxs

variable {tm : MonitorCompressedTxs H} {inputs : PassInputs H}
  {pending final : PendingTxs H}

theorem process_ok_iff
    (history : ∀ group, group ∈ pending.groupTx →
      HasHistory (tm.sendClaim inputs false group.dbEntry).1) :
    (∃ final, (tm.process inputs pending).2 = .ok final) ↔
      Composes tm inputs (pending.lastGroupTxID + 1)
        (tm.chosenTxs inputs pending) := by
  have done : ∀ group, group ∈ pending.groupTx → ∃ checked group',
      checkReceipt inputs
        { group with
          dbEntry := (tm.sendClaim inputs false group.dbEntry).1 } =
        .ok checked ∧ tm.outdateClaim inputs checked = .ok group' := by
    intro group mem
    obtain ⟨group', ran⟩ := processGroup_total group (history group mem)
    obtain ⟨checked, check, outdate⟩ := bind_except_ok ran
    exact ⟨checked, group', check, outdate⟩
  obtain ⟨checkedTx, checks⟩ : ∃ checkedTx,
      (tm.sendClaims inputs false pending).1.groupTx.mapM
        (checkReceipt inputs) = .ok checkedTx := by
    apply SideBySide.mapM_total
    intro claimed mem
    obtain ⟨group, groupIn, rfl⟩ := mem_map.mp mem
    obtain ⟨checked, _, check, _⟩ := done group groupIn
    exact ⟨checked, check⟩
  obtain ⟨outdatedTx, outdates⟩ : ∃ outdatedTx,
      checkedTx.mapM (tm.outdateClaim inputs) = .ok outdatedTx := by
    apply SideBySide.mapM_total
    intro checked mem
    obtain ⟨claimed, claimedIn, check⟩ :=
      SideBySide.exists_left (SideBySide.of_mapM checks) mem
    obtain ⟨group, groupIn, rfl⟩ := mem_map.mp claimedIn
    obtain ⟨checked', group', check', outdate⟩ := done group groupIn
    rw [check] at check'
    injection check' with same
    exact ⟨group', same ▸ outdate⟩
  have ran : (tm.process inputs pending).2 = tm.createNewGroups inputs
      { pending with groupTx := outdatedTx } := by
    change (do
      let checked ← checkReceipts inputs (tm.sendClaims inputs false pending).1
      let outdated ← tm.outdateClaims inputs checked
      tm.createNewGroups inputs outdated) = _
    rw [checkReceipts, checks]
    change (do
      let outdated ← tm.outdateClaims inputs
        { pending with groupTx := checkedTx }
      tm.createNewGroups inputs outdated) = _
    rw [outdateClaims, outdates]
    rfl
  rw [ran]
  exact createNewGroups_ok_iff tm inputs { pending with groupTx := outdatedTx }

variable [DecidableEq H] {store store' : ClaimStore H}
  {processed new : List (MonitoredTxGroup H)}

section StoreUpdate

variable {old : PendingTxs H} (now : Nat)

private theorem changedTxs_total {oldGroup : MonitoredTxGroup H}
    {txs : List (MonitoredTx H)}
    (known : ∀ tx, tx ∈ txs →
      ∃ oldTx, oldGroup.getTxByDepositID tx.depositID = some oldTx) :
    ∃ changed, changedTxs oldGroup txs = .ok changed := by
  induction txs with
  | nil => exact ⟨[], rfl⟩
  | cons tx rest induction =>
    obtain ⟨oldTx, found⟩ := known tx mem_cons_self
    obtain ⟨others, done⟩ := induction fun other mem =>
      known other (mem_cons_of_mem tx mem)
    rw [changedTxs, found]
    simp only [done]
    exact ⟨_, rfl⟩

private theorem txChanges_total {groups : List (MonitoredTxGroup H)}
    (known : ∀ group, group ∈ groups →
      ∃ changed, groupTxChanges old group = .ok changed) :
    ∃ changed, txChanges old groups = .ok changed := by
  induction groups with
  | nil => exact ⟨[], rfl⟩
  | cons group rest induction =>
    obtain ⟨changed, here⟩ := known group mem_cons_self
    obtain ⟨others, done⟩ := induction fun other mem =>
      known other (mem_cons_of_mem group mem)
    rw [txChanges, here, done]
    exact ⟨_, rfl⟩

theorem generateStoreUpdate_total (keyed : store.Keyed)
    (loaded : Loaded tm inputs store pending)
    (processes : Processes tm inputs pending final processed new) :
    ∃ changes, generateStoreUpdate pending final now = .ok changes := by
  obtain ⟨txs, done⟩ : ∃ txs, txChanges pending final.groupTx = .ok txs := by
    apply txChanges_total
    intro group' mem
    rw [groupTxChanges]
    rcases (mem_final processes).mp mem with
      ⟨group, groupIn, ran⟩ | isNew
    · rw [group_processed loaded groupIn ran]
      apply changedTxs_total
      intro tx' txIn'
      rw [(processGroup_ok ran).txs] at txIn'
      obtain ⟨tx, txIn, rfl⟩ := mem_map.mp txIn'
      exact ⟨tx, getTxByDepositID_eq keyed loaded groupIn txIn⟩
    · rw [group_added loaded processes.creates isNew]
      exact ⟨_, rfl⟩
  rw [generateStoreUpdate, done]
  exact ⟨_, rfl⟩

omit [DecidableEq H] in
theorem execute_total {changes : StoreChanges H}
    (fresh : ∀ group, group ∈ changes.addGroups → ∀ row,
      row ∈ store.monitoredTxsGroup → row.groupID ≠ group.groupID)
    (single : changes.addGroups.length ≤ 1) :
    ∃ store', changes.execute false now store = .ok store' := by
  have added : ∃ added, changes.addGroups.foldlM
      ClaimStore.addMonitoredTxsGroup store = some added := by
    match groups : changes.addGroups with
    | [] => exact ⟨store, rfl⟩
    | [group] =>
      have free : ¬(store.monitoredTxsGroup.any fun row =>
          row.groupID == group.groupID) = true := by
        simpa using fresh group (by simp [groups])
      rw [foldlM_cons, ClaimStore.addMonitoredTxsGroup, if_neg free]
      exact ⟨_, rfl⟩
    | _ :: _ :: _ => simp [groups] at single
  obtain ⟨added, addedGroups⟩ := added
  rw [StoreChanges.execute, addedGroups]
  exact ⟨_, rfl⟩

end StoreUpdate

section Sent

omit [DecidableEq H]

theorem sendClaim_eq_some {entry : MonitoredTxGroupDBEntry H} {txHash : H} :
    (tm.sendClaim inputs false entry).2 = some txHash ↔
      tm.Sends inputs entry txHash := by
  rcases tm.sendClaim_cases inputs entry with
    ⟨sentHash, sends, sent⟩ | ⟨idle, log, nothing⟩
  · rw [sent]
    constructor
    · intro same
      rw [← Option.some.inj same]
      exact sends
    · intro other
      have same := sends.accepted.symm.trans other.accepted
      injection same with equal
      rw [equal]
  · rw [nothing]
    constructor
    · intro none
      contradiction
    · intro sends
      exact absurd sends (idle txHash)

theorem mem_process_sent {groupID : Nat} {txHash : H} :
    (groupID, txHash) ∈ (tm.process inputs pending).1 ↔
      ∃ group, group ∈ pending.groupTx ∧ group.dbEntry.groupID = groupID ∧
        tm.Sends inputs group.dbEntry txHash := by
  change (groupID, txHash) ∈ (tm.sendClaims inputs false pending).2 ↔ _
  rw [sendClaims, mem_filterMap]
  constructor
  · rintro ⟨group, mem, made⟩
    obtain ⟨sentHash, sent, same⟩ := Option.map_eq_some_iff.mp made
    injection same with sameID sameHash
    subst sameHash
    exact ⟨group, mem, sameID, sendClaim_eq_some.mp sent⟩
  · rintro ⟨group, mem, rfl, sends⟩
    refine ⟨group, mem, ?_⟩
    rw [sendClaim_eq_some.mpr sends]
    rfl

end Sent

def Stops (inputs : PassInputs H) : Prop :=
  inputs.fault .beginDBTransaction = true ∨
    inputs.fault .getPendingTxs = true ∨
    inputs.fault .getInitialStatus = true

private theorem internalMonitorTxs_eq (running : ¬Stops inputs)
    (read : tm.getPendingTxs inputs store = .ok pending)
    (some : pending.isEmpty = false) :
    tm.internalMonitorTxs inputs store =
      ((tm.process inputs pending).1, do
        let finalStatus ← (tm.process inputs pending).2
        let storeUpdate ← generateStoreUpdate pending finalStatus
          (inputs.clock .storeUpdate)
        storeUpdate.execute (inputs.fault .execute)
          (inputs.clock .storeUpdate) store) := by
  simp only [Stops, not_or, Bool.not_eq_true] at running
  simp [internalMonitorTxs, running.2.1, running.2.2, read, some]

private theorem monitorTxs_sent
    (started : inputs.fault .beginDBTransaction = false) :
    (tm.monitorTxs inputs store).sent =
      (tm.internalMonitorTxs inputs store).1 := by
  rw [monitorTxs, started]
  simp only [Bool.false_eq_true, if_false]
  split
  · next sent err ran => rw [ran]
  · next sent store' ran =>
    rw [ran]
    split <;> rfl

private theorem sent_of_stops (stops : Stops inputs) :
    (tm.monitorTxs inputs store).sent = [] := by
  cases started : inputs.fault .beginDBTransaction with
  | true => simp [monitorTxs, started]
  | false =>
    rw [monitorTxs_sent started, internalMonitorTxs]
    cases reading : inputs.fault .getPendingTxs with
    | true => rfl
    | false =>
      have later : inputs.fault .getInitialStatus = true := by
        simpa [Stops, started, reading] using stops
      simp only [Bool.false_eq_true, if_false, later, if_true]
      split
      · rfl
      · split <;> rfl

private theorem Loaded.group_iff (keyed : store.Keyed)
    (loaded : Loaded tm inputs store pending)
    (fact : MonitoredTxGroupDBEntry H → Prop) :
    (∃ group, group ∈ pending.groupTx ∧ fact group.dbEntry) ↔
      ∃ row, row ∈ store.monitoredTxsGroup ∧ tm.Occupied store row ∧
        fact (ClaimStore.readGroup row) := by
  constructor
  · rintro ⟨group, mem, holds⟩
    obtain ⟨row, stored, read⟩ := loaded.row group mem
    rw [read] at holds
    refine ⟨row, stored, loaded.occupied_row mem ?_, holds⟩
    rw [read]
    rfl
  · rintro ⟨row, stored, occupied, holds⟩
    obtain ⟨group, mem, read⟩ :=
      loaded.exists_group keyed stored occupied
    exact ⟨group, mem, read ▸ holds⟩

private theorem Loaded.hasHistory (loaded : Loaded tm inputs store pending)
    (history : ∀ row, row ∈ store.monitoredTxsGroup →
      HasHistory (tm.claimed inputs row)) :
    ∀ group, group ∈ pending.groupTx →
      HasHistory (tm.sendClaim inputs false group.dbEntry).1 := by
  intro group mem
  obtain ⟨row, stored, same⟩ := loaded.row group mem
  rw [same]
  exact history row stored

theorem mem_sent (keyed : store.Keyed) {groupID : Nat} {txHash : H} :
    (groupID, txHash) ∈ (tm.monitorTxs inputs store).sent ↔
      ¬Stops inputs ∧ ∃ row, row ∈ store.monitoredTxsGroup ∧
        tm.Occupied store row ∧ row.groupID = groupID ∧
        tm.Sends inputs (ClaimStore.readGroup row) txHash := by
  by_cases stops : Stops inputs
  · simp [sent_of_stops stops, stops]
  · have started : inputs.fault .beginDBTransaction = false := by
      simp only [Stops, not_or, Bool.not_eq_true] at stops
      exact stops.1
    obtain ⟨pending, read⟩ := getPendingTxs_total tm inputs keyed
    have loaded := getPendingTxs_loaded read
    have groups := loaded.group_iff keyed fun entry =>
      entry.groupID = groupID ∧ tm.Sends inputs entry txHash
    rw [monitorTxs_sent started]
    simp only [stops, not_false_eq_true, true_and]
    cases empty : pending.isEmpty with
    | true =>
      have nothing : (tm.internalMonitorTxs inputs store).1 = [] := by
        simp only [Stops, not_or, Bool.not_eq_true] at stops
        simp [internalMonitorTxs, stops.2.1, read, empty]
      have none : pending.groupTx = [] := by
        simp only [PendingTxs.isEmpty, Bool.and_eq_true,
          beq_iff_eq, length_eq_zero_iff] at empty
        exact empty.1
      rw [nothing]
      constructor
      · intro mem
        contradiction
      · intro sends
        obtain ⟨group, mem, _⟩ := groups.mpr sends
        simp [none] at mem
    | false =>
      rw [internalMonitorTxs_eq stops read empty]
      exact mem_process_sent.trans groups

structure Undisturbed (tm : MonitorCompressedTxs H) (inputs : PassInputs H)
    (store : ClaimStore H) : Prop where
  execute : inputs.fault .execute = false
  commit : inputs.fault .commit = false
  composes : Composes tm inputs (store.getLatestMonitoredTxGroupID + 1)
    (tm.chosen inputs store)

theorem monitorTxs_effect (keyed : store.Keyed)
    (committed : (tm.monitorTxs inputs store).err = none) :
    Effect tm inputs store (tm.monitorTxs inputs store).store := by
  rw [monitorTxs] at committed ⊢
  split at committed
  · contradiction
  · next started =>
    rw [if_neg started]
    split at committed
    · contradiction
    · next sent store' ran =>
      split at committed
      · contradiction
      · next unfailed =>
        rw [if_neg unfailed]
        refine internalMonitorTxs_ok keyed ?_
        rw [ran]

private theorem addGroups_single (loaded : Loaded tm inputs store pending)
    (processes : Processes tm inputs pending final processed new)
    {changes : StoreChanges H}
    (generated : generateStoreUpdate pending final
      (inputs.clock .storeUpdate) = .ok changes) :
    (∀ group, group ∈ changes.addGroups → ∀ row,
      row ∈ store.monitoredTxsGroup → row.groupID ≠ group.groupID) ∧
      changes.addGroups.length ≤ 1 := by
  have parts := generateStoreUpdate_ok generated
  subst parts
  have added := new_groups loaded processes
  constructor
  · intro group mem row stored
    have bound := ClaimStore.le_latest stored
    have isNew := added.groupID (mem_map_of_mem mem)
    change group.groupID = _ at isNew
    omega
  · have length : ((final.groupTx.filterMap (addedRow pending
        (inputs.clock .storeUpdate))).map ClaimStore.insertGroup).length ≤
        1 := by
      generalize (final.groupTx.filterMap (addedRow pending
        (inputs.clock .storeUpdate))).map ClaimStore.insertGroup = rows
        at added
      cases added with
      | nothing none => exact Nat.zero_le 1
      | group some compressed => exact Nat.le_refl 1
    simpa using length

theorem monitorTxs_commits (keyed : store.Keyed)
    (history : ∀ row, row ∈ store.monitoredTxsGroup →
      HasHistory (tm.claimed inputs row))
    (running : ¬Stops inputs) (undisturbed : Undisturbed tm inputs store) :
    (tm.monitorTxs inputs store).err = none := by
  obtain ⟨pending, read⟩ := getPendingTxs_total tm inputs keyed
  have loaded := getPendingTxs_loaded read
  have ended : ∃ store',
      (tm.internalMonitorTxs inputs store).2 = .ok store' := by
    cases empty : pending.isEmpty with
    | true =>
      simp only [Stops, not_or, Bool.not_eq_true] at running
      exact ⟨store, by simp [internalMonitorTxs, running.2.1, read, empty]⟩
    | false =>
      rw [internalMonitorTxs_eq running read empty]
      have composes := undisturbed.composes
      rw [← loaded.chosenTxs, ← loaded.last] at composes
      obtain ⟨final, processing⟩ := (process_ok_iff
        (loaded.hasHistory history)).mpr composes
      obtain ⟨processed, new, processes⟩ :=
        process_ok (fun group => loaded.le_last) processing
      obtain ⟨changes, generated⟩ := generateStoreUpdate_total
        (inputs.clock .storeUpdate) keyed loaded processes
      obtain ⟨fresh, single⟩ := addGroups_single loaded processes generated
      obtain ⟨store', executed⟩ := execute_total
        (inputs.clock .storeUpdate) fresh single
      refine ⟨store', ?_⟩
      simp only [processing, undisturbed.execute]
      change (generateStoreUpdate pending final _ >>= fun storeUpdate =>
        storeUpdate.execute false _ store) = _
      rw [generated]
      exact executed
  obtain ⟨store', ran⟩ := ended
  simp only [Stops, not_or, Bool.not_eq_true] at running
  rw [monitorTxs, running.1]
  simp only [Bool.false_eq_true, if_false]
  split
  · next sent err failed =>
    simp [failed] at ran
  · simp [undisturbed.commit]

omit [DecidableEq H] in
private theorem execute_of_isEmpty {changes : StoreChanges H} {fault : Bool}
    {now : Nat} (empty : changes.isEmpty = true)
    (ran : changes.execute fault now store = .ok store') : store' = store := by
  obtain ⟨⟨noAdd, noUpdate⟩, noTx⟩ : (changes.addGroups = [] ∧
      changes.updateGroups = []) ∧ changes.updateTxs = [] := by
    simpa [StoreChanges.isEmpty] using empty
  rw [StoreChanges.execute, empty, noAdd, noUpdate, noTx] at ran
  simpa using ran.symm

theorem monitorTxs_rollsBack (keyed : store.Keyed)
    (history : ∀ row, row ∈ store.monitoredTxsGroup →
      HasHistory (tm.claimed inputs row))
    (running : ¬Stops inputs)
    (disturbed : ¬Undisturbed tm inputs store) :
    (tm.monitorTxs inputs store).store = store := by
  rw [monitorTxs]
  split
  · rfl
  · split
    · rfl
    · next sent store' ran =>
      split
      · rfl
      · next unfailed =>
        obtain ⟨pending, read⟩ := getPendingTxs_total tm inputs keyed
        have loaded := getPendingTxs_loaded read
        cases empty : pending.isEmpty with
        | true =>
          simp only [Stops, not_or, Bool.not_eq_true] at running
          simp only [internalMonitorTxs, running.2.1, read, empty] at ran
          injection ran with _ same
          cases same
          exact rfl
        | false =>
          rw [internalMonitorTxs_eq running read empty] at ran
          injection ran with _ ran
          obtain ⟨final, processing, ran⟩ := bind_except_ok ran
          obtain ⟨changes, generated, ran⟩ := bind_except_ok ran
          have composes := (process_ok_iff
            (loaded.hasHistory history)).mp ⟨final, processing⟩
          rw [loaded.chosenTxs, loaded.last] at composes
          cases changed : changes.isEmpty with
          | true => exact execute_of_isEmpty changed ran
          | false =>
            refine absurd ⟨?_, by simpa using unfailed, composes⟩
              disturbed
            cases failing : inputs.fault .execute with
            | false => rfl
            | true =>
              rw [StoreChanges.execute, failing, changed] at ran
              contradiction

end MonitorCompressedTxs

end BridgeService
