import BridgeService.Claimtxman.SentClaims

/-!
# Members of a group

Which claims form a group is stored twice: a group has the deposits of its
claims, and every transaction has the group that it belongs to.  In every run
the two agree, and a group keeps its claims for good.  A transaction that is
confirmed or failed is never changed again.
-/

namespace BridgeService

open Rows List MonitorCompressedTxs

variable {H : Type}

namespace ClaimStore

def members (store : ClaimStore H) : List (Nat × List Nat) :=
  store.monitoredTxsGroup.map fun row => (row.groupID, row.depositIDs)

variable {store store' : ClaimStore H}

/-- A transaction that is neither confirmed nor failed may get a status and,
if it has none, a group. -/
structure TxLater (tx tx' : MonitoredTx H) : Prop where
  only : { tx' with
    status := tx.status
    groupID := tx.groupID
    updatedAt := tx.updatedAt } = tx
  group : tx.groupID.isSome = true → tx'.groupID = tx.groupID
  finished : tx.status = .confirmed ∨ tx.status = .failed → tx' = tx

structure GroupLater (row row' : MonitoredTxGroupDBEntry H) : Prop where
  groupID : row'.groupID = row.groupID
  compressedTxData : row'.compressedTxData = row.compressedTxData
  createdAt : row'.createdAt = row.createdAt
  history : hashes row.txHashes <+: hashes row'.txHashes

structure Later (store store' : ClaimStore H) : Prop where
  members : store.members <+: store'.members
  groups : ∀ row, row ∈ store.monitoredTxsGroup →
    ∃ row', row' ∈ store'.monitoredTxsGroup ∧ GroupLater row row'
  txs : ∀ tx, tx ∈ store.monitoredTxs →
    ∃ tx', tx' ∈ store'.monitoredTxs ∧ TxLater tx tx'

private theorem TxLater.refl (tx : MonitoredTx H) : TxLater tx tx :=
  ⟨rfl, fun _ => rfl, fun _ => rfl⟩

private theorem TxLater.trans {tx tx' tx'' : MonitoredTx H}
    (first : TxLater tx tx') (second : TxLater tx' tx'') :
    TxLater tx tx'' where
  only := by
    rw [← first.only, ← second.only]
  group hasGroup := by
    rw [second.group (by rwa [first.group hasGroup]), first.group hasGroup]
  finished ended := by
    have same := first.finished ended
    rw [same] at second
    exact second.finished ended

private theorem Later.refl (store : ClaimStore H) : Later store store :=
  ⟨prefix_rfl, fun row stored => ⟨row, stored, rfl, rfl, rfl, prefix_rfl⟩,
    fun tx stored => ⟨tx, stored, .refl tx⟩⟩

private theorem Later.trans {store'' : ClaimStore H}
    (first : Later store store') (second : Later store' store'') :
    Later store store'' where
  members := first.members.trans second.members
  groups row stored := by
    obtain ⟨row', stored', one⟩ := first.groups row stored
    obtain ⟨row'', stored'', other⟩ := second.groups row' stored'
    exact ⟨row'', stored'', other.groupID.trans one.groupID,
      other.compressedTxData.trans one.compressedTxData,
      other.createdAt.trans one.createdAt, one.history.trans other.history⟩
  txs tx stored := by
    obtain ⟨tx', stored', one⟩ := first.txs tx stored
    obtain ⟨tx'', stored'', other⟩ := second.txs tx' stored'
    exact ⟨tx'', stored'', one.trans other⟩

private theorem groupLater_of_step {tm : MonitorCompressedTxs H}
    {inputs : PassInputs H} {row row' : MonitoredTxGroupDBEntry H}
    (step : GroupStep tm inputs store row row') : GroupLater row row' := by
  cases step with
  | idle empty => exact ⟨rfl, rfl, rfl, prefix_rfl⟩
  | advance occupied advances =>
    refine ⟨advances.groupID, advances.compressedTxData, advances.createdAt,
      ?_⟩
    rw [advances.txHashes, hashes_historyAfter, claimed]
    rcases tm.sendClaim_cases inputs (readGroup row) with
      ⟨txHash, _, sent⟩ | ⟨_, log, idle⟩
    · rw [sent, txHashes_sentEntry, hashes, hashes, map_append]
      exact prefix_append _ _
    · rw [idle]
      exact prefix_rfl

end ClaimStore

namespace StoreChanges

variable {changes : StoreChanges H} {store store' : ClaimStore H}

private theorem updateGroups_members (now : Nat)
    (groups : List (MonitoredTxGroupDBEntry H)) (store : ClaimStore H) :
    (groups.foldl (fun store mTxGroup => store.updateMonitoredTxsGroup
      { mTxGroup with updatedAt := now }) store).members =
      store.members := by
  induction groups generalizing store with
  | nil => rfl
  | cons group rest induction =>
    rw [foldl_cons, induction, ClaimStore.updateMonitoredTxsGroup,
      ClaimStore.members, map_map]
    apply map_congr_left
    intro row _
    simp only [Function.comp_apply]
    split <;> rfl

theorem execute_members {fault : Bool} {now : Nat}
    (ran : changes.execute fault now store = .ok store') :
    store.members <+: store'.members := by
  rw [execute] at ran
  split at ran
  · contradiction
  · split at ran
    · contradiction
    · next added addedGroups =>
      cases ran
      rw [updateTxs_eq]
      change _ <+: ClaimStore.members (foldl _ added _)
      rw [updateGroups_members, addGroups_ok addedGroups]
      simp [ClaimStore.members]

end StoreChanges

variable [DecidableEq H]

namespace MonitorCompressedTxs

variable {tm : MonitorCompressedTxs H} {inputs : PassInputs H}
  {store store' : ClaimStore H}

theorem monitorTxs_members :
    store.members <+: (tm.monitorTxs inputs store).store.members := by
  rw [monitorTxs]
  split
  · exact prefix_rfl
  split
  · exact prefix_rfl
  next sent store' ran =>
  split
  · exact prefix_rfl
  rw [internalMonitorTxs] at ran
  split at ran
  · cases ran
  split at ran
  · cases ran
  split at ran
  · cases ran
    exact prefix_rfl
  split at ran
  · cases ran
  split at ran
  · cases ran
  obtain ⟨final, _, ran⟩ := bind_except_ok (Prod.mk.inj ran).2
  obtain ⟨changes, _, ran⟩ := bind_except_ok ran
  exact StoreChanges.execute_members ran

def Owns (store : ClaimStore H) (groupID depositID : Nat) : Prop :=
  ∃ tx, tx ∈ store.monitoredTxs ∧ tx.groupID = some groupID ∧
    tx.depositID = depositID

private theorem TxStep.groupID_iff {tx tx' : MonitoredTx H} {groupID : Nat}
    (step : TxStep tm inputs store tx tx') :
    tx'.groupID = some groupID ↔ tx.groupID = some groupID ∨
      groupID = store.getLatestMonitoredTxGroupID + 1 ∧
        tx ∈ tm.chosen inputs store := by
  cases step with
  | idle free passed => simp [passed]
  | grouped updatedAt active stored grouped =>
    have passed : tx ∉ tm.chosen inputs store := by
      intro chosen
      simp [(mem_chosen chosen).2] at grouped
    simp [passed]
  | chosen updatedAt chosen =>
    simp [(mem_chosen chosen).2, chosen, eq_comm]

private theorem Effect.owns_iff (effect : Effect tm inputs store store')
    {groupID depositID : Nat} :
    Owns store' groupID depositID ↔ Owns store groupID depositID ∨
      groupID = store.getLatestMonitoredTxGroupID + 1 ∧
        depositID ∈ (tm.chosen inputs store).map MonitoredTx.depositID := by
  constructor
  · rintro ⟨tx', stored', grouped, rfl⟩
    obtain ⟨tx, stored, step⟩ := effect.mem_txs stored'
    rw [step.depositID]
    rcases step.groupID_iff.mp grouped with kept | ⟨new, chosen⟩
    · exact .inl ⟨tx, stored, kept, rfl⟩
    · exact .inr ⟨new, mem_map_of_mem chosen⟩
  · rintro (⟨tx, stored, kept, rfl⟩ | ⟨new, member⟩)
    · obtain ⟨tx', stored', step⟩ := SideBySide.exists_right effect.txs stored
      exact ⟨tx', stored', step.groupID_iff.mpr (.inl kept), step.depositID⟩
    · obtain ⟨tx, chosen, rfl⟩ := mem_map.mp member
      obtain ⟨tx', stored', step⟩ := SideBySide.exists_right effect.txs
        (mem_activeTxs.mp (mem_chosen chosen).1).1
      exact ⟨tx', stored', step.groupID_iff.mpr (.inr ⟨new, chosen⟩),
        step.depositID⟩

end MonitorCompressedTxs

namespace ClaimStore

variable {cfg : ConfigGroupingClaims} {store store' : ClaimStore H}
  {deposit : List ClaimDeposit}

/-- A transaction is in a group that is stored, and a group was made for the
deposits of the transactions that are in it, and there is one. -/
structure Agrees (store : ClaimStore H) : Prop where
  known : ∀ tx, tx ∈ store.monitoredTxs → ∀ groupID,
    tx.groupID = some groupID →
    ∃ row, row ∈ store.monitoredTxsGroup ∧ row.groupID = groupID
  members : ∀ row, row ∈ store.monitoredTxsGroup → row.depositIDs ≠ [] ∧
    ∀ depositID, depositID ∈ row.depositIDs ↔
      Owns store row.groupID depositID

omit [DecidableEq H] in
private theorem depositIDs_eq (keyed' : store'.Keyed)
    (kept : store.members <+: store'.members)
    {row row' : MonitoredTxGroupDBEntry H}
    (rowIn : row ∈ store.monitoredTxsGroup)
    (rowIn' : row' ∈ store'.monitoredTxsGroup)
    (sameID : row'.groupID = row.groupID) :
    row'.depositIDs = row.depositIDs := by
  obtain ⟨other, otherIn, members⟩ :=
    mem_map.mp (kept.subset (mem_map_of_mem rowIn))
  injection members with otherID otherMembers
  rw [← otherMembers, inj_on_of_nodup_map keyed'.groups rowIn' otherIn
    (sameID.trans otherID.symm)]

private theorem Agrees.pass {tm : MonitorCompressedTxs H}
    {inputs : PassInputs H} (agrees : store.Agrees) (keyed : store.Keyed)
    (effect : Effect tm inputs store store')
    (kept : store.members <+: store'.members) : store'.Agrees := by
  refine ⟨(effect.keyed keyed).known, fun row' rowIn' => ?_⟩
  simp only [effect.owns_iff]
  rcases effect.mem_groups rowIn' with
    ⟨row, rowIn, step⟩ | ⟨compressedData, some, _, rfl⟩
  · have same := depositIDs_eq (effect.keyed keyed) kept rowIn rowIn'
      step.groupID
    have old : row.groupID ≠ store.getLatestMonitoredTxGroupID + 1 := by
      have bound := ClaimStore.le_latest rowIn
      omega
    simpa [step.groupID, same, old] using agrees.members row rowIn
  · have unused : ∀ depositID, ¬Owns store
        (store.getLatestMonitoredTxGroupID + 1) depositID := by
      rintro depositID ⟨tx, stored, grouped, _⟩
      obtain ⟨row, rowIn, same⟩ := keyed.known tx stored _ grouped
      have bound := ClaimStore.le_latest rowIn
      omega
    simpa [createdRow, unused] using some

/-- The two tables agree in every state of every run. -/
theorem groups_and_txs_agree
    (ran : ClaimStore.Run cfg (.empty deposit) store) : store.Agrees := by
  induction ran with
  | refl => exact ⟨nofun, nofun⟩
  | tail earlier step agrees =>
    have stepped := step
    cases step with
    | pass tm inputs settings ran =>
      subst ran
      rcases monitorTxs_cases (keyed_of_run earlier) with same | effect
      · rw [same]
        exact agrees
      · exact agrees.pass (keyed_of_run earlier) effect monitorTxs_members
    | addClaimTx mTx now _ _ single _ ran =>
      have known := (keyed_of_run (earlier.tail stepped)).known
      subst ran
      refine ⟨known, fun row rowIn => ?_⟩
      rw [addClaimTx_monitoredTxsGroup] at rowIn
      obtain ⟨some, owned⟩ := agrees.members row rowIn
      refine ⟨some, fun depositID => ?_⟩
      rw [owned, Owns, Owns]
      rcases ClaimStore.addClaimTx_cases _ mTx now with same | ⟨_, added⟩
      · rw [same]
      · simp [added, or_and_right, exists_or, single]
    | deposits deposit ran =>
      subst ran
      exact ⟨agrees.known, agrees.members⟩

private theorem txLater_of_step {tm : MonitorCompressedTxs H}
    {inputs : PassInputs H} {tx tx' : MonitoredTx H}
    (step : TxStep tm inputs store tx tx') : TxLater tx tx' := by
  have ended : tm.Active store tx →
      ¬(tx.status = .confirmed ∨ tx.status = .failed) := by
    rintro ⟨active, _⟩ (confirmed | failed)
    · simp [confirmed] at active
    · simp [failed] at active
  cases step with
  | idle free passed => exact .refl tx
  | grouped updatedAt active stored grouped =>
    exact ⟨rfl, fun _ => rfl, fun finished => absurd finished (ended active)⟩
  | chosen updatedAt chosen =>
    obtain ⟨listed, single⟩ := mem_chosen chosen
    refine ⟨rfl, by simp [single], fun finished => ?_⟩
    exact absurd finished (ended (mem_activeTxs.mp listed).2)

private theorem Step.later (step : ClaimStore.Step cfg store store')
    (keyed : store.Keyed) : Later store store' := by
  cases step with
  | pass tm inputs settings ran =>
    subst ran
    rcases monitorTxs_cases keyed with same | effect
    · rw [same]
      exact .refl store
    · refine ⟨monitorTxs_members, fun row stored => ?_, fun tx stored => ?_⟩
      · obtain ⟨row', stored', step⟩ := effect.exists_group stored
        exact ⟨row', stored', groupLater_of_step step⟩
      · obtain ⟨tx', stored', step⟩ :=
          SideBySide.exists_right effect.txs stored
        exact ⟨tx', stored', txLater_of_step step⟩
  | addClaimTx mTx now _ _ _ _ ran =>
    subst ran
    rcases store.addClaimTx_cases mTx now with same | ⟨_, added⟩
    · rw [same]
      exact .refl store
    · rw [added]
      exact ⟨prefix_rfl, (Later.refl store).groups, fun tx stored =>
        ⟨tx, mem_append_left _ stored, .refl tx⟩⟩
  | deposits deposit ran =>
    subst ran
    exact ⟨prefix_rfl, (Later.refl store).groups, (Later.refl store).txs⟩

/-- No step of a run takes back what was stored before. -/
theorem stored_claims_kept
    (ran : ClaimStore.Run cfg (.empty deposit) store)
    (later : ClaimStore.Run cfg store store') : Later store store' := by
  induction later with
  | refl => exact .refl store
  | tail earlier step induction =>
    exact induction.trans (step.later (keyed_of_run (ran.trans earlier)))

end ClaimStore

namespace SampleClaims

theorem grouped_claims_agree :
    grouped.members = [(1, [1])] ∧ grouped.Agrees :=
  ⟨by decide +kernel, ClaimStore.groups_and_txs_agree run_grouped⟩

theorem first_group_kept :
    (afterPasses (grouping 2 (by decide)) grouped [answers 2]).members =
        [(1, [1]), (2, [2])] ∧
      ClaimStore.Later grouped
        (afterPasses (grouping 2 (by decide)) grouped [answers 2]) :=
  ⟨by decide +kernel, ClaimStore.stored_claims_kept run_grouped
    (run_afterPasses _ _ _)⟩

end SampleClaims

end BridgeService
