import BridgeService.Claimtxman.GroupRuns

/-!
# History of a group

The claims of a group are counted by its retries, and the next claim is only
sent when the last one is settled.
-/

namespace BridgeService

open List

variable {H : Type}

namespace MonitorCompressedTxs

variable {tm : MonitorCompressedTxs H} {inputs : PassInputs H}

def pendingEntries (entries : List (TxHashHistoryEntry H)) :
    List (TxHashHistoryEntry H) :=
  entries.filter TxHashHistoryEntry.isPending

section Kept

variable {β : Type} {part : TxHashHistoryEntry H → β}
  (failed : ∀ entry, part entry.receiptFailed = part entry)
  (successful : ∀ entry, part entry.receiptSuccessful = part entry)

include failed successful in
theorem map_checkedFrom (groupID txIndex : Nat)
    (entries : List (TxHashHistoryEntry H)) :
    (checkedFrom inputs groupID txIndex entries).map part =
      entries.map part := by
  induction entries generalizing txIndex with
  | nil => rfl
  | cons tx rest induction =>
    rw [checkedFrom]
    split
    · simp [induction]
    · split
      · simp [induction]
      · simp [induction]
      · split
        · simp [successful]
        · simp [induction, failed]

include failed in
private theorem map_outdatedFrom (groupID txIndex : Nat)
    (entries : List (TxHashHistoryEntry H)) :
    (tm.outdatedFrom inputs groupID txIndex entries).map part =
      entries.map part := by
  induction entries generalizing txIndex with
  | nil => rfl
  | cons tx rest induction =>
    rw [outdatedFrom, map_cons, map_cons, induction]
    split
    · rw [failed]
    · rfl

include failed successful in
theorem map_historyAfter (tm : MonitorCompressedTxs H)
    (inputs : PassInputs H) (entry : MonitoredTxGroupDBEntry H) :
    (tm.historyAfter inputs entry).map part = entry.txHashes.map part := by
  rw [historyAfter]
  split
  · rfl
  · split
    · rw [map_checkedFrom failed successful]
    · rw [map_outdatedFrom failed, map_checkedFrom failed successful]

end Kept

def hashes (entries : List (TxHashHistoryEntry H)) : List H :=
  entries.map TxHashHistoryEntry.txHash

theorem hashes_historyAfter (tm : MonitorCompressedTxs H)
    (inputs : PassInputs H) (entry : MonitoredTxGroupDBEntry H) :
    hashes (tm.historyAfter inputs entry) = hashes entry.txHashes :=
  map_historyAfter (fun _ => rfl) (fun _ => rfl) tm inputs entry

theorem length_historyAfter (tm : MonitorCompressedTxs H)
    (inputs : PassInputs H) (entry : MonitoredTxGroupDBEntry H) :
    (tm.historyAfter inputs entry).length = entry.txHashes.length := by
  have same := congrArg List.length (hashes_historyAfter tm inputs entry)
  simpa [hashes] using same

private theorem pendingEntries_cons_le {tx tx' : TxHashHistoryEntry H}
    {rest rest' : List (TxHashHistoryEntry H)}
    (head : tx'.isPending = true → tx.isPending = true)
    (tail : (pendingEntries rest').length ≤ (pendingEntries rest).length) :
    (pendingEntries (tx' :: rest')).length ≤
      (pendingEntries (tx :: rest)).length := by
  simp only [pendingEntries, filter_cons] at *
  cases old : tx.isPending with
  | true =>
    cases new : tx'.isPending with
    | true => simpa using tail
    | false =>
      simp only [if_true, length_cons]
      exact Nat.le_succ_of_le tail
  | false =>
    cases new : tx'.isPending with
    | true => simp [head new] at old
    | false => simpa using tail

theorem pending_checkedFrom (groupID txIndex : Nat)
    (entries : List (TxHashHistoryEntry H)) :
    (pendingEntries (checkedFrom inputs groupID txIndex entries)).length ≤
      (pendingEntries entries).length := by
  induction entries generalizing txIndex with
  | nil => exact le_rfl
  | cons tx rest induction =>
    have kept := fun txIndex => pendingEntries_cons_le
      (fun pending : tx.isPending = true => pending) (induction txIndex)
    have settled : ∀ {tx' : TxHashHistoryEntry H},
        tx'.isPending = false → tx'.isPending = true →
          tx.isPending = true := by
      intro tx' done pending
      simp [done] at pending
    rw [checkedFrom]
    split
    · exact kept _
    · split
      · exact kept _
      · exact kept _
      · split
        · exact pendingEntries_cons_le (settled rfl) le_rfl
        · exact pendingEntries_cons_le (settled rfl) (induction _)

theorem pending_outdatedFrom (groupID txIndex : Nat)
    (entries : List (TxHashHistoryEntry H)) :
    (pendingEntries (tm.outdatedFrom inputs groupID txIndex
      entries)).length ≤ (pendingEntries entries).length := by
  induction entries generalizing txIndex with
  | nil => exact le_rfl
  | cons tx rest induction =>
    rw [outdatedFrom]
    refine pendingEntries_cons_le ?_ (induction _)
    split
    · intro pending
      contradiction
    · exact fun pending => pending

theorem pending_historyAfter (entry : MonitoredTxGroupDBEntry H) :
    (pendingEntries (tm.historyAfter inputs entry)).length ≤
      (pendingEntries entry.txHashes).length := by
  rw [historyAfter]
  split
  · exact le_rfl
  · split
    · exact pending_checkedFrom _ _ _
    · exact Nat.le_trans (pending_outdatedFrom _ _ _)
        (pending_checkedFrom _ _ _)

structure HistoryKept (cfg : ConfigGroupingClaims)
    (entry : MonitoredTxGroupDBEntry H) : Prop where
  numRetries : entry.numRetries = entry.txHashes.length
  pending : (pendingEntries entry.txHashes).length ≤ 1
  created : entry.status = .created → entry.txHashes = []
  claiming : entry.status = .claiming → entry.txHashes ≠ []
  bounded : entry.numRetries ≤ max 1 cfg.maxRetries

variable {row entry : MonitoredTxGroupDBEntry H}

theorem HistoryKept.read {cfg : ConfigGroupingClaims}
    (kept : HistoryKept cfg row) :
    HistoryKept cfg (ClaimStore.readGroup row) :=
  ⟨kept.numRetries, kept.pending, kept.created, kept.claiming, kept.bounded⟩

theorem HistoryKept.created_row (cfg : ConfigGroupingClaims)
    (inputs : PassInputs H) (groupID : Nat) (txs : List (MonitoredTx H))
    (compressedData : Option Bytes) :
    HistoryKept cfg (createdRow inputs groupID txs compressedData) :=
  ⟨rfl, Nat.zero_le 1, fun _ => rfl, by simp [createdRow],
    Int.le_trans Int.one_nonneg (Int.le_max_left 1 _)⟩

theorem canSend_cases {cfg : ConfigGroupingClaims} {now : Nat}
    (settings : tm.cfg = cfg) (kept : HistoryKept cfg entry)
    (allowed : tm.canSendNewClaimCall now entry = true) :
    entry.txHashes = [] ∨ pendingEntries entry.txHashes = [] ∧
        entry.numRetries < cfg.maxRetries := by
  rw [canSendNewClaimCall] at allowed
  split at allowed
  · next created => exact .inl (kept.created created)
  · split at allowed
    · next none =>
      left
      rw [MonitoredTxGroupDBEntry.txHashes, none]
    · next history found =>
      have entries : history.txHashes = entry.txHashes := by
        rw [MonitoredTxGroupDBEntry.txHashes, found]
      rw [entries] at allowed
      split at allowed
      · next empty => exact .inl (length_eq_zero_iff.mp empty)
      · split at allowed
        · contradiction
        · next noPending =>
          split at allowed
          · contradiction
          · next left =>
            refine .inr ⟨?_, by rw [← settings]; omega⟩
            apply filter_eq_nil_iff.mpr
            intro tx mem pending
            apply noPending
            apply any_eq_true.mpr
            refine ⟨tx, mem, ?_⟩
            rw [TxHashHistoryEntry.isPending,
              Option.isNone_iff_eq_none] at pending
            simp [TxHashHistoryEntry.isPending,
              TxHashHistoryEntry.isOutdated, pending]

theorem incrementInt32_eq {count : Int} (natural : 0 ≤ count)
    (small : count + 1 < 2 ^ 31) : incrementInt32 count = count + 1 := by
  rw [incrementInt32]
  omega

@[simp] theorem txHashes_sentEntry (entry : MonitoredTxGroupDBEntry H)
    (txHash : H) :
    (sentEntry inputs entry txHash).txHashes = entry.txHashes ++
      [{ txHash := txHash
         receiptStatus := none
         createdAt := inputs.clock (.pendingTx entry.groupID) }] :=
  MonitoredTxGroupDBEntry.txHashes_addPendingTx
    { entry with status := .claiming } txHash
    (inputs.clock (.pendingTx entry.groupID))

@[simp] theorem status_sentEntry (entry : MonitoredTxGroupDBEntry H)
    (txHash : H) : (sentEntry inputs entry txHash).status = .claiming :=
  rfl

private theorem HistoryKept.sent {cfg : ConfigGroupingClaims}
    (settings : tm.cfg = cfg) (kept : HistoryKept cfg entry) {txHash : H}
    (sends : tm.Sends inputs entry txHash) :
    HistoryKept cfg (sentEntry inputs entry txHash) := by
  have count := kept.numRetries
  have small := cfg.maxRetries_lt
  have both : pendingEntries entry.txHashes = [] ∧
      entry.numRetries + 1 ≤ max 1 cfg.maxRetries := by
    rcases canSend_cases settings kept sends.allowed with
      empty | ⟨nothing, left⟩
    · rw [empty] at count ⊢
      refine ⟨rfl, ?_⟩
      rw [count]
      exact Int.le_max_left 1 cfg.maxRetries
    · exact ⟨nothing, Int.le_trans left (Int.le_max_right 1 _)⟩
  have next : incrementInt32 entry.numRetries = entry.numRetries + 1 :=
    incrementInt32_eq (by omega) (by omega)
  constructor
  · rw [txHashes_sentEntry, length_append, Int.natCast_add, ← count]
    exact next
  · rw [txHashes_sentEntry, pendingEntries, filter_append]
    change (pendingEntries entry.txHashes ++ _).length ≤ 1
    rw [both.1]
    exact length_filter_le _ _
  · intro created
    contradiction
  · intro _
    rw [txHashes_sentEntry]
    simp
  · change incrementInt32 entry.numRetries ≤ _
    rw [next]
    exact both.2

theorem HistoryKept.claimed {cfg : ConfigGroupingClaims}
    (settings : tm.cfg = cfg) (kept : HistoryKept cfg row) :
    HistoryKept cfg (tm.claimed inputs row) := by
  rw [MonitorCompressedTxs.claimed]
  rcases tm.sendClaim_cases inputs (ClaimStore.readGroup row) with
    ⟨txHash, sends, sent⟩ | ⟨_, log, idle⟩
  · rw [sent]
    exact kept.read.sent settings sends
  · rw [idle]
    exact ⟨kept.numRetries, kept.pending, kept.created, kept.claiming,
      kept.bounded⟩

theorem HistoryKept.hasHistory {cfg : ConfigGroupingClaims}
    (kept : HistoryKept cfg entry) : HasHistory entry := by
  intro claiming
  cases found : entry.claimTxHistory with
  | none =>
    have some := kept.claiming claiming
    rw [MonitoredTxGroupDBEntry.txHashes, found] at some
    contradiction
  | some history => rfl

theorem statusAfter_cases (entry : MonitoredTxGroupDBEntry H) :
    tm.statusAfter inputs entry = .failed ∨
      tm.statusAfter inputs entry = .confirmed ∨
      tm.statusAfter inputs entry = entry.status := by
  rw [statusAfter, checkedStatus]
  split
  · exact .inl rfl
  · split
    · exact .inr (.inl rfl)
    · exact .inr (.inr rfl)

theorem HistoryKept.advances {cfg : ConfigGroupingClaims}
    {row' : MonitoredTxGroupDBEntry H} (settings : tm.cfg = cfg)
    (kept : HistoryKept cfg row) (advances : Advances tm inputs row row') :
    HistoryKept cfg row' := by
  have before : HistoryKept cfg (tm.claimed inputs row) :=
    kept.claimed settings
  have length := length_historyAfter tm inputs (tm.claimed inputs row)
  have unfinished : ∀ status, status ≠ .failed → status ≠ .confirmed →
      row'.status = status → (tm.claimed inputs row).status = status := by
    intro status notFailed notConfirmed same
    rw [advances.status] at same
    rcases statusAfter_cases (tm.claimed inputs row) with
      failed | confirmed | kept
    · exact absurd (same.symm.trans failed) notFailed
    · exact absurd (same.symm.trans confirmed) notConfirmed
    · exact kept.symm.trans same
  constructor
  · rw [advances.numRetries, advances.txHashes, length, before.numRetries]
  · rw [advances.txHashes]
    exact Nat.le_trans (pending_historyAfter _) before.pending
  · intro created
    have empty := before.created
      (unfinished .created (by simp) (by simp) created)
    rw [advances.txHashes]
    exact length_eq_zero_iff.mp (by rw [length, empty]; rfl)
  · intro claiming
    have some := before.claiming
      (unfinished .claiming (by simp) (by simp) claiming)
    rw [advances.txHashes]
    intro empty
    rw [empty] at length
    exact some (length_eq_zero_iff.mp length.symm)
  · rw [advances.numRetries]
    exact before.bounded

end MonitorCompressedTxs

variable [DecidableEq H] {cfg : ConfigGroupingClaims}
  {store : ClaimStore H} {deposit : List ClaimDeposit}

open MonitorCompressedTxs in
theorem ClaimStore.historyKept
    (ran : ClaimStore.Run cfg (.empty deposit) store) :
    ∀ row, row ∈ store.monitoredTxsGroup → HistoryKept cfg row := by
  refine forall_groups_of_run (HistoryKept.created_row cfg) ?_ ran
  · intro tm inputs row row' settings kept advances
    exact kept.advances settings advances

/-- In every run the retries of a group count its history, at most one claim is
pending, and the status fits the history. -/
theorem ClaimStore.group_history_invariant
    (ran : ClaimStore.Run cfg (.empty deposit) store)
    (row : MonitoredTxGroupDBEntry H)
    (stored : row ∈ store.monitoredTxsGroup) :
    row.numRetries = row.txHashes.length ∧
      (row.txHashes.filter TxHashHistoryEntry.isPending).length ≤ 1 ∧
      (row.status = .created → row.claimTxHistory = none ∨ row.txHashes = []) ∧
      (row.status = .claiming → row.txHashes ≠ []) ∧
      row.numRetries ≤ max 1 cfg.maxRetries := by
  have kept := historyKept ran row stored
  exact ⟨kept.numRetries, kept.pending,
    fun created => .inr (kept.created created), kept.claiming,
    kept.bounded⟩

open SampleClaims in
theorem ClaimStore.group_history_claiming :
    ∃ (store : ClaimStore Nat) (row : MonitoredTxGroupDBEntry Nat),
      ClaimStore.Run (grouping 2 (by decide)) (.empty deposits) store ∧
      row ∈ store.monitoredTxsGroup ∧ row.status = .claiming ∧
      row.numRetries = 1 ∧ row.numRetries = row.txHashes.length := by
  let store := afterPasses (grouping 2 (by decide)) waiting
    [answers 1, answers 2]
  have ran : ClaimStore.Run (grouping 2 (by decide)) (.empty deposits) store :=
    (run_waiting _).trans (run_afterPasses _ _ _)
  have claiming : ∃ row, row ∈ store.monitoredTxsGroup ∧
      row.status = .claiming ∧ row.numRetries = 1 := by
    decide +kernel
  obtain ⟨row, stored, status, numRetries⟩ := claiming
  exact ⟨store, row, ran, stored, status, numRetries,
    (ClaimStore.group_history_invariant ran row stored).1⟩

end BridgeService
