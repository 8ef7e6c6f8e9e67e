import BridgeService.Claimtxman.MonitorCompressedTxs

/-!
# One group in a pass

What the loops over the history of a group compute, as functions on the list of
its entries, and what a pass makes of a group: the history, the status and the
status of the transactions in it.
-/

namespace BridgeService

open List

variable {H : Type}

namespace MonitorCompressedTxs

variable {tm : MonitorCompressedTxs H} {inputs : PassInputs H}

def succeedsFrom (inputs : PassInputs H) (groupID : Nat) :
    Nat → List (TxHashHistoryEntry H) → Bool
  | _, [] => false
  | txIndex, tx :: rest =>
    if !tx.isPending then succeedsFrom inputs groupID (txIndex + 1) rest
    else
      match inputs.checkTxWasMined groupID txIndex with
      | .error _ => succeedsFrom inputs groupID (txIndex + 1) rest
      | .ok none => succeedsFrom inputs groupID (txIndex + 1) rest
      | .ok (some receipt) =>
        if receipt.status = 1 ∧ 0 < receipt.logs then true
        else succeedsFrom inputs groupID (txIndex + 1) rest

def checkedFrom (inputs : PassInputs H) (groupID : Nat) :
    Nat → List (TxHashHistoryEntry H) → List (TxHashHistoryEntry H)
  | _, [] => []
  | txIndex, tx :: rest =>
    if !tx.isPending then
      tx :: checkedFrom inputs groupID (txIndex + 1) rest
    else
      match inputs.checkTxWasMined groupID txIndex with
      | .error _ => tx :: checkedFrom inputs groupID (txIndex + 1) rest
      | .ok none => tx :: checkedFrom inputs groupID (txIndex + 1) rest
      | .ok (some receipt) =>
        if receipt.status = 1 ∧ 0 < receipt.logs then
          tx.receiptSuccessful :: rest
        else
          tx.receiptFailed :: checkedFrom inputs groupID (txIndex + 1) rest

def outdatedFrom (tm : MonitorCompressedTxs H) (inputs : PassInputs H)
    (groupID : Nat) :
    Nat → List (TxHashHistoryEntry H) → List (TxHashHistoryEntry H)
  | _, [] => []
  | txIndex, tx :: rest =>
    (if tx.isPending && tx.isExhaustedTimeWaitingForReceipt
        (inputs.clock (.outdate groupID txIndex)) tm.cfg.retryTimeout then
      tx.receiptFailed
    else
      tx) :: tm.outdatedFrom inputs groupID (txIndex + 1) rest

structure SameClaims (entry entry' : MonitoredTxGroupDBEntry H) : Prop where
  groupID : entry'.groupID = entry.groupID
  compressedTxData : entry'.compressedTxData = entry.compressedTxData
  createdAt : entry'.createdAt = entry.createdAt
  numRetries : entry'.numRetries = entry.numRetries
  history : entry'.claimTxHistory.isSome = entry.claimTxHistory.isSome

theorem SameClaims.refl (entry : MonitoredTxGroupDBEntry H) :
    SameClaims entry entry :=
  ⟨rfl, rfl, rfl, rfl, rfl⟩

theorem SameClaims.trans {entry entry' entry'' : MonitoredTxGroupDBEntry H}
    (first : SameClaims entry entry') (second : SameClaims entry' entry'') :
    SameClaims entry entry'' where
  groupID := second.groupID.trans first.groupID
  compressedTxData := second.compressedTxData.trans first.compressedTxData
  createdAt := second.createdAt.trans first.createdAt
  numRetries := second.numRetries.trans first.numRetries
  history := second.history.trans first.history

private theorem modify_append_cons {α : Type} {done rest : List α} {item : α}
    {index : Nat} (here : done.length = index) (change : α → α) :
    (done ++ item :: rest).modify index change =
      done ++ change item :: rest := by
  subst here
  induction done with
  | nil => simp
  | cons first others induction => simpa using induction

def withStatus (status : Option MonitoredTxStatus)
    (txs : List (MonitoredTx H)) : List (MonitoredTx H) :=
  txs.map fun tx => { tx with status := status.getD tx.status }

@[simp] theorem withStatus_none (txs : List (MonitoredTx H)) :
    withStatus none txs = txs :=
  map_id txs

theorem withStatus_withStatus (first second : Option MonitoredTxStatus)
    (txs : List (MonitoredTx H)) :
    withStatus second (withStatus first txs) =
      withStatus (second.or first) txs := by
  cases second with
  | none => simp
  | some status => simp [withStatus]

structure Became (group : MonitoredTxGroup H)
    (entries : List (TxHashHistoryEntry H)) (status : MonitoredTxGroupStatus)
    (txStatus : Option MonitoredTxStatus) (group' : MonitoredTxGroup H) :
    Prop where
  same : SameClaims group.dbEntry group'.dbEntry
  txHashes : group'.dbEntry.txHashes = entries
  status : group'.dbEntry.status = status
  txs : group'.txs = withStatus txStatus group.txs

variable {group group' : MonitoredTxGroup H}

theorem Became.trans {group'' : MonitoredTxGroup H}
    {entries entries' : List (TxHashHistoryEntry H)}
    {status status' : MonitoredTxGroupStatus}
    {txStatus txStatus' : Option MonitoredTxStatus}
    (first : Became group entries status txStatus group')
    (second : Became group' entries' status' txStatus' group'') :
    Became group entries' status' (txStatus'.or txStatus) group'' where
  same := first.same.trans second.same
  txHashes := second.txHashes
  status := second.status
  txs := by rw [second.txs, first.txs, withStatus_withStatus]

private theorem SameClaims.modifyTx (entry : MonitoredTxGroupDBEntry H)
    (txIndex : Nat) (change : TxHashHistoryEntry H → TxHashHistoryEntry H)
    (log : Option (GroupLog H)) (status : MonitoredTxGroupStatus) :
    SameClaims entry
      { entry.modifyTx txIndex change with
        lastLog := log
        status := status } :=
  ⟨rfl, rfl, rfl, rfl, by simp [MonitoredTxGroupDBEntry.modifyTx]⟩

private theorem Became.of_failed {group group' : MonitoredTxGroup H}
    {entries : List (TxHashHistoryEntry H)} {status : MonitoredTxGroupStatus}
    {txStatus : Option MonitoredTxStatus} {txIndex : Nat} {log : GroupLog H}
    (next : Became (onFinishClaimGroupTxFailed group txIndex log) entries
      status txStatus group') : Became group entries status txStatus group' :=
  ⟨(SameClaims.modifyTx group.dbEntry txIndex _ _ _).trans next.same,
    next.txHashes, next.status, next.txs⟩

private theorem txHashes_failed {group : MonitoredTxGroup H} {txIndex : Nat}
    {tx : TxHashHistoryEntry H} {done rest : List (TxHashHistoryEntry H)}
    (split : group.dbEntry.txHashes = done ++ tx :: rest)
    (here : done.length = txIndex) (log : GroupLog H) :
    (onFinishClaimGroupTxFailed group txIndex log).dbEntry.txHashes =
      (done ++ [tx.receiptFailed]) ++ rest := by
  change (group.dbEntry.modifyTx txIndex _).txHashes = _
  rw [MonitoredTxGroupDBEntry.txHashes_modifyTx, split,
    modify_append_cons here]
  simp

def checkedStatus (succeeds : Bool) (status : MonitoredTxGroupStatus) :
    MonitoredTxGroupStatus :=
  if succeeds then .confirmed else status

def checkedTxStatus (succeeds : Bool) : Option MonitoredTxStatus :=
  if succeeds then some .confirmed else none

theorem checkReceiptsFrom_became (inputs : PassInputs H)
    (group : MonitoredTxGroup H)
    (txIndex : Nat) (done rest : List (TxHashHistoryEntry H))
    (split : group.dbEntry.txHashes = done ++ rest)
    (here : done.length = txIndex) :
    Became group
      (done ++ checkedFrom inputs group.dbEntry.groupID txIndex rest)
      (checkedStatus (succeedsFrom inputs group.dbEntry.groupID txIndex rest)
        group.dbEntry.status)
      (checkedTxStatus
        (succeedsFrom inputs group.dbEntry.groupID txIndex rest))
      (checkReceiptsFrom inputs group txIndex rest) := by
  induction rest generalizing group txIndex done with
  | nil =>
    refine ⟨.refl _, ?_, rfl, (withStatus_none _).symm⟩
    simpa [checkReceiptsFrom, checkedFrom] using split
  | cons tx rest induction =>
    have shifted : (done ++ [tx]).length = txIndex + 1 := by
      simp [here]
    rw [checkReceiptsFrom, checkedFrom, succeedsFrom]
    cases pending : tx.isPending with
    | false =>
      have next := induction group (txIndex + 1) (done ++ [tx])
        (by simpa using split) shifted
      simpa using next
    | true =>
      simp only [Bool.not_true, Bool.false_eq_true, if_false]
      have logged : ∀ log, Became group
          (done ++ tx :: checkedFrom inputs group.dbEntry.groupID
            (txIndex + 1) rest)
          (checkedStatus (succeedsFrom inputs group.dbEntry.groupID
            (txIndex + 1) rest) group.dbEntry.status)
          (checkedTxStatus (succeedsFrom inputs group.dbEntry.groupID
            (txIndex + 1) rest))
          (checkReceiptsFrom inputs (logGroup group log) (txIndex + 1)
            rest) := by
        intro log
        obtain ⟨same, txHashes, status, txs⟩ :=
          induction (logGroup group log) (txIndex + 1) (done ++ [tx])
            (by rw [append_assoc]; exact split) shifted
        refine ⟨?_, by simpa [logGroup] using txHashes, status, txs⟩
        exact ⟨same.groupID, same.compressedTxData, same.createdAt,
          same.numRetries, same.history⟩
      cases answer : inputs.checkTxWasMined group.dbEntry.groupID
          txIndex with
      | error err => exact logged _
      | ok mined =>
        cases mined with
        | none => exact logged _
        | some receipt =>
          by_cases confirms :
              receipt.status = 1 ∧ 0 < receipt.logs
          · simp only [confirms, and_self, if_true]
            refine ⟨.modifyTx _ _ _ _ _, ?_, rfl, rfl⟩
            change (group.dbEntry.modifyTx txIndex _).txHashes = _
            rw [MonitoredTxGroupDBEntry.txHashes_modifyTx, split,
              modify_append_cons here]
          · simp only [confirms, if_false]
            have next := Became.of_failed (induction _ (txIndex + 1)
              (done ++ [tx.receiptFailed])
              (txHashes_failed split here (.receiptFailedOrNoLogs tx.txHash))
              (by simp [here]))
            rwa [append_assoc] at next

theorem outdateFrom_became (tm : MonitorCompressedTxs H)
    (inputs : PassInputs H) (group : MonitoredTxGroup H) (txIndex : Nat)
    (done rest : List (TxHashHistoryEntry H))
    (split : group.dbEntry.txHashes = done ++ rest)
    (here : done.length = txIndex) :
    Became group
      (done ++ tm.outdatedFrom inputs group.dbEntry.groupID txIndex rest)
      group.dbEntry.status none (tm.outdateFrom inputs group txIndex
        rest) := by
  induction rest generalizing group txIndex done with
  | nil =>
    refine ⟨.refl _, ?_, rfl, (withStatus_none _).symm⟩
    simpa [outdateFrom, outdatedFrom] using split
  | cons tx rest induction =>
    rw [outdateFrom, outdatedFrom]
    split
    · have next := Became.of_failed (induction _ (txIndex + 1)
        (done ++ [tx.receiptFailed])
        (txHashes_failed split here (.reachedMaximumWaitTime tx.txHash))
        (by simp [here]))
      rwa [append_assoc] at next
    · have next := induction group (txIndex + 1) (done ++ [tx])
        (by simpa using split) (by simp [here])
      simpa using next

section Sending

variable {entry : MonitoredTxGroupDBEntry H}

structure Sends (tm : MonitorCompressedTxs H) (inputs : PassInputs H)
    (entry : MonitoredTxGroupDBEntry H) (txHash : H) : Prop where
  compressed : entry.compressedTxData ≠ none
  allowed : tm.canSendNewClaimCall
    (inputs.clock (.canSend entry.groupID)) entry = true
  estimated : inputs.estimateGas entry.groupID = .ok ()
  accepted : inputs.sendCompressedClaims entry.groupID = .ok txHash

def sentEntry (inputs : PassInputs H) (entry : MonitoredTxGroupDBEntry H)
    (txHash : H) : MonitoredTxGroupDBEntry H :=
  { { entry with status := .claiming }.addPendingTx txHash
      (inputs.clock (.pendingTx entry.groupID)) with
    numRetries := incrementInt32 entry.numRetries }

theorem sendClaim_sends {txHash : H} (sends : tm.Sends inputs entry txHash) :
    tm.sendClaim inputs false entry =
      (sentEntry inputs entry txHash, some txHash) := by
  simp [sendClaim, sends.compressed, sends.allowed, sends.estimated,
    sends.accepted, sentEntry, MonitoredTxGroupDBEntry.addPendingTx]

theorem sendClaim_idle (idle : ∀ txHash, ¬tm.Sends inputs entry txHash) :
    ∃ log, tm.sendClaim inputs false entry =
      ({ entry with lastLog := log }, none) := by
  rw [sendClaim]
  by_cases compressed : entry.compressedTxData = none
  · exact ⟨entry.lastLog, by rw [if_pos compressed]⟩
  · cases allowed : tm.canSendNewClaimCall
        (inputs.clock (.canSend entry.groupID)) entry with
    | false => exact ⟨entry.lastLog, by simp [compressed]⟩
    | true =>
      cases estimated : inputs.estimateGas entry.groupID with
      | error err =>
        exact ⟨some (.sendFailed entry.groupID err),
          by simp [compressed]⟩
      | ok gas =>
        cases accepted :
            inputs.sendCompressedClaims entry.groupID with
        | error err =>
          exact ⟨some (.sendFailed entry.groupID err),
            by simp [compressed]⟩
        | ok txHash =>
          exact absurd ⟨compressed, allowed, estimated, accepted⟩ (idle txHash)

theorem sendClaim_cases (tm : MonitorCompressedTxs H)
    (inputs : PassInputs H) (entry : MonitoredTxGroupDBEntry H) :
    (∃ txHash, tm.Sends inputs entry txHash ∧ tm.sendClaim inputs false entry =
        (sentEntry inputs entry txHash, some txHash)) ∨
      (∀ txHash, ¬tm.Sends inputs entry txHash) ∧
        ∃ log, tm.sendClaim inputs false entry =
          ({ entry with lastLog := log }, none) := by
  by_cases sends : ∃ txHash, tm.Sends inputs entry txHash
  · obtain ⟨txHash, sends⟩ := sends
    exact .inl ⟨txHash, sends, sendClaim_sends sends⟩
  · have idle := fun txHash sent => sends ⟨txHash, sent⟩
    exact .inr ⟨idle, sendClaim_idle idle⟩

end Sending

def processGroup (tm : MonitorCompressedTxs H) (inputs : PassInputs H)
    (group : MonitoredTxGroup H) : Except PassErr (MonitoredTxGroup H) := do
  let checked ← checkReceipt inputs
    { group with dbEntry := (tm.sendClaim inputs false group.dbEntry).1 }
  tm.outdateClaim inputs checked

def confirms (inputs : PassInputs H) (entry : MonitoredTxGroupDBEntry H) :
    Bool :=
  entry.status == .claiming &&
    succeedsFrom inputs entry.groupID 0 entry.txHashes

def historyAfter (tm : MonitorCompressedTxs H) (inputs : PassInputs H)
    (entry : MonitoredTxGroupDBEntry H) : List (TxHashHistoryEntry H) :=
  if entry.status ≠ .claiming then entry.txHashes
  else if confirms inputs entry then
    checkedFrom inputs entry.groupID 0 entry.txHashes
  else
    tm.outdatedFrom inputs entry.groupID 0
      (checkedFrom inputs entry.groupID 0 entry.txHashes)

def Exhausted (tm : MonitorCompressedTxs H)
    (entry : MonitoredTxGroupDBEntry H) : Prop :=
  tm.cfg.maxRetries ≤ entry.numRetries

instance (tm : MonitorCompressedTxs H) (entry : MonitoredTxGroupDBEntry H) :
    Decidable (tm.Exhausted entry) :=
  inferInstanceAs (Decidable (_ ≤ _))

def statusAfter (tm : MonitorCompressedTxs H) (inputs : PassInputs H)
    (entry : MonitoredTxGroupDBEntry H) : MonitoredTxGroupStatus :=
  if tm.Exhausted entry then .failed
  else checkedStatus (confirms inputs entry) entry.status

def txStatusAfter (tm : MonitorCompressedTxs H) (inputs : PassInputs H)
    (entry : MonitoredTxGroupDBEntry H) : Option MonitoredTxStatus :=
  if tm.Exhausted entry then some .failed
  else checkedTxStatus (confirms inputs entry)

def Processed (tm : MonitorCompressedTxs H) (inputs : PassInputs H)
    (claimed group' : MonitoredTxGroup H) : Prop :=
  Became claimed (tm.historyAfter inputs claimed.dbEntry)
    (tm.statusAfter inputs claimed.dbEntry)
    (tm.txStatusAfter inputs claimed.dbEntry) group'

private theorem txHashes_of_history {entry : MonitoredTxGroupDBEntry H}
    {history : TxHistoryV2 H} (found : entry.claimTxHistory = some history) :
    history.txHashes = entry.txHashes := by
  rw [MonitoredTxGroupDBEntry.txHashes, found]

theorem Exhausted.congr {entry entry' : MonitoredTxGroupDBEntry H}
    (same : SameClaims entry entry') :
    tm.Exhausted entry' ↔ tm.Exhausted entry := by
  rw [Exhausted, Exhausted, same.numRetries]

theorem Became.failExhausted (tm : MonitorCompressedTxs H)
    {entries : List (TxHashHistoryEntry H)} {status : MonitoredTxGroupStatus}
    {txStatus : Option MonitoredTxStatus}
    (before : Became group entries status txStatus group') :
    Became group entries
      (if tm.Exhausted group.dbEntry then .failed else status)
      (if tm.Exhausted group.dbEntry then some .failed else txStatus)
      (tm.failExhausted group') := by
  by_cases exhausted : tm.Exhausted group'.dbEntry
  · have earlier := (Exhausted.congr before.same).mp exhausted
    have givenUp : tm.failExhausted group' = onFailGroup group' :=
      if_pos exhausted
    simp only [earlier, if_true, givenUp]
    have failed : Became group' entries .failed (some .failed)
        (onFailGroup group') :=
      ⟨⟨rfl, rfl, rfl, rfl, rfl⟩, before.txHashes, rfl, rfl⟩
    exact before.trans failed
  · have earlier := mt (Exhausted.congr before.same).mpr exhausted
    have kept : tm.failExhausted group' = group' := if_neg exhausted
    simp only [earlier, if_false, kept]
    exact before

private theorem processed_claiming {claimed : MonitoredTxGroup H}
    {history : TxHistoryV2 H} (claiming : claimed.dbEntry.status = .claiming)
    (found : claimed.dbEntry.claimTxHistory = some history)
    (ran : tm.outdateClaim inputs
      (checkReceiptsFrom inputs claimed 0 history.txHashes) = .ok group') :
    Processed tm inputs claimed group' := by
  have entries := txHashes_of_history found
  have checked := checkReceiptsFrom_became inputs claimed 0 []
    history.txHashes entries.symm rfl
  rw [entries, nil_append] at checked
  rw [entries] at ran
  have answer : confirms inputs claimed.dbEntry =
      succeedsFrom inputs claimed.dbEntry.groupID 0
        claimed.dbEntry.txHashes := by
    simp [confirms, claiming]
  rw [← answer] at checked
  rw [Processed, statusAfter, txStatusAfter, historyAfter,
    if_neg (by simp [claiming])]
  rw [outdateClaim] at ran
  cases confirmed : confirms inputs claimed.dbEntry with
  | true =>
    rw [confirmed] at checked
    rw [if_neg (by rw [checked.status]; simp [checkedStatus])] at ran
    cases ran
    exact checked.failExhausted tm
  | false =>
    rw [confirmed] at checked
    have status : (checkReceiptsFrom inputs claimed 0
        claimed.dbEntry.txHashes).dbEntry.status = .claiming := by
      rw [checked.status]
      simp [checkedStatus, claiming]
    rw [if_pos status] at ran
    cases found' : (checkReceiptsFrom inputs claimed 0
        claimed.dbEntry.txHashes).dbEntry.claimTxHistory with
    | none =>
      rw [found'] at ran
      contradiction
    | some history' =>
      rw [found'] at ran
      cases ran
      have outdated := outdateFrom_became tm inputs _ 0 []
        history'.txHashes (txHashes_of_history found').symm rfl
      rw [status, nil_append, checked.same.groupID,
        txHashes_of_history found', checked.txHashes] at outdated
      have both := (checked.trans outdated).failExhausted tm
      rw [txHashes_of_history found', checked.txHashes]
      simpa [checkedStatus, claiming, checkedTxStatus] using both

def HasHistory (entry : MonitoredTxGroupDBEntry H) : Prop :=
  entry.status = .claiming → entry.claimTxHistory.isSome = true

theorem processGroup_ok (ran : tm.processGroup inputs group = .ok group') :
    Processed tm inputs
      { group with dbEntry := (tm.sendClaim inputs false group.dbEntry).1 }
      group' := by
  rw [processGroup] at ran
  generalize claimed_eq : { group with
    dbEntry := (tm.sendClaim inputs false group.dbEntry).1 } = claimed at *
  rw [checkReceipt] at ran
  by_cases claiming : claimed.dbEntry.status = .claiming
  · rw [if_pos claiming] at ran
    cases found : claimed.dbEntry.claimTxHistory with
    | none =>
      rw [found] at ran
      contradiction
    | some history =>
      rw [found] at ran
      exact processed_claiming claiming found ran
  · rw [if_neg claiming] at ran
    change tm.outdateClaim inputs claimed = .ok group' at ran
    rw [outdateClaim, if_neg claiming] at ran
    cases ran
    have start : Became claimed claimed.dbEntry.txHashes
        claimed.dbEntry.status none claimed :=
      ⟨.refl _, rfl, rfl, (withStatus_none _).symm⟩
    have confirmed : confirms inputs claimed.dbEntry = false := by
      simp [confirms, claiming]
    rw [Processed, statusAfter, txStatusAfter, historyAfter,
      if_pos claiming, confirmed]
    exact start.failExhausted tm

private theorem outdateClaim_total (group : MonitoredTxGroup H)
    (history : HasHistory group.dbEntry) :
    ∃ group', tm.outdateClaim inputs group = .ok group' := by
  rw [outdateClaim]
  by_cases claiming : group.dbEntry.status = .claiming
  · rw [if_pos claiming]
    obtain ⟨found, history⟩ := Option.isSome_iff_exists.mp (history claiming)
    rw [history]
    exact ⟨_, rfl⟩
  · rw [if_neg claiming]
    exact ⟨_, rfl⟩

theorem processGroup_total (group : MonitoredTxGroup H)
    (history : HasHistory (tm.sendClaim inputs false group.dbEntry).1) :
    ∃ group', tm.processGroup inputs group = .ok group' := by
  rw [processGroup]
  generalize claimed_eq : { group with
    dbEntry := (tm.sendClaim inputs false group.dbEntry).1 } = claimed
  have history : HasHistory claimed.dbEntry := by
    rw [← claimed_eq]
    exact history
  rw [checkReceipt]
  by_cases claiming : claimed.dbEntry.status = .claiming
  · rw [if_pos claiming]
    obtain ⟨found, some⟩ := Option.isSome_iff_exists.mp (history claiming)
    rw [some]
    have checked := checkReceiptsFrom_became inputs claimed 0 []
      found.txHashes (txHashes_of_history some).symm rfl
    apply outdateClaim_total
    intro _
    rw [checked.same.history]
    exact history claiming
  · rw [if_neg claiming]
    exact outdateClaim_total claimed history

end MonitorCompressedTxs

end BridgeService
