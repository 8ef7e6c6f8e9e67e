import BridgeService.Claimtxman.GroupHistory
import BridgeService.Claimtxman.GroupTxs
import Mathlib.Data.List.Infix

/-!
# Outcome of a group

A group ends as confirmed or as failed.  The retries of a group are counted
when its claim is sent, and a group whose retries are used up fails at the end
of the same pass, whatever the claim that was just sent has come to.
-/

namespace BridgeService

open List

variable {H : Type}

namespace MonitorCompressedTxs

variable {tm : MonitorCompressedTxs H} {inputs : PassInputs H}

section Entries

variable {groupID : Nat}

private theorem not_pending_of_cons {tx : TxHashHistoryEntry H}
    {rest : List (TxHashHistoryEntry H)}
    (settled : pendingEntries (tx :: rest) = []) :
    tx.isPending = false ∧ pendingEntries rest = [] := by
  simp only [pendingEntries, filter_cons] at settled ⊢
  cases pending : tx.isPending with
  | true =>
    simp [pending] at settled
  | false =>
    rw [pending] at settled
    exact ⟨rfl, settled⟩

theorem passes_over (tm : MonitorCompressedTxs H) (inputs : PassInputs H)
    (groupID txIndex : Nat)
    {old : List (TxHashHistoryEntry H)} (rest : List (TxHashHistoryEntry H))
    (settled : pendingEntries old = []) :
    checkedFrom inputs groupID txIndex (old ++ rest) =
        old ++ checkedFrom inputs groupID (txIndex + old.length) rest ∧
      succeedsFrom inputs groupID txIndex (old ++ rest) =
        succeedsFrom inputs groupID (txIndex + old.length) rest ∧
      tm.outdatedFrom inputs groupID txIndex (old ++ rest) =
        old ++ tm.outdatedFrom inputs groupID (txIndex + old.length)
          rest := by
  induction old generalizing txIndex with
  | nil => simp
  | cons tx others induction =>
    obtain ⟨done, settled⟩ := not_pending_of_cons settled
    obtain ⟨checked, succeeds, outdated⟩ := induction (txIndex + 1) settled
    have shifted : txIndex + 1 + others.length =
        txIndex + (tx :: others).length := by
      simp only [length_cons]
      omega
    rw [shifted] at checked succeeds outdated
    simp only [cons_append, checkedFrom, succeedsFrom, outdatedFrom,
      done, Bool.not_false, if_true, Bool.false_and, Bool.false_eq_true,
      if_false, checked, succeeds, outdated, and_self]

variable {entry : TxHashHistoryEntry H}

theorem mem_checkedFrom_successful {txIndex : Nat}
    {entries : List (TxHashHistoryEntry H)}
    (unsuccessful : succeedsFrom inputs groupID txIndex entries = false)
    (mem : entry ∈ checkedFrom inputs groupID txIndex entries)
    (successful : entry.isSuccessful = true) : entry ∈ entries := by
  induction entries generalizing txIndex with
  | nil => contradiction
  | cons tx rest induction =>
    have kept : succeedsFrom inputs groupID (txIndex + 1) rest = false →
        entry ∈ tx :: checkedFrom inputs groupID (txIndex + 1) rest →
          entry ∈ tx :: rest := by
      intro unsuccessful mem
      rcases mem_cons.mp mem with rfl | later
      · exact mem_cons_self
      · exact mem_cons_of_mem _ (induction unsuccessful later)
    rw [succeedsFrom] at unsuccessful
    rw [checkedFrom] at mem
    split at unsuccessful
    · next settled =>
      rw [if_pos settled] at mem
      exact kept unsuccessful mem
    · next pending =>
      rw [if_neg pending] at mem
      split at unsuccessful
      · next failed =>
        rw [failed] at mem
        exact kept unsuccessful mem
      · next notMined =>
        rw [notMined] at mem
        exact kept unsuccessful mem
      · next receipt mined =>
        split at unsuccessful
        · contradiction
        · next notConfirming =>
          simp only [mined, notConfirming, if_false] at mem
          rcases mem_cons.mp mem with rfl | later
          · contradiction
          · exact mem_cons_of_mem _ (induction unsuccessful later)

theorem mem_outdatedFrom_successful {txIndex : Nat}
    {entries : List (TxHashHistoryEntry H)}
    (mem : entry ∈ tm.outdatedFrom inputs groupID txIndex entries)
    (successful : entry.isSuccessful = true) : entry ∈ entries := by
  induction entries generalizing txIndex with
  | nil => contradiction
  | cons tx rest induction =>
    rw [outdatedFrom] at mem
    rcases mem_cons.mp mem with here | later
    · split at here
      · rw [here] at successful
        contradiction
      · rw [here]
        exact mem_cons_self
    · exact mem_cons_of_mem _ (induction later)

theorem mem_historyAfter_successful {group : MonitoredTxGroupDBEntry H}
    (unconfirmed : confirms inputs group = false)
    (mem : entry ∈ tm.historyAfter inputs group)
    (successful : entry.isSuccessful = true) : entry ∈ group.txHashes := by
  rw [historyAfter] at mem
  split at mem
  · exact mem
  · next claiming =>
    rw [unconfirmed] at mem
    have unsuccessful : succeedsFrom inputs group.groupID 0
        group.txHashes = false := by
      simpa [confirms, Decidable.not_not.mp claiming] using unconfirmed
    exact mem_checkedFrom_successful unsuccessful
      (mem_outdatedFrom_successful mem successful) successful

end Entries

/-- The claim that is sent in a pass is found in the same pass to have failed:
it is mined without success, or it is not mined and the time to wait for it is
over. -/
def SettledAtOnce (tm : MonitorCompressedTxs H) (inputs : PassInputs H)
    (row : MonitoredTxGroupDBEntry H) : Prop :=
  (∃ receipt, inputs.checkTxWasMined row.groupID row.txHashes.length =
      .ok (some receipt) ∧ ¬(receipt.status = 1 ∧ 0 < receipt.logs)) ∨
    (∀ receipt, inputs.checkTxWasMined row.groupID row.txHashes.length ≠
      .ok (some receipt)) ∧
    tm.cfg.retryTimeout <
      (inputs.clock (.outdate row.groupID row.txHashes.length) : Int) -
        inputs.clock (.pendingTx row.groupID)

/-- A claim that uses up the retries of its group is settled in the pass that
sends it. -/
def LastClaimsSettled (tm : MonitorCompressedTxs H) (inputs : PassInputs H)
    (store : ClaimStore H) : Prop :=
  ∀ row, row ∈ store.monitoredTxsGroup → tm.Occupied store row →
    ∀ txHash, tm.Sends inputs (ClaimStore.readGroup row) txHash →
      tm.cfg.maxRetries ≤ row.numRetries + 1 → SettledAtOnce tm inputs row

private theorem settled_last {row : MonitoredTxGroupDBEntry H}
    (entry : TxHashHistoryEntry H) (pending : entry.isPending = true)
    (time : entry.createdAt = inputs.clock (.pendingTx row.groupID))
    (settled : SettledAtOnce tm inputs row) :
    succeedsFrom inputs row.groupID row.txHashes.length [entry] = false ∧
      (checkedFrom inputs row.groupID row.txHashes.length [entry] =
        [entry.receiptFailed] ∨
      checkedFrom inputs row.groupID row.txHashes.length [entry] = [entry] ∧
        tm.outdatedFrom inputs row.groupID row.txHashes.length [entry] =
          [entry.receiptFailed]) := by
  rcases settled with ⟨receipt, mined, unsuccessful⟩ | ⟨notMined, exhausted⟩
  · simp [succeedsFrom, checkedFrom, pending, mined, unsuccessful]
  · have waited : entry.isExhaustedTimeWaitingForReceipt
        (inputs.clock (.outdate row.groupID row.txHashes.length))
        tm.cfg.retryTimeout = true := by
      simp [TxHashHistoryEntry.isExhaustedTimeWaitingForReceipt, time,
        exhausted]
    have outdated : tm.outdatedFrom inputs row.groupID row.txHashes.length
        [entry] = [entry.receiptFailed] := by
      simp [outdatedFrom, pending, waited]
    cases answer : inputs.checkTxWasMined row.groupID
        row.txHashes.length with
    | error err =>
      simp [succeedsFrom, checkedFrom, pending, answer, outdated]
    | ok mined =>
      cases mined with
      | none => simp [succeedsFrom, checkedFrom, pending, answer, outdated]
      | some receipt => exact absurd answer (notMined receipt)

theorem historyAfter_settled {row : MonitoredTxGroupDBEntry H} {txHash : H}
    (nothing : pendingEntries row.txHashes = [])
    (settled : SettledAtOnce tm inputs row) :
    tm.historyAfter inputs
        (sentEntry inputs (ClaimStore.readGroup row) txHash) =
      row.txHashes ++
        [{ txHash := txHash
           receiptStatus := some .failed
           createdAt := inputs.clock (.pendingTx row.groupID) }] := by
  let entry : TxHashHistoryEntry H :=
    { txHash := txHash
      receiptStatus := none
      createdAt := inputs.clock (.pendingTx row.groupID) }
  obtain ⟨unsuccessful, outcome⟩ := settled_last entry rfl rfl settled
  have entries : (sentEntry inputs (ClaimStore.readGroup row)
      txHash).txHashes = row.txHashes ++ [entry] :=
    txHashes_sentEntry _ _
  obtain ⟨checked, succeeds, outdated⟩ :=
    passes_over tm inputs row.groupID 0 [entry] nothing
  rw [Nat.zero_add] at checked succeeds outdated
  have unconfirmed : confirms inputs
      (sentEntry inputs (ClaimStore.readGroup row) txHash) = false := by
    rw [confirms, entries]
    change (_ && succeedsFrom inputs row.groupID 0 _) = false
    rw [succeeds, unsuccessful, Bool.and_false]
  rw [historyAfter, if_neg (by simp), unconfirmed, entries]
  change tm.outdatedFrom inputs row.groupID 0
    (checkedFrom inputs row.groupID 0 (row.txHashes ++ [entry])) =
      row.txHashes ++ [entry.receiptFailed]
  rw [checked]
  rcases outcome with failed | ⟨kept, failed⟩
  · rw [failed]
    have done : pendingEntries (row.txHashes ++ [entry.receiptFailed]) =
        [] := by
      rw [pendingEntries, filter_append]
      change pendingEntries row.txHashes ++ [] = []
      rw [nothing, nil_append]
    have last := (passes_over tm inputs row.groupID 0 [] done).2.2
    simpa [outdatedFrom] using last
  · rw [kept, outdated, failed]

variable {cfg : ConfigGroupingClaims} {row row' : MonitoredTxGroupDBEntry H}

structure EntriesSound (row : MonitoredTxGroupDBEntry H) : Prop where
  failed : row.status = .failed → ∀ entry, entry ∈ row.txHashes →
    entry.isPending = false ∧ entry.isSuccessful = false
  unfinished : Unfinished row → ∀ entry, entry ∈ row.txHashes →
    entry.isSuccessful = false

private theorem entries_of_exhausted
    (settings : tm.cfg = cfg) (kept : HistoryKept cfg row)
    (left : row.numRetries < cfg.maxRetries)
    (unsuccessful : ∀ entry, entry ∈ row.txHashes → entry.isSuccessful = false)
    (settled : ∀ txHash, tm.Sends inputs (ClaimStore.readGroup row) txHash →
      tm.cfg.maxRetries ≤ row.numRetries + 1 → SettledAtOnce tm inputs row)
    (exhausted : tm.Exhausted (tm.claimed inputs row)) :
    ∀ entry, entry ∈ tm.historyAfter inputs (tm.claimed inputs row) →
      entry.isPending = false ∧ entry.isSuccessful = false := by
  rw [claimed] at exhausted ⊢
  rcases tm.sendClaim_cases inputs (ClaimStore.readGroup row) with
    ⟨txHash, sends, sent⟩ | ⟨_, log, idle⟩
  · rw [sent] at exhausted ⊢
    have nothing : pendingEntries row.txHashes = [] := by
      rcases canSend_cases settings kept.read sends.allowed with
        empty | ⟨nothing, _⟩
      · change row.txHashes = [] at empty
        rw [empty]
        rfl
      · exact nothing
    have last : tm.cfg.maxRetries ≤ row.numRetries + 1 := by
      have small := cfg.maxRetries_lt
      have count := kept.numRetries
      have next : incrementInt32 row.numRetries = row.numRetries + 1 :=
        incrementInt32_eq (by omega) (by omega)
      rw [← next]
      exact exhausted
    rw [historyAfter_settled nothing (settled txHash sends last)]
    intro entry mem
    rcases Rows.mem_push.mp mem with old | rfl
    · refine ⟨?_, unsuccessful entry old⟩
      have done := filter_eq_nil_iff.mp nothing entry old
      simpa using done
    · exact ⟨rfl, rfl⟩
  · rw [idle] at exhausted
    have exhausted : tm.cfg.maxRetries ≤ row.numRetries := exhausted
    rw [settings] at exhausted
    omega

private theorem claimed_unsuccessful
    (unsuccessful : ∀ entry, entry ∈ row.txHashes →
      entry.isSuccessful = false) :
    ∀ entry, entry ∈ (tm.claimed inputs row).txHashes →
      entry.isSuccessful = false := by
  rw [claimed]
  rcases tm.sendClaim_cases inputs (ClaimStore.readGroup row) with
    ⟨txHash, sends, sent⟩ | ⟨_, log, idle⟩
  · rw [sent, txHashes_sentEntry]
    intro entry mem
    rcases Rows.mem_push.mp mem with old | rfl
    · exact unsuccessful entry old
    · rfl
  · rw [idle]
    exact unsuccessful

private theorem EntriesSound.advance (sound : EntriesSound row)
    (kept : HistoryKept cfg row) (settings : tm.cfg = cfg)
    (unfinished : Unfinished row) (left : row.numRetries < cfg.maxRetries)
    (advances : Advances tm inputs row row')
    (settled : ∀ txHash, tm.Sends inputs (ClaimStore.readGroup row) txHash →
      tm.cfg.maxRetries ≤ row.numRetries + 1 → SettledAtOnce tm inputs row) :
    EntriesSound row' := by
  have unsuccessful := sound.unfinished unfinished
  have ended := advances.cases unfinished
  generalize tm.txStatusAfter inputs (tm.claimed inputs row) = txStatus
    at ended
  cases ended with
  | failed exhausted status =>
    constructor
    · intro _
      rw [advances.txHashes]
      exact entries_of_exhausted settings kept left unsuccessful settled
        exhausted
    · intro unfinished'
      simp [Unfinished, status] at unfinished'
  | confirmed _ mined status =>
    constructor
    · intro failed
      simp [status] at failed
    · intro unfinished'
      simp [Unfinished, status] at unfinished'
  | unfinished _ unconfirmed status still =>
    constructor
    · intro failed
      simp [Unfinished, failed] at still
    · intro _ entry mem
      rw [advances.txHashes] at mem
      cases successful : entry.isSuccessful with
      | false => rfl
      | true =>
        have old := mem_historyAfter_successful unconfirmed mem
          successful
        rw [claimed_unsuccessful unsuccessful entry old] at successful
        contradiction

end MonitorCompressedTxs

open MonitorCompressedTxs

variable [DecidableEq H]

/-- A change of the tables in which last claims are settled at once, and the
deposits of monitored transactions stay. -/
inductive ClaimStore.SettlingStep (cfg : ConfigGroupingClaims)
    (store store' : ClaimStore H) : Prop
  | pass (tm : MonitorCompressedTxs H) (inputs : PassInputs H)
      (settings : tm.cfg = cfg)
      (settled : LastClaimsSettled tm inputs store)
      (ran : store' = (tm.monitorTxs inputs store).store)
  | addClaimTx (mTx : MonitoredTx H) (now : Nat)
      (created : mTx.status = .created) (unsent : mTx.history = [])
      (single : mTx.groupID = none) (noValue : mTx.value = none)
      (ran : store' = store.addClaimTx mTx now)
  | deposits (deposit : List ClaimDeposit)
      (distinct : (deposit.map ClaimDeposit.id).Nodup)
      (stay : DepositsStay store deposit)
      (ran : store' = { store with deposit := deposit })

namespace ClaimStore

variable {cfg : ConfigGroupingClaims} {store store' : ClaimStore H}

theorem SettlingStep.step (settles : SettlingStep cfg store store') :
    Step cfg store store' := by
  cases settles with
  | pass tm inputs settings settled ran => exact .pass tm inputs settings ran
  | addClaimTx mTx now created unsent single noValue ran =>
    exact .addClaimTx mTx now created unsent single noValue ran
  | deposits deposit distinct stay ran => exact .deposits deposit ran

abbrev SettlingRun (cfg : ConfigGroupingClaims) :
    ClaimStore H → ClaimStore H → Prop :=
  Relation.ReflTransGen (SettlingStep cfg)

theorem run_of_settling (settles : SettlingRun cfg store store') :
    Run cfg store store' :=
  Relation.ReflTransGen.mono (fun _ _ => SettlingStep.step) _ _ settles

structure GroupsSound (cfg : ConfigGroupingClaims) (store : ClaimStore H) :
    Prop where
  distinct : (store.deposit.map ClaimDeposit.id).Nodup
  follow : ∀ row, row ∈ store.monitoredTxsGroup → TxsFollow cfg store row
  entries : ∀ row, row ∈ store.monitoredTxsGroup → EntriesSound row

theorem GroupsSound.step {deposit : List ClaimDeposit}
    (retry : 1 ≤ cfg.maxRetries) (ran : Run cfg (.empty deposit) store)
    (sound : GroupsSound cfg store)
    (settles : SettlingStep cfg store store') : GroupsSound cfg store' := by
  have keyed := keyed_of_run ran
  cases settles with
  | pass tm inputs settings settled ran' =>
    subst ran'
    rcases monitorTxs_cases keyed with same | effect
    · rw [same]
      exact sound
    · constructor
      · rw [effect.deposit]
        exact sound.distinct
      · exact TxsFollow.pass retry settings sound.distinct effect keyed
          sound.follow
      · intro row' stored'
        rcases effect.mem_groups stored' with
          ⟨row, stored, step⟩ | ⟨compressedData, _, _, rfl⟩
        · cases step with
          | idle empty => exact sound.entries row' stored
          | advance occupied advances =>
            have follow := sound.follow row stored
            have unfinished := (follow.occupied sound.distinct occupied).1
            exact (sound.entries row stored).advance
              (historyKept ran row stored) settings unfinished
              (follow.left unfinished) advances
              (settled row stored occupied)
        · constructor
          · intro failed
            contradiction
          · intro _ entry mem
            contradiction
  | addClaimTx mTx now created unsent single noValue ran' =>
    subst ran'
    constructor
    · rw [addClaimTx_deposit]
      exact sound.distinct
    · rw [addClaimTx_monitoredTxsGroup]
      exact fun row stored =>
        (sound.follow row stored).addClaimTx mTx now single
    · rw [addClaimTx_monitoredTxsGroup]
      exact sound.entries
  | deposits deposit distinct stay ran' =>
    subst ran'
    exact ⟨distinct, fun row stored =>
      (sound.follow row stored).deposits stay, sound.entries⟩

/-- A group that failed has no claim that succeeded or is waited for, and a
group with a claim that succeeded is confirmed with all its transactions. -/
def OutcomeSound (cfg : ConfigGroupingClaims) (now : Nat)
    (store : ClaimStore H) : Prop :=
  ∀ row, row ∈ store.monitoredTxsGroup →
    (row.status = .failed → ∀ entry, entry ∈ row.txHashes →
      entry.isSuccessful = false ∧
      ¬(entry.isPending = true ∧
        entry.isExhaustedTimeWaitingForReceipt now cfg.retryTimeout = false)) ∧
    ((∃ entry, entry ∈ row.txHashes ∧ entry.isSuccessful = true) →
      row.status = .confirmed ∧
      ∀ tx, tx ∈ store.monitoredTxs → tx.groupID = some row.groupID →
        tx.status = .confirmed)

/-- If every claim that uses up the retries of its group is settled in the pass
that sends it, the outcome of every group is sound in every state of the run
and at every time. -/
theorem outcome_sound_of_settling {deposit : List ClaimDeposit}
    (retry : 1 ≤ cfg.maxRetries)
    (distinct : (deposit.map ClaimDeposit.id).Nodup)
    (ran : SettlingRun cfg (.empty deposit) store) (now : Nat) :
    OutcomeSound cfg now store := by
  have sound : GroupsSound cfg store := by
    induction ran with
    | refl =>
      refine ⟨distinct, ?_, ?_⟩
      · intro row mem
        contradiction
      · intro row mem
        contradiction
    | tail earlier step induction =>
      exact induction.step retry (run_of_settling earlier) step
  intro row stored
  have entries := sound.entries row stored
  have follow := sound.follow row stored
  constructor
  · intro failed entry mem
    obtain ⟨settled, unsuccessful⟩ := entries.failed failed entry mem
    simp [settled, unsuccessful]
  · rintro ⟨entry, mem, successful⟩
    have confirmed : row.status = .confirmed := by
      cases status : row.status with
      | confirmed => rfl
      | failed =>
        rw [(entries.failed status entry mem).2] at successful
        contradiction
      | created =>
        rw [entries.unfinished (.inl status) entry mem] at successful
        contradiction
      | claiming =>
        rw [entries.unfinished (.inr status) entry mem] at successful
        contradiction
    refine ⟨confirmed, ?_⟩
    intro tx txIn grouped
    exact follow.confirmed confirmed tx ⟨txIn, grouped⟩

end ClaimStore

namespace SampleClaims

def mined (now : Nat) : PassInputs Nat :=
  { answers now with
    checkTxWasMined := fun _ _ => .ok (some
      { status := 1
        logs := 1 }) }

/-- With one retry a group fails in the pass that sends its claim, although the
claim is still waited for or has even been mined successfully. -/
theorem failed_at_once :
    ClaimStore.Run (grouping 1 (by decide)) (.empty deposits)
        (afterPasses (grouping 1 (by decide)) waiting
          [answers 1, answers 2]) ∧
      ¬ClaimStore.OutcomeSound (grouping 1 (by decide)) 2
        (afterPasses (grouping 1 (by decide)) waiting
          [answers 1, answers 2]) ∧
      ClaimStore.Run (grouping 1 (by decide)) (.empty deposits)
        (afterPasses (grouping 1 (by decide)) waiting
          [answers 1, mined 2]) ∧
      ¬ClaimStore.OutcomeSound (grouping 1 (by decide)) 2
        (afterPasses (grouping 1 (by decide)) waiting
          [answers 1, mined 2]) := by
  refine ⟨(run_waiting _).trans (run_afterPasses _ _ _), ?_,
    (run_waiting _).trans (run_afterPasses _ _ _), ?_⟩
  · intro sound
    have waited : ∃ row, row ∈ (afterPasses (grouping 1 (by decide)) waiting
        [answers 1, answers 2]).monitoredTxsGroup ∧
        row.status = .failed ∧ ∃ entry, entry ∈ row.txHashes ∧
          entry.isPending = true ∧
          entry.isExhaustedTimeWaitingForReceipt 2 10 = false := by
      decide +kernel
    obtain ⟨row, stored, failed, entry, mem, pending, early⟩ := waited
    exact ((sound row stored).1 failed entry mem).2 ⟨pending, early⟩
  · intro sound
    have succeeded : ∃ row, row ∈ (afterPasses (grouping 1 (by decide))
        waiting [answers 1, mined 2]).monitoredTxsGroup ∧
        row.status = .failed ∧ ∃ entry, entry ∈ row.txHashes ∧
          entry.isSuccessful = true := by
      decide +kernel
    obtain ⟨row, stored, failed, entry, mem, successful⟩ := succeeded
    have confirmed := ((sound row stored).2 ⟨entry, mem, successful⟩).1
    simp [failed] at confirmed

private theorem settling_afterPasses (passes : List (PassInputs Nat))
    (store : ClaimStore Nat)
    (early : ∀ done, done <+: passes →
      ∀ row, row ∈ (afterPasses (grouping 5 (by decide)) store
        done).monitoredTxsGroup → row.numRetries < 4) :
    ClaimStore.SettlingRun (grouping 5 (by decide)) store
      (afterPasses (grouping 5 (by decide)) store passes) := by
  induction passes generalizing store with
  | nil => exact .refl
  | cons inputs rest induction =>
    refine .head (.pass (monitor _) inputs rfl ?_ rfl) (induction _ ?_)
    · intro row stored _ txHash _ last
      have first := early [] nil_prefix row stored
      change (5 : Int) ≤ row.numRetries + 1 at last
      omega
    · intro done isPrefix
      exact early (inputs :: done) (cons_prefix_cons.mpr ⟨rfl, isPrefix⟩)

theorem outcome_sound_sample :
    (∃ row, row ∈ (afterPasses (grouping 5 (by decide)) waiting
        [answers 1, answers 2, mined 3]).monitoredTxsGroup ∧
      row.status = .confirmed) ∧
      ClaimStore.OutcomeSound (grouping 5 (by decide)) 3
        (afterPasses (grouping 5 (by decide)) waiting
          [answers 1, answers 2, mined 3]) := by
  have early : ∀ done, done ∈ [answers 1, answers 2, mined 3].inits →
      ∀ row, row ∈ (afterPasses (grouping 5 (by decide)) waiting
        done).monitoredTxsGroup → row.numRetries < 4 := by
    decide +kernel
  have ran : ClaimStore.SettlingRun (grouping 5 (by decide))
      (.empty deposits) (afterPasses (grouping 5 (by decide)) waiting
        [answers 1, answers 2, mined 3]) :=
    .head (.addClaimTx (claimTx 1 5) 0 rfl rfl rfl rfl rfl)
      (settling_afterPasses _ waiting fun done isPrefix =>
        early done ((mem_inits _ _).mpr isPrefix))
  exact ⟨by decide +kernel,
    ClaimStore.outcome_sound_of_settling (by decide) (by decide) ran 3⟩

end SampleClaims

end BridgeService
