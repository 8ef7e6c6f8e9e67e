import BridgeService.Claimtxman.SteadyRuns
import BridgeService.Lib.Progress

/-!
# Progress of groups

A claim that is sent is settled once it has been waited for long enough, and
another claim is sent after the retry interval, until the retries are used up.
So a group ends if claims can be sent again and again.
-/

namespace BridgeService

open List

variable {H : Type}

namespace MonitorCompressedTxs

variable {tm : MonitorCompressedTxs H} {inputs : PassInputs H}
  {cfg : ConfigGroupingClaims} {row row' : MonitoredTxGroupDBEntry H}

/-- Retries that are left count twice, the claim that is waited for once. -/
def groupRank (cfg : ConfigGroupingClaims)
    (row : MonitoredTxGroupDBEntry H) : Nat :=
  2 * (cfg.maxRetries - row.numRetries).toNat +
    (pendingEntries row.txHashes).length

def SentBy (bound : Nat) (entries : List (TxHashHistoryEntry H)) : Prop :=
  ∀ entry, entry ∈ entries → entry.createdAt ≤ bound

theorem exists_sentBy (entries : List (TxHashHistoryEntry H)) :
    ∃ bound, SentBy bound entries := by
  induction entries with
  | nil => exact ⟨0, by simp [SentBy]⟩
  | cons entry rest induction =>
    obtain ⟨bound, sent⟩ := induction
    refine ⟨max entry.createdAt bound, ?_⟩
    intro other mem
    rcases mem_cons.mp mem with rfl | later
    · exact Nat.le_max_left _ _
    · exact Nat.le_trans (sent other later) (Nat.le_max_right _ _)

variable {bound : Nat}

private theorem sentBy_iff {entries : List (TxHashHistoryEntry H)} :
    SentBy bound entries ↔
      ∀ time, time ∈ entries.map TxHashHistoryEntry.createdAt →
        time ≤ bound := by
  simp [SentBy]

private theorem sentBy_historyAfter {entry : MonitoredTxGroupDBEntry H}
    (sent : SentBy bound entry.txHashes) :
    SentBy bound (tm.historyAfter inputs entry) := by
  rw [sentBy_iff, map_historyAfter (fun _ => rfl) (fun _ => rfl),
    ← sentBy_iff]
  exact sent

private theorem claimed_cases (tm : MonitorCompressedTxs H)
    (inputs : PassInputs H) (row : MonitoredTxGroupDBEntry H) :
    (∃ txHash, tm.Sends inputs (ClaimStore.readGroup row) txHash ∧
      tm.claimed inputs row =
        sentEntry inputs (ClaimStore.readGroup row) txHash) ∨
      (∀ txHash, ¬tm.Sends inputs (ClaimStore.readGroup row) txHash) ∧
        (tm.claimed inputs row).txHashes = row.txHashes ∧
        (tm.claimed inputs row).numRetries = row.numRetries ∧
        (tm.claimed inputs row).status = row.status := by
  rw [claimed]
  rcases tm.sendClaim_cases inputs (ClaimStore.readGroup row) with
    ⟨txHash, sends, sent⟩ | ⟨none, log, idle⟩
  · rw [sent]
    exact .inl ⟨txHash, sends, rfl⟩
  · rw [idle]
    exact .inr ⟨none, rfl, rfl, rfl⟩

private theorem rank_of_sends (settings : tm.cfg = cfg)
    (kept : HistoryKept cfg row) (left : row.numRetries < cfg.maxRetries)
    (advances : Advances tm inputs row row') {txHash : H}
    (sends : tm.Sends inputs (ClaimStore.readGroup row) txHash) :
    groupRank cfg row' < groupRank cfg row := by
  have kept' := kept.advances settings advances
  have small := cfg.maxRetries_lt
  have count := kept.numRetries
  have increment : incrementInt32 row.numRetries = row.numRetries + 1 :=
    incrementInt32_eq (by omega) (by omega)
  have next : row'.numRetries = row.numRetries + 1 := by
    rw [advances.numRetries, claimed, sendClaim_sends sends]
    exact increment
  have pending := kept'.pending
  rw [groupRank, groupRank, next]
  omega

theorem Advances.rank (advances : Advances tm inputs row row')
    (settings : tm.cfg = cfg) (kept : HistoryKept cfg row)
    (left : row.numRetries < cfg.maxRetries)
    (sent : SentBy bound row.txHashes) :
    groupRank cfg row' < groupRank cfg row ∨
      groupRank cfg row' = groupRank cfg row ∧
        SentBy bound row'.txHashes := by
  rcases claimed_cases tm inputs row with
    ⟨txHash, sends, _⟩ | ⟨_, entries, numRetries, _⟩
  · exact .inl (rank_of_sends settings kept left advances sends)
  · have fewer : (pendingEntries row'.txHashes).length ≤
        (pendingEntries row.txHashes).length := by
      rw [advances.txHashes, ← entries]
      exact pending_historyAfter _
    have same : row'.numRetries = row.numRetries := by
      rw [advances.numRetries, numRetries]
    have late : SentBy bound row'.txHashes := by
      rw [advances.txHashes]
      exact sentBy_historyAfter (by rw [entries]; exact sent)
    rw [groupRank, groupRank, same]
    rcases Nat.lt_or_eq_of_le fewer with less | equal
    · exact .inl (by omega)
    · exact .inr ⟨by omega, late⟩

theorem Advances.refused (advances : Advances tm inputs row row')
    (created : row.status = .created)
    (left : row.numRetries < tm.cfg.maxRetries)
    (refused : ∀ txHash,
      inputs.sendCompressedClaims row.groupID ≠ .ok txHash) :
    row'.status = .created ∧ row'.numRetries = row.numRetries := by
  rcases claimed_cases tm inputs row with
    ⟨txHash, sends, _⟩ | ⟨_, _, numRetries, status⟩
  · exact absurd sends.accepted (refused txHash)
  · refine ⟨?_, by rw [advances.numRetries, numRetries]⟩
    have unfinished : ¬tm.Exhausted (tm.claimed inputs row) := by
      rw [Exhausted, numRetries]
      omega
    have unconfirmed : confirms inputs (tm.claimed inputs row) = false := by
      simp [confirms, status, created]
    rw [advances.status, statusAfter, if_neg unfinished, unconfirmed]
    exact status.trans created

/-- A time at which every period of the settings is over for claims that were
sent by the bound. -/
def overAt (cfg : ConfigGroupingClaims) (bound : Nat) : Nat :=
  bound + (max cfg.retryInterval cfg.retryTimeout).toNat + 1

private theorem moreRecentFrom_mem (best : TxHashHistoryEntry H)
    (rest : List (TxHashHistoryEntry H)) :
    TxHistoryV2.moreRecentFrom best rest = best ∨
      TxHistoryV2.moreRecentFrom best rest ∈ rest := by
  induction rest generalizing best with
  | nil => exact .inl rfl
  | cons entry rest induction =>
    rw [TxHistoryV2.moreRecentFrom]
    split
    · rcases induction entry with same | later
      · rw [same]
        exact .inr mem_cons_self
      · exact .inr (mem_cons_of_mem _ later)
    · rcases induction best with same | later
      · exact .inl same
      · exact .inr (mem_cons_of_mem _ later)

private theorem getMoreRecentTx_mem {history : TxHistoryV2 H}
    {entry : TxHashHistoryEntry H}
    (found : history.getMoreRecentTx = some entry) :
    entry ∈ history.txHashes := by
  rw [TxHistoryV2.getMoreRecentTx] at found
  split at found
  · contradiction
  · next first rest entries =>
    rw [entries, ← Option.some.inj found]
    rcases moreRecentFrom_mem first (first :: rest) with same | later
    · rw [same]
      exact mem_cons_self
    · exact later

theorem canSend_of_late {now : Nat} {entry : MonitoredTxGroupDBEntry H}
    (settings : tm.cfg = cfg) (nothing : pendingEntries entry.txHashes = [])
    (left : entry.numRetries < cfg.maxRetries)
    (sent : SentBy bound entry.txHashes) (late : overAt cfg bound ≤ now) :
    tm.canSendNewClaimCall now entry = true := by
  rw [canSendNewClaimCall]
  split
  · rfl
  · split
    · rfl
    · next history found =>
      have entries : history.txHashes = entry.txHashes := by
        rw [MonitoredTxGroupDBEntry.txHashes, found]
      split
      · rfl
      · split
        · next pending =>
          obtain ⟨tx, mem, pending⟩ := any_eq_true.mp pending
          rw [entries] at mem
          have done := filter_eq_nil_iff.mp nothing tx mem
          simp [Bool.and_eq_true] at pending
          exact absurd pending.1 done
        · rw [if_neg (by rw [settings]; omega)]
          split
          · rfl
          · next recent latest =>
            have mem := getMoreRecentTx_mem latest
            rw [entries] at mem
            have early := sent recent mem
            rw [settings]
            simp only [decide_eq_true_eq]
            rw [overAt] at late
            omega

private theorem pending_outdated {groupID txIndex : Nat}
    {entries : List (TxHashHistoryEntry H)} (settings : tm.cfg = cfg)
    (sent : SentBy bound entries)
    (late : ∀ use, overAt cfg bound ≤ inputs.clock use) :
    pendingEntries (tm.outdatedFrom inputs groupID txIndex entries) = [] := by
  induction entries generalizing txIndex with
  | nil => rfl
  | cons tx rest induction =>
    have others : pendingEntries (tm.outdatedFrom inputs groupID
        (txIndex + 1) rest) = [] :=
      induction fun entry mem =>
        sent entry (mem_cons_of_mem tx mem)
    have waited : tx.isExhaustedTimeWaitingForReceipt
        (inputs.clock (.outdate groupID txIndex)) tm.cfg.retryTimeout =
          true := by
      have early := sent tx mem_cons_self
      have now := late (.outdate groupID txIndex)
      rw [overAt] at now
      rw [settings, TxHashHistoryEntry.isExhaustedTimeWaitingForReceipt]
      simp only [decide_eq_true_eq]
      omega
    rw [outdatedFrom, waited, Bool.and_true, pendingEntries, filter_cons]
    cases pending : tx.isPending with
    | true => exact others
    | false =>
      simp only [Bool.false_eq_true, if_false, pending]
      exact others

structure Takes (inputs : PassInputs H) : Prop where
  estimates : ∀ groupID, inputs.estimateGas groupID = .ok ()
  accepts : ∀ groupID, ∃ txHash,
    inputs.sendCompressedClaims groupID = .ok txHash

theorem Advances.rank_of_late (advances : Advances tm inputs row row')
    (settings : tm.cfg = cfg) (kept : HistoryKept cfg row)
    (unfinished : Unfinished row) (left : row.numRetries < cfg.maxRetries)
    (data : row.compressedTxData ≠ none) (sent : SentBy bound row.txHashes)
    (takes : Takes inputs)
    (late : ∀ use, overAt cfg bound ≤ inputs.clock use) :
    ¬Unfinished row' ∨ groupRank cfg row' < groupRank cfg row := by
  by_cases nothing : pendingEntries row.txHashes = []
  · obtain ⟨txHash, accepted⟩ := takes.accepts row.groupID
    have sends : tm.Sends inputs (ClaimStore.readGroup row) txHash :=
      ⟨data, canSend_of_late settings nothing left sent (late _),
        takes.estimates _, accepted⟩
    exact .inr (rank_of_sends settings kept left advances sends)
  · rcases claimed_cases tm inputs row with
      ⟨txHash, sends, _⟩ | ⟨_, entries, numRetries, status⟩
    · exact .inr (rank_of_sends settings kept left advances sends)
    · have claiming : (tm.claimed inputs row).status = .claiming := by
        rw [status]
        rcases unfinished with created | claiming
        · rw [kept.created created] at nothing
          exact absurd rfl nothing
        · exact claiming
      have ended := advances.cases unfinished
      generalize tm.txStatusAfter inputs (tm.claimed inputs row) = txStatus
        at ended
      cases ended with
      | failed _ failed => exact .inl (by simp [Unfinished, failed])
      | confirmed _ _ confirmed =>
        exact .inl (by simp [Unfinished, confirmed])
      | unfinished _ unconfirmed _ _ =>
        right
        have settled : pendingEntries row'.txHashes = [] := by
          rw [advances.txHashes, historyAfter,
            if_neg (by simp [claiming]), unconfirmed]
          apply pending_outdated settings _ late
          rw [sentBy_iff, map_checkedFrom (fun _ => rfl) (fun _ => rfl),
            ← sentBy_iff, entries]
          exact sent
        have same : row'.numRetries = row.numRetries := by
          rw [advances.numRetries, numRetries]
        have some := length_pos_iff.mpr nothing
        rw [groupRank, groupRank, same, settled, length_nil]
        omega

variable [DecidableEq H] {store : ClaimStore H}

def OfNetwork (rollupID : Nat) (store : ClaimStore H)
    (row : MonitoredTxGroupDBEntry H) : Prop :=
  ∃ tx, InGroup store row tx ∧
    store.hasDestination tx.depositID rollupID = true

omit [DecidableEq H] in
theorem SteadyStore.occupied (steady : SteadyStore cfg store)
    (stored : row ∈ store.monitoredTxsGroup) (unfinished : Unfinished row)
    (network : OfNetwork tm.rollupID store row) :
    tm.Occupied store row := by
  obtain ⟨tx, member, destination⟩ := network
  obtain ⟨_, active⟩ := (steady.follow row stored).active unfinished
  exact ⟨tx, member.1, ⟨(active tx member).1, destination⟩, member.2⟩

private theorem OfNetwork.move {rollupID : Nat}
    (network : OfNetwork rollupID store row) (steady : SteadyStore cfg store)
    {move : ClaimMove H} (fits : move.Steady cfg store)
    (same : row'.groupID = row.groupID) :
    OfNetwork rollupID (move.apply store) row' := by
  obtain ⟨tx, ⟨stored, grouped⟩, destination⟩ := network
  obtain ⟨tx', stored', moved⟩ := steady.tx_move fits stored
  refine ⟨tx', ⟨stored', ?_⟩, (moved.destination rollupID).mpr destination⟩
  rw [same]
  exact moved.groupID row.groupID grouped

private theorem SteadyStore.group_move (steady : SteadyStore cfg store)
    {move : ClaimMove H} (fits : move.Steady cfg store)
    (stored : row ∈ store.monitoredTxsGroup) :
    ∃ row', row' ∈ (move.apply store).monitoredTxsGroup ∧
      (row' = row ∨ ∃ tm inputs, tm.cfg = cfg ∧ move = .pass tm inputs ∧
        Advances tm inputs row row') := by
  cases move with
  | pass tm inputs =>
    rcases monitorTxs_cases steady.keyed with unchanged | effect
    · refine ⟨row, ?_, .inl rfl⟩
      rw [ClaimMove.apply, unchanged]
      exact stored
    · obtain ⟨row', stored', step⟩ := effect.exists_group stored
      refine ⟨row', stored', ?_⟩
      cases step with
      | idle empty => exact .inl rfl
      | advance occupied advances =>
        exact .inr ⟨tm, inputs, fits.1, rfl, advances⟩
  | addClaimTx mTx now =>
    refine ⟨row, ?_, .inl rfl⟩
    rw [ClaimMove.apply, ClaimStore.addClaimTx_monitoredTxsGroup]
    exact stored
  | deposits deposit => exact ⟨row, stored, .inl rfl⟩

end MonitorCompressedTxs

open MonitorCompressedTxs Progress

variable [DecidableEq H]

def ClaimMove.Late (bound : Nat) : ClaimMove H → Prop
  | .pass _ inputs => ∀ use, bound ≤ inputs.clock use
  | .addClaimTx _ now => bound ≤ now
  | .deposits _ => True

omit [DecidableEq H] in
theorem ClaimMove.Late.mono {bound earlier : Nat} {move : ClaimMove H}
    (late : move.Late bound) (order : earlier ≤ bound) :
    move.Late earlier := by
  cases move with
  | pass tm inputs => exact fun use => Nat.le_trans order (late use)
  | addClaimTx mTx now => exact Nat.le_trans order late
  | deposits deposit => trivial

structure MonitorRun (H : Type) [DecidableEq H] where
  store : Nat → ClaimStore H
  moves : Nat → ClaimMove H
  next : ∀ time, store (time + 1) = (moves time).apply (store time)

namespace MonitorRun

variable (run : MonitorRun H)

def StorageWorks : Prop :=
  ∀ time tm inputs, run.moves time = .pass tm inputs →
    ∀ call, inputs.fault call = false

def TimeGrows : Prop :=
  ∀ bound, Finally fun time => (run.moves time).Late bound

/-- The deposits stay, and the compressor does not return nothing. -/
def Steady (cfg : ConfigGroupingClaims) : Prop :=
  ∀ time, (run.moves time).Steady cfg (run.store time)

/-- A pass for a network in which the node takes every claim and a new group
can be made. -/
def Serves (rollupID time : Nat) : Prop :=
  ∃ tm inputs, run.moves time = .pass tm inputs ∧ tm.rollupID = rollupID ∧
    Takes inputs ∧
    (∃ compressedData, inputs.compressClaimCall = .ok compressedData) ∧
    ∀ tx, tx ∈ (run.store time).monitoredTxs →
      tm.compressClaimComposer.Decodes tx

structure Fair (cfg : ConfigGroupingClaims) : Prop where
  retry : 1 ≤ cfg.maxRetries
  start : SteadyStore cfg (run.store 0)
  steady : run.Steady cfg
  storage : run.StorageWorks
  time : run.TimeGrows

variable {run} {cfg : ConfigGroupingClaims} {rollupID : Nat}

theorem Fair.steadyStore (fair : run.Fair cfg) (time : Nat) :
    SteadyStore cfg (run.store time) := by
  induction time with
  | zero => exact fair.start
  | succ time induction =>
    rw [run.next]
    exact induction.move fair.retry (fair.steady time)

variable {time groupID rank bound : Nat}

theorem Fair.effect (fair : run.Fair cfg) (serves : run.Serves rollupID time) :
    ∃ tm inputs, run.moves time = .pass tm inputs ∧ tm.cfg = cfg ∧
      tm.rollupID = rollupID ∧ Takes inputs ∧
      Effect tm inputs (run.store time) (run.store (time + 1)) := by
  obtain ⟨tm, inputs, move, network, takes, compressed, decodes⟩ := serves
  have fits := fair.steady time
  rw [move] at fits
  refine ⟨tm, inputs, move, fits.1, network, takes, ?_⟩
  have works := fair.storage time tm inputs move
  have steady := fair.steadyStore time
  have running : ¬Stops inputs := by
    simp [Stops, works]
  have undisturbed : Undisturbed tm inputs (run.store time) := by
    refine ⟨works _, works _, ?_⟩
    intro some
    refine ⟨ComposeCompressClaim.compose_total ?_ ?_, compressed⟩
    · simpa [newGroup, newMonitoredTxGroup,
        MonitoredTxGroup.assignTxsGroupID] using some
    · intro tx mem
      obtain ⟨source, chosen, rfl⟩ := mem_map.mp mem
      exact decodes source (mem_activeTxs.mp (mem_chosen chosen).1).1
  have history : ∀ row, row ∈ (run.store time).monitoredTxsGroup →
      HasHistory (tm.claimed inputs row) := fun row stored =>
    ((steady.kept row stored).claimed fits.1).hasHistory
  rw [run.next, move]
  exact monitorTxs_effect steady.keyed
    (monitorTxs_commits steady.keyed history running undisturbed)

structure Waits (run : MonitorRun H) (cfg : ConfigGroupingClaims)
    (rollupID groupID rank bound time : Nat) (row : MonitoredTxGroupDBEntry H) :
    Prop where
  stored : row ∈ (run.store time).monitoredTxsGroup
  groupID : row.groupID = groupID
  unfinished : Unfinished row
  network : OfNetwork rollupID (run.store time) row
  rank : groupRank cfg row = rank
  sent : SentBy bound row.txHashes

def Ended (run : MonitorRun H) (groupID time : Nat) : Prop :=
  ∃ row, row ∈ (run.store time).monitoredTxsGroup ∧ row.groupID = groupID ∧
    ¬Unfinished row

private def Lowered (run : MonitorRun H) (cfg : ConfigGroupingClaims)
    (rollupID groupID rank time : Nat) : Prop :=
  run.Ended groupID time ∨ ∃ lower, lower < rank ∧
    ∃ bound row, Waits run cfg rollupID groupID lower bound time row

section

variable {row : MonitoredTxGroupDBEntry H} (fair : run.Fair cfg)
  (waits : Waits run cfg rollupID groupID rank bound time row)

include fair waits

private theorem Waits.next {row' : MonitoredTxGroupDBEntry H}
    (stored' : row' ∈ (run.store (time + 1)).monitoredTxsGroup)
    (same : row'.groupID = row.groupID) (unfinished : Unfinished row')
    {rank' bound' : Nat} (newRank : groupRank cfg row' = rank')
    (sent : SentBy bound' row'.txHashes) :
    Waits run cfg rollupID groupID rank' bound' (time + 1) row' where
  stored := stored'
  groupID := same.trans waits.groupID
  unfinished := unfinished
  network := by
    rw [run.next]
    exact waits.network.move (fair.steadyStore time) (fair.steady time) same
  rank := newRank
  sent := sent

private theorem Waits.lowered {row' : MonitoredTxGroupDBEntry H}
    (stored' : row' ∈ (run.store (time + 1)).monitoredTxsGroup)
    (same : row'.groupID = row.groupID)
    (less : ¬Unfinished row' ∨ groupRank cfg row' < groupRank cfg row) :
    Lowered run cfg rollupID groupID rank (time + 1) := by
  by_cases unfinished : Unfinished row'
  · rcases less with ended | less
    · exact absurd unfinished ended
    · obtain ⟨bound', sent⟩ := exists_sentBy row'.txHashes
      rw [waits.rank] at less
      exact .inr ⟨_, less, bound', row',
        waits.next fair stored' same unfinished rfl sent⟩
  · exact .inl ⟨row', stored', same.trans waits.groupID, unfinished⟩

private theorem Waits.stays :
    (∃ row', Waits run cfg rollupID groupID rank bound (time + 1) row') ∨
      Lowered run cfg rollupID groupID rank (time + 1) := by
  have steady := fair.steadyStore time
  obtain ⟨row', stored', changed⟩ :=
    steady.group_move (fair.steady time) waits.stored
  rw [← run.next] at stored'
  rcases changed with rfl | ⟨tm, inputs, settings, _, advances⟩
  · exact .inl ⟨row', waits.next fair stored' rfl waits.unfinished
      waits.rank waits.sent⟩
  · by_cases unfinished : Unfinished row'
    · rcases advances.rank settings (steady.kept row waits.stored)
        ((steady.follow row waits.stored).left waits.unfinished)
        waits.sent with less | ⟨equal, sent⟩
      · exact .inr (waits.lowered fair stored' advances.groupID
          (.inr less))
      · exact .inl ⟨row', waits.next fair stored' advances.groupID
          unfinished (equal.trans waits.rank) sent⟩
    · exact .inr (waits.lowered fair stored' advances.groupID
        (.inl unfinished))

private theorem Waits.helps (serves : run.Serves rollupID time)
    (late : (run.moves time).Late (overAt cfg bound)) :
    Lowered run cfg rollupID groupID rank (time + 1) := by
  have steady := fair.steadyStore time
  obtain ⟨tm, inputs, move, settings, rfl, takes, effect⟩ := fair.effect serves
  obtain ⟨row', stored', step⟩ := effect.exists_group waits.stored
  rw [move] at late
  cases step with
  | idle empty =>
    exact absurd (steady.occupied waits.stored waits.unfinished
      waits.network) empty
  | advance occupied advances =>
    exact waits.lowered fair stored' advances.groupID
      (advances.rank_of_late settings (steady.kept row waits.stored)
        waits.unfinished
        ((steady.follow row waits.stored).left waits.unfinished)
        (steady.data row waits.stored) waits.sent takes late)

end

theorem Fair.group_ends (fair : run.Fair cfg)
    (often : InfinitelyOften (run.Serves rollupID))
    {row : MonitoredTxGroupDBEntry H}
    (stored : row ∈ (run.store time).monitoredTxsGroup)
    (network : OfNetwork rollupID (run.store time) row) :
    ∃ later, time ≤ later ∧ run.Ended row.groupID later := by
  by_cases unfinished : Unfinished row
  · obtain ⟨bound, sent⟩ := exists_sentBy row.txHashes
    have drops : ∀ rank, LeadsTo
        (fun time => ∃ bound row',
          Waits run cfg rollupID row.groupID rank bound time
          row')
        (Lowered run cfg rollupID row.groupID rank) := by
      rintro rank start ⟨bound, waiting⟩
      have drop : LeadsTo
          (fun time => ∃ row',
            Waits run cfg rollupID row.groupID rank bound time row')
          (Lowered run cfg rollupID row.groupID rank) := by
        refine leadsTo_of_helpful ?_ ?_
          (often.and_finally (fair.time (overAt cfg bound)))
        · rintro time ⟨row', waits⟩
          exact waits.stays fair
        · rintro time ⟨row', waits⟩ ⟨serves, late⟩
          exact waits.helps fair serves late
      exact drop start waiting
    exact leadsTo_of_rank drops (groupRank cfg row) time
      ⟨bound, row, stored, rfl, unfinished, network, rfl, sent⟩
  · exact ⟨time, Nat.le_refl time, row, stored, rfl, unfinished⟩

theorem Fair.group_refused (fair : run.Fair cfg)
    (refused : ∀ time tm inputs, run.moves time = .pass tm inputs →
      ∀ txHash, inputs.sendCompressedClaims groupID ≠ .ok txHash)
    {row : MonitoredTxGroupDBEntry H}
    (stored : row ∈ (run.store time).monitoredTxsGroup)
    (same : row.groupID = groupID) (created : row.status = .created)
    {later : Nat} (order : time ≤ later) :
    ∃ row', row' ∈ (run.store later).monitoredTxsGroup ∧
      row'.groupID = groupID ∧ row'.status = .created := by
  induction later, order using Nat.le_induction with
  | base => exact ⟨row, stored, same, created⟩
  | succ later order induction =>
    obtain ⟨row', stored', same', created'⟩ := induction
    have steady := fair.steadyStore later
    obtain ⟨row'', stored'', changed⟩ :=
      steady.group_move (fair.steady later) stored'
    rw [← run.next] at stored''
    refine ⟨row'', stored'', ?_⟩
    rcases changed with rfl | ⟨tm, inputs, settings, move, advances⟩
    · exact ⟨same', created'⟩
    · refine ⟨advances.groupID.trans same', ?_⟩
      have left := (steady.follow row' stored').left (.inl created')
      rw [← settings] at left
      rw [← same'] at refused
      exact (advances.refused created' left (refused later tm inputs move)).1

end MonitorRun

end BridgeService
