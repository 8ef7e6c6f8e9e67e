import BridgeService.Claimtxman.NonceProtocol

/-!
# The monitor follows the protocol

For one transaction the monitor may take a nonce twice: before it sends the
transaction and after the node has refused it.  It writes the row of the
transaction once at most, with the nonce that it had or one that was taken for
it.
-/

namespace BridgeService

open Calls NoncePosition List

variable {H : Type}

namespace MonitorTxs

variable {position : NoncePosition H} {mTx : MonitoredTx H}
  {copies : List (MonitoredTx H)} {depositID : Nat}

def Keeps (copies : List (MonitoredTx H)) (depositID : Nat)
    (position : NoncePosition H) : Prop :=
  ∀ copy, copy ∈ copies → copy.depositID ≠ depositID → copy ∈ position.copies

structure AtWork (copies : List (MonitoredTx H)) (mTx : MonitoredTx H)
    (position : NoncePosition H) : Prop where
  ready : position.Ready none
  covers : position.Covers mTx
  keeps : Keeps copies mTx.depositID position

abbrev Ends {α : Type} (copies : List (MonitoredTx H)) (depositID : Nat)
    (position : NoncePosition H) (program : Goroutine H α) : Prop :=
  program.Follows (nonceProtocol H none)
    (fun _ position' => position'.Ready none ∧
      Keeps copies depositID position') position

private theorem follows_commitOrRollback (closable : position.Closable none) :
    (commitOrRollback : Goroutine H _).Follows (nonceProtocol H none)
      (fun _ position' => position'.Ready none ∧
        position'.copies = position.copies) position := by
  rw [commitOrRollback]
  refine follows_ask closable ?_
  rintro (err | _) _
  · refine follows_ask closable.closed ?_
    rintro (rollbackErr | _) _
    · exact ⟨closable.closed.closable.closed, rfl⟩
    · exact ⟨closable.closed.closable.closed, rfl⟩
  · exact ⟨closable.closed, rfl⟩

private theorem ends_commitOrRollback (closable : position.Closable none)
    (keeps : Keeps copies depositID position) :
    Ends copies depositID position
      (commitOrRollback : Goroutine H _) := by
  refine (follows_commitOrRollback closable).mono ?_
  rintro _ position' ⟨ready, same⟩
  exact ⟨ready, fun copy mem other => by
    rw [same]
    exact keeps copy mem other⟩

private theorem follows_update {α : Type} (work : AtWork copies mTx position)
    {rest : Except String Unit → Goroutine H α}
    {post : α → NoncePosition H → Prop}
    (next : ∀ answer position', position'.Closable none →
      Keeps copies mTx.depositID position' →
      (rest answer).Follows (nonceProtocol H none) post position') :
    ((ClaimCall.updateClaimTx mTx).ask >>= rest).Follows
      (nonceProtocol H none) post position := by
  refine follows_ask ⟨rfl, work.ready, work.covers⟩ fun answer _ => ?_
  apply next answer
  · exact ⟨work.ready.phase, nofun⟩
  · intro copy mem other
    exact mem_filter.mpr
      ⟨work.keeps copy mem other, by simpa using other⟩

private theorem ends_storeTx (work : AtWork copies mTx position) :
    Ends copies mTx.depositID position (storeTx mTx) := by
  rw [storeTx]
  exact follows_update work fun _ _ closable keeps =>
    ends_commitOrRollback closable keeps

private theorem follows_checkIfClaimed (work : AtWork copies mTx position) :
    (checkIfClaimed mTx).Follows (nonceProtocol H none)
      (fun _ position' => position'.Closable none ∧
        Keeps copies mTx.depositID position') position := by
  have unchanged : position.Closable none ∧
      Keeps copies mTx.depositID position :=
    ⟨work.ready.closable, work.keeps⟩
  rw [checkIfClaimed]
  refine follows_ask work.ready ?_
  rintro (err | deposit) _
  · exact unchanged
  · refine follows_ask work.ready ?_
    rintro (err | isClaimed) _
    · exact unchanged
    · have updated : AtWork copies
          { mTx with status := if isClaimed then .confirmed else .failed }
          position :=
        ⟨work.ready, work.covers, work.keeps⟩
      exact follows_update updated fun _ _ closable keeps =>
        ⟨closable, keeps⟩

private theorem ends_afterFailedReview (work : AtWork copies mTx position)
    (err : String) :
    Ends copies mTx.depositID position (afterFailedReview mTx err) := by
  rw [afterFailedReview]
  split
  · exact follows_bind (follows_checkIfClaimed work) fun _ _ kept =>
      ends_commitOrRollback kept.1 kept.2
  · exact ends_commitOrRollback work.ready.closable work.keeps

private theorem follows_findTxAgain (ready : position.Ready none)
    (txHash : H) (left : Nat) (answer : Except FindErr Unit) :
    (findTxAgain txHash left answer).Follows (nonceProtocol H none)
      (fun _ position' => position' = position) position := by
  induction left generalizing answer with
  | zero => rfl
  | succ left induction =>
    cases answer with
    | ok found => rfl
    | error err => exact follows_ask ready fun answer _ => induction answer

private theorem follows_checkTxHistoryFrom (tm : MonitorTxs)
    (ready : position.Ready none) (check : HistoryCheck)
    (history : List H) :
    (tm.checkTxHistoryFrom check history).Follows (nonceProtocol H none)
      (fun _ position' => position' = position) position := by
  induction history generalizing check with
  | nil => rfl
  | cons txHash rest induction =>
    rw [checkTxHistoryFrom]
    refine follows_ask ready ?_
    rintro (err | _ | receipt) _
    · exact induction _
    · refine follows_ask ready fun answer _ => ?_
      refine follows_bind (follows_findTxAgain ready txHash _ answer) ?_
      rintro ((_ | err) | _) _ rfl
      · exact induction _
      · exact induction _
      · exact induction _
    · simp only []
      split
      · rfl
      · exact induction _

private theorem follows_reviewMonitoredTx (tm : MonitorTxs)
    (work : AtWork copies mTx position) (reviewNonce : Bool) :
    (tm.reviewMonitoredTx mTx reviewNonce).Follows (nonceProtocol H none)
      (fun reviewed position' => AtWork copies reviewed.1 position' ∧
        reviewed.1.depositID = mTx.depositID) position := by
  rw [reviewMonitoredTx]
  refine follows_bind (follows_estimateGas work.ready.keepsGas _ _ _) ?_
  rintro (err | gas) _ rfl
  · exact ⟨work, rfl⟩
  · have same : AtWork copies { mTx with gas := max mTx.gas gas } _ :=
      ⟨work.ready, work.covers, work.keeps⟩
    simp only []
    split
    · rw [reviewNonceOf]
      refine follows_bind (follows_getNextNonce work.ready nofun) ?_
      rintro _ _ (⟨err, rfl, rfl⟩ | ⟨nonce, rfl, rfl⟩)
      · exact ⟨same, rfl⟩
      · refine ⟨⟨⟨work.ready.phase, work.ready.written,
          nofun⟩, ?_, work.keeps⟩, rfl⟩
        obtain ⟨copy, mem, deposit, sender, known⟩ := work.covers
        refine ⟨copy, mem, deposit, sender, ?_⟩
        rcases Nat.le_total nonce mTx.nonce with smaller | larger
        · rcases known with old | taken
          · left
            simp only [max_eq_left smaller]
            exact old
          · right
            simp only [max_eq_left smaller]
            exact mem_cons_of_mem _ taken
        · right
          simp only [max_eq_right larger]
          exact mem_cons_self
    · exact ⟨same, rfl⟩

variable [DecidableEq H]

private theorem AtWork.addHistory (work : AtWork copies mTx position)
    (txHash : H) : AtWork copies (addHistory mTx txHash) position ∧
      (MonitorTxs.addHistory mTx txHash).depositID = mTx.depositID := by
  rw [MonitorTxs.addHistory]
  split
  · exact ⟨work, rfl⟩
  · exact ⟨⟨work.ready, work.covers, work.keeps⟩, rfl⟩

private theorem ends_afterSendError (tm : MonitorTxs)
    (work : AtWork copies mTx position) (txHash : H) (err : String) :
    Ends copies mTx.depositID position
      (tm.afterSendError mTx txHash err) := by
  rw [afterSendError]
  have reset : (resetNonce mTx.fromAddr (isNonceError err) :
      Goroutine H Unit).Follows (nonceProtocol H none)
        (fun _ position' => position' = position) position := by
    rw [resetNonce]
    split
    · exact follows_ask ⟨rfl, work.ready⟩ fun _ _ => rfl
    · rfl
  refine follows_bind reset ?_
  rintro _ _ rfl
  have removed : AtWork copies (removeHistory mTx txHash) _ :=
    ⟨work.ready, work.covers, work.keeps⟩
  refine follows_bind
    (follows_reviewMonitoredTx tm removed (isNonceError err)) ?_
  rintro ⟨reviewed, err | _⟩ position' ⟨work, same⟩
  · have ended := ends_afterFailedReview work err
    rw [same] at ended
    exact ended
  · have ended := ends_storeTx work
    rw [same] at ended
    exact ended

private theorem ends_sendTx (tm : MonitorTxs)
    (work : AtWork copies mTx position) :
    Ends copies mTx.depositID position (tm.sendTx mTx) := by
  rw [sendTx]
  refine follows_ask work.ready ?_
  rintro (err | gasPrice) _
  · exact ends_commitOrRollback work.ready.closable work.keeps
  · have priced : AtWork copies
        { mTx with gasPrice := some (gasPrice * 10) } position :=
      ⟨work.ready, work.covers, work.keeps⟩
    refine follows_ask work.ready ?_
    rintro (err | txHash) _
    · exact ends_commitOrRollback work.ready.closable work.keeps
    · obtain ⟨work, same⟩ := priced.addHistory txHash
      have stored := ends_storeTx work
      rw [same] at stored
      refine follows_ask work.ready ?_
      rintro ((_ | err) | _) _
      · refine follows_ask work.ready ?_
        rintro (err | _) _
        · have ended := ends_afterSendError tm work txHash err
          rw [same] at ended
          exact ended
        · exact stored
      · exact stored
      · exact stored

private theorem ends_processTx (tm : MonitorTxs)
    (ready : position.Ready none) (read : mTx ∈ position.copies)
    (mTxs : copies = position.copies) :
    Ends copies mTx.depositID position (tm.processTx mTx) := by
  subst mTxs
  rw [processTx]
  refine follows_ask ready ?_
  have opened := ready.closable.closed
  have work : AtWork position.copies mTx position.closed :=
    ⟨opened, ⟨mTx, read, rfl, rfl, .inl rfl⟩, fun _ mem _ =>
      mem⟩
  rintro (err | _) _
  · exact ⟨opened, work.keeps⟩
  · refine follows_bind (follows_checkTxHistoryFrom tm opened _ _) ?_
    rintro check _ rfl
    have finished : ∀ status, AtWork position.copies
        { mTx with status := status } position.closed :=
      fun _ => ⟨work.ready, work.covers, work.keeps⟩
    split
    · exact ends_storeTx (finished .confirmed)
    · split
      · exact ends_storeTx (finished .failed)
      · split
        · split
          · refine follows_bind (follows_reviewMonitoredTx tm work true) ?_
            rintro ⟨reviewed, err | _⟩ position' ⟨work, same⟩
            · have ended := ends_afterFailedReview work err
              rw [same] at ended
              exact ended
            · have ended := ends_sendTx tm work
              rw [same] at ended
              exact ended
          · exact ends_sendTx tm work
        · exact ends_commitOrRollback work.ready.closable work.keeps

private theorem follows_processTxs (tm : MonitorTxs)
    (mTxs : List (MonitoredTx H)) (ready : position.Ready none)
    (distinct : (mTxs.map MonitoredTx.depositID).Nodup)
    (read : ∀ mTx, mTx ∈ mTxs → mTx ∈ position.copies) :
    (tm.processTxs mTxs).Follows (nonceProtocol H none)
      (fun _ position' => position'.Ready none) position := by
  induction mTxs generalizing position with
  | nil => exact ready
  | cons mTx rest induction =>
    rw [processTxs]
    obtain ⟨fresh, others⟩ := nodup_cons.mp distinct
    refine follows_bind
      (ends_processTx tm ready (read mTx mem_cons_self) rfl) ?_
    rintro (err | _) position' ⟨ready, keeps⟩
    · exact ready
    · apply induction ready others
      intro other mem
      apply keeps other (read other (mem_cons_of_mem _ mem))
      intro same
      apply fresh
      rw [← same]
      exact mem_map_of_mem mem

theorem follows_monitorTxs (tm : MonitorTxs)
    (ready : position.Ready none) :
    (tm.monitorTxs : Goroutine H _).Follows (nonceProtocol H none)
      (fun _ position' => position'.Ready none) position := by
  rw [monitorTxs]
  refine follows_ask ready ?_
  have opened := ready.closable.closed
  rintro (err | _) _
  · exact opened
  · refine follows_ask ⟨rfl, rfl, opened⟩ ?_
    rintro (err | mTxs) distinct
    · refine follows_ask opened ?_
      rintro (rollbackErr | _) _
      · exact opened.closable.closed
      · exact opened.closable.closed
    · have read : NoncePosition.Ready none
          { position.closed with copies := mTxs } :=
        ⟨opened.phase, opened.written, nofun⟩
      refine follows_bind (follows_commitOrRollback read.closable) ?_
      rintro (err | _) position' ⟨ready, same⟩
      · exact ready
      · apply follows_processTxs tm mTxs ready distinct
        rw [same]
        exact fun _ mem => mem

end MonitorTxs

end BridgeService
