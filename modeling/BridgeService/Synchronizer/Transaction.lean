import BridgeService.Bridgectrl.Session
import BridgeService.Synchronizer.Handlers

/-!
# The transaction of a block

A block is processed in one transaction that starts from the committed tables.
Seen from the state before the block, both ends of the transaction are work on
the committed tables: a commit publishes the tables of the transaction, and a
rollback leaves the committed tables and rebuilds the exit tree from them.
-/

namespace BridgeService

open ErrorState

variable {H α : Type}

section Ends

variable {before w w' : World H} {networkID : Nat} {t : Tables H}
  {mt : MerkleTree H}

def World.opened (w : World H) : World H :=
  { w.advance with
    dbTx := some w.committed
    openTxs := w.openTxs + 1 }

theorem begin_eq (w : World H) :
    Storage.beginDBTransaction w =
      if w.fault w.tick .beginDBTransaction .pool then
        .error .database w.advance
      else .ok () w.opened := rfl

theorem begin_ok {value : Unit}
    (ran : Storage.beginDBTransaction w = .ok value w') : w' = w.opened := by
  rw [begin_eq] at ran
  split at ran
  · contradiction
  · cases ran
    rfl

theorem opened_session (issued : before.committed.Issued before.seqs)
    (tree : before.exitTrees networkID = some mt) :
    before.opened.Session .tx networkID before.committed mt
      before.opened := by
  refine ⟨before.seqs, before.tick + 1, ?_, .refl _, issued⟩
  have same : Function.update before.exitTrees networkID (some mt) =
      before.exitTrees := by
    rw [← tree]
    exact Function.update_eq_self networkID before.exitTrees
  rw [World.put, World.write, World.opened, World.advance]
  simp only [same]

theorem commit_session (idle : before.dbTx = none)
    (session : before.opened.Session .tx networkID t mt w)
    (ran : Storage.commit w = .ok () w') :
    before.Session .pool networkID t mt w' := by
  obtain ⟨seqs, tick, rfl, ordered, issued⟩ := session
  change (if before.fault tick .commit .tx then _ else _) = _ at ran
  split at ran
  · contradiction
  · injection ran with _ same
    refine ⟨seqs, tick + 1, ?_, ordered, issued⟩
    rw [← same]
    simp [World.put, World.write, World.advance, World.opened, idle]

theorem rollback_session (idle : before.dbTx = none)
    (issued : before.committed.Issued before.seqs)
    (session : before.opened.Session .tx networkID t mt w)
    (ran : Storage.rollback w = .ok () w') :
    before.Session .pool networkID before.committed mt w' := by
  obtain ⟨seqs, tick, rfl, ordered, _⟩ := session
  change (if before.fault tick .rollback .tx then _ else _) = _ at ran
  split at ran
  · contradiction
  · injection ran with _ same
    refine ⟨seqs, tick + 1, ?_, ordered, issued.mono ordered⟩
    rw [← same]
    simp [World.put, World.write, World.advance, World.opened, idle]

end Ends

variable [DecidableEq H] [Externals H]

/-- What a synchronizer relies on when it starts to process a block: no
transaction is open, the state is consistent, and the calls by which it undoes
a block succeed. -/
structure ClientSynchronizer.Ready (s : ClientSynchronizer) (height : Nat)
    (w : World H) : Prop where
  small : height ≤ 32
  injective : Function.Injective2 (hash : H → H → H)
  consistent : w.Consistent height
  idle : w.dbTx = none
  registered : ∃ mt, w.exitTrees s.networkID = some mt
  reads : w.QuietReads .pool
  rollback : ¬w.Faulty .rollback .tx
  retries : 0 < s.retries

def World.RolledBack (before : World H) (networkID height : Nat)
    (w : World H) : Prop :=
  ∃ mt, before.Session .pool networkID before.committed mt w ∧
    mt.networkID = networkID ∧
    mt.Represents height (before.committed.leavesOf networkID)

/-- Outcome of a handler that fails: the block has been undone, unless the
service panicked. -/
def World.Failed (before : World H) (networkID height : Nat) (err : Err)
    (w : World H) : Prop :=
  err = .panic ∨ before.RolledBack networkID height w

namespace ClientSynchronizer

variable {s : ClientSynchronizer} {height : Nat} {before : World H}

private theorem rollbackMT_session (ready : s.Ready height before) :
    Triple (before.opened.Working .tx s.networkID height)
      (BridgeController.rollbackMT s.networkID .pool)
      (fun _ w => ∃ t mt,
        before.opened.Session .tx s.networkID t mt w ∧
        mt.networkID = s.networkID ∧
        mt.Represents height (before.committed.leavesOf s.networkID))
      (fun _ _ => False) := by
  rintro w ⟨t, mt, session, sameHeight, sameNetwork⟩
  refine onTree_session ?_ w session
  rintro ⟨held, w⟩ ⟨same, session⟩
  dsimp only at same session
  subst same
  obtain ⟨seqs, tick, rfl, ordered, issued⟩ := session
  have quiet : (before.opened.put .tx s.networkID seqs t held
      tick).QuietReads .pool :=
    ⟨ready.reads.getLastDepositCount, ready.reads.getRoot, ready.reads.get⟩
  have tables : (before.opened.put .tx s.networkID seqs t held
      tick).committed.TreeTables height := ready.consistent.tables
  refine ((MerkleTree.rollbackMT_triple tables ready.small
    ready.injective (ready.consistent.capacity s.networkID)).consequence
      (fun _ held => held) ?_ ?_) (held, before.opened.put .tx s.networkID seqs
        t held tick) ⟨sameHeight, sameNetwork, .refl _⟩
  · rintro _ ⟨mt', w'⟩ ⟨⟨_, network, ticked⟩, represents⟩
    exact ⟨t, mt', session_setTree
      (World.session_ticked ordered issued ticked), network,
      represents quiet⟩
  · rintro _ _ ⟨_, loud⟩
    exact loud quiet

private theorem retryRollbackMT_session (ready : s.Ready height before) :
    Triple (before.opened.Working .tx s.networkID height)
      (s.retryRollbackMT s.retries)
      (fun _ w => ∃ t mt,
        before.opened.Session .tx s.networkID t mt w ∧
        mt.networkID = s.networkID ∧
        mt.Represents height (before.committed.leavesOf s.networkID))
      (fun _ _ => False) := by
  have positive := ready.retries
  cases fuel : s.retries with
  | zero => omega
  | succ fuel =>
    exact .handle (rollbackMT_session ready) fun _ _ impossible =>
      impossible.elim

theorem rollback_triple (ready : s.Ready height before) (err : Err) :
    Triple (before.opened.Working .tx s.networkID height)
      (s.rollback err : Service H α) (fun _ _ => False)
      (fun raised w => raised = err ∧
        before.RolledBack s.networkID height w) := by
  refine .bind
    ((retryRollbackMT_session ready).onError
      fun _ _ impossible => impossible.elim) fun _ => ?_
  refine .bind ?_ fun _ =>
    .throw fun w (done : before.RolledBack s.networkID height w) =>
      ⟨rfl, done⟩
  rintro w ⟨t, mt, session, network, represents⟩
  cases ran : Storage.rollback w with
  | ok value w' =>
    exact ⟨mt, rollback_session ready.idle ready.consistent.issued session
      ran, network, represents⟩
  | error raised w' =>
    obtain ⟨seqs, tick, rfl, _⟩ := session
    change (if before.fault tick .rollback .tx then _ else _) = _ at ran
    split at ran
    · next fault => exact absurd ⟨tick, fault⟩ ready.rollback
    · contradiction

variable {after : α → World H → Prop}

theorem rollback_failed (ready : s.Ready height before) (err : Err) :
    Triple (before.opened.Working .tx s.networkID height)
      (s.rollback err) after (before.Failed s.networkID height) :=
  (rollback_triple ready err).weaken (fun _ _ impossible => impossible.elim)
    fun _ _ result => .inr result.2

theorem rollback_bind {β : Type} (ready : s.Ready height before) (err : Err)
    {rest : β → Service H α} :
    Triple (before.opened.Working .tx s.networkID height)
      (s.rollback err >>= rest) after (before.Failed s.networkID height) :=
  .bind
    ((rollback_triple ready err).weaken (fun _ _ impossible => impossible)
    fun _ _ result => .inr result.2) fun _ _ impossible => impossible.elim

theorem orRollback_triple (ready : s.Ready height before)
    {start : World H → Prop} {call : Service H α}
    (body : Triple start call after
      fun _ => before.opened.Working .tx s.networkID height) :
    Triple start (s.orRollback call) after
      (before.Failed s.networkID height) := by
  apply Triple.handle body
  intro err
  by_cases panicked : err = .panic
  · subst panicked
    exact .throw fun _ _ => .inl rfl
  · have undone : Triple (before.opened.Working .tx s.networkID height)
        (s.rollback err : Service H α) after
        (before.Failed s.networkID height) :=
      rollback_failed ready err
    cases err with
    | panic => contradiction
    | _ => exact undone

end ClientSynchronizer

end BridgeService
