import BridgeService.Synchronizer.EventOrder

/-!
# Runs of one synchronizer

A synchronizer stores blocks as they arrive and deletes blocks again when the
chain is reorganised.  Both are done in one transaction that either commits or
is undone.  In every run the deposits of the network stay numbered without
gaps, in the order of their blocks, and the exit tree counts them.
-/

namespace BridgeService

open ErrorState

variable {H : Type} [DecidableEq H] [Externals H]

namespace ClientSynchronizer

variable {s : ClientSynchronizer} {height : Nat} {before w : World H}

section Resets

omit [DecidableEq H] in
private theorem reset_session (ready : s.Ready height before)
    (blockNumber : Nat) :
    Triple (fun w => w = before.opened)
      (Storage.reset blockNumber s.networkID .tx)
      (fun _ => before.TreeHeld s.networkID height
        (before.committed.reset blockNumber s.networkID))
      (fun _ => before.opened.Working .tx s.networkID height) := by
  obtain ⟨mt, registered⟩ := ready.registered
  obtain ⟨network, represents⟩ :=
    ready.consistent.trees s.networkID mt registered
  rintro _ rfl
  refine ((update_session _ ?_).weaken ?_ ?_) before.opened
    (opened_session ready.consistent.issued registered)
  · intro seqs t' changed issued
    rw [← Except.ok.inj changed]
    exact issued.reset blockNumber s.networkID
  · rintro _ w ⟨t', changed, session⟩
    rw [← Except.ok.inj changed] at session
    exact ⟨mt, session, represents.height_eq, network⟩
  · rintro _ w ⟨session, _⟩
    exact ⟨_, mt, session, represents.height_eq, network⟩

section

variable (ready : s.Ready height before) (chained : before.committed.Chained)

include ready chained

private theorem reset_body (blockNumber : Nat) :
    Triple (fun w => w = before.opened)
      (do
        s.orRollback (Storage.reset blockNumber s.networkID .tx)
        let depositCnt ← s.orRollback
          (Storage.getNumberDeposits s.networkID blockNumber .tx)
        s.orRollback (BridgeController.reorgMT depositCnt s.networkID .tx)
        s.orRollback Storage.commit)
      (fun _ => before.Settled s.networkID height
        (before.committed.reset blockNumber s.networkID))
      (before.Failed s.networkID height) := by
  have limit : 2 ^ height ≤ 2 ^ 32 :=
    Nat.pow_le_pow_right (by omega) ready.small
  have tree := ready.consistent.tables
  have capacity := ready.consistent.capacity s.networkID
  have cut := cutOff_reset tree
    (chained.cutsAt_reset tree (Nat.lt_of_lt_of_le capacity limit) blockNumber)
  have fits : ((before.committed.reset blockNumber s.networkID).leavesOf
      s.networkID).length < 2 ^ height := by
    rw [cut.same, List.length_take]
    omega
  have counted : (before.committed.reset blockNumber
      s.networkID).getNumberDeposits s.networkID blockNumber =
      ((before.committed.reset blockNumber s.networkID).leavesOf
        s.networkID).length := by
    apply (chained.reset blockNumber s.networkID).getNumberDeposits_eq
      cut.tables (Nat.lt_of_lt_of_le fits limit)
    intro block stored onNetwork
    have kept := (List.mem_filter.mp stored).2
    simp only [onNetwork, beq_self_eq_true, Bool.and_true,
      Bool.not_eq_true', decide_eq_false_iff_not, Nat.not_lt] at kept
    exact kept
  refine .bind (orRollback_triple ready (reset_session ready
    blockNumber)) fun _ => ?_
  rintro w ⟨mt, session, sameHeight, network⟩
  have query : Triple
      (before.opened.Session .tx s.networkID
        (before.committed.reset blockNumber s.networkID) mt)
      (Storage.getNumberDeposits s.networkID blockNumber .tx)
      (fun count w => before.opened.Session .tx s.networkID
          (before.committed.reset blockNumber s.networkID) mt w ∧
        count = ((before.committed.reset blockNumber s.networkID).leavesOf
          s.networkID).length)
      (fun _ => before.opened.Working .tx s.networkID height) :=
    (query_session _).weaken (fun _ _ result =>
        ⟨result.1, (Except.ok.inj result.2).symm.trans counted⟩)
      fun _ _ failed => ⟨_, mt, failed.1, sameHeight, network⟩
  refine (Triple.bind (orRollback_triple ready query) fun count => ?_) w
    session
  rintro w ⟨session, rfl⟩
  refine (Triple.bind (orRollback_triple ready (reorgMT_processing ready
    cut.tables fits _)) fun _ => ?_) w ⟨mt, session, sameHeight, network⟩
  rintro w ⟨_, mt, session, network, represents⟩
  rw [List.take_length] at represents
  exact commit_effect ready w ⟨⟨mt, session, network, represents⟩,
    cut.tables, fits, cut.others⟩

theorem resetState_ok {blockNumber : Nat}
    (ran : s.resetState blockNumber before = .ok () w) :
    before.Settled s.networkID height
      (before.committed.reset blockNumber s.networkID) w := by
  obtain ⟨_, opened, began, rest⟩ := bind_ok ran
  exact (reset_body ready chained blockNumber).ok (begin_ok began) rest

theorem resetState_error {blockNumber : Nat} {err : Err}
    (ran : s.resetState blockNumber before = .error err w) :
    err = .panic ∨
      before.Settled s.networkID height before.committed w := by
  rcases bind_error ran with began | ⟨_, opened, began, rest⟩
  · exact .inr (begin_error ready began)
  · rcases (reset_body ready chained blockNumber).error (begin_ok began)
      rest with panicked | undone
    · exact .inl panicked
    · exact .inr (undone.settled ready.consistent)

end

end Resets

section Runs

/-- One step of a synchronizer: a block or a reset that commits, or one that
fails and is rolled back. -/
inductive SyncStep (s : ClientSynchronizer) (height : Nat)
    (w w' : World H) : Prop
  | commit (order : H → List Order) (gers gers' : NewGers) (block : Block H)
      (withinCap : block.WithinCap height)
      (inOrder : w.committed.InOrder s.networkID block)
      (ran : s.processBlock order gers block w = .ok gers' w')
  | rollback (order : H → List Order) (gers : NewGers) (block : Block H)
      (err : Err) (withinCap : block.WithinCap height)
      (ran : s.processBlock order gers block w = .error err w')
      (returned : err ≠ .panic)
      (handled : ¬s.StopsIn order gers block w w')
  | reset (blockNumber : Nat)
      (ran : s.resetState blockNumber w = .ok () w')
  | resetRollback (blockNumber : Nat) (err : Err)
      (ran : s.resetState blockNumber w = .error err w')
      (returned : err ≠ .panic)

abbrev SyncRun (s : ClientSynchronizer) (height : Nat) :
    World H → World H → Prop :=
  Relation.ReflTransGen (s.SyncStep height)

variable {w' : World H}

theorem commits_chained {order : H → List Order} {block : Block H}
    {t : Tables H} (tree : before.committed.TreeTables height)
    (chained : before.committed.Chained)
    (inOrder : before.committed.InOrder s.networkID block)
    (commits : BlockCommits height s order block before t) : t.Chained := by
  obtain ⟨blockID, start, events, added, _, applied⟩ := commits
  refine (applied.chained ?_ (added.chained chained)
    (BlockAdded.current inOrder added)).2
  cases added with
  | known => exact tree
  | new => exact tree.congr rfl rfl rfl

theorem SyncStep.ready (step : s.SyncStep height w w')
    (ready : s.Ready height w) (chained : w.committed.Chained) :
    s.Ready height w' ∧ w'.committed.Chained := by
  cases step with
  | commit order gers gers' block withinCap inOrder ran =>
    obtain ⟨t, commits, settled⟩ := processBlock_ok ready withinCap ran
    refine ⟨settled.ready ready, ?_⟩
    rw [settled.committed]
    exact commits_chained ready.consistent.tables chained inOrder commits
  | rollback order gers block err withinCap ran returned handled =>
    rcases processBlock_error ready withinCap ran with
      panicked | settled | ⟨stops, _⟩
    · exact absurd panicked returned
    · exact ⟨settled.ready ready, by rw [settled.committed]; exact chained⟩
    · exact absurd stops handled
  | reset blockNumber ran =>
    have settled := resetState_ok ready chained ran
    refine ⟨settled.ready ready, ?_⟩
    rw [settled.committed]
    exact chained.reset blockNumber s.networkID
  | resetRollback blockNumber err ran returned =>
    rcases resetState_error ready chained ran with panicked | settled
    · exact absurd panicked returned
    · exact ⟨settled.ready ready, by rw [settled.committed]; exact chained⟩

theorem SyncRun.ready (run : s.SyncRun height w w')
    (ready : s.Ready height w) (chained : w.committed.Chained) :
    s.Ready height w' ∧ w'.committed.Chained := by
  induction run with
  | refl => exact ⟨ready, chained⟩
  | tail _ step induction => exact step.ready induction.1 induction.2

end Runs

end ClientSynchronizer

end BridgeService
