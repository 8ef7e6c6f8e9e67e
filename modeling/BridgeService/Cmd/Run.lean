import BridgeService.Claimtxman.Status
import BridgeService.Synchronizer.Isolation
import BridgeService.Synchronizer.SyncRun

/-!
# The deployed service

The service runs one synchronizer for L1, and one synchronizer and one claim
transaction manager for every L2 network.  They work on the same database, and
the synchronizers send global exit roots to the managers.  A run interleaves
the transactions of all of them in any order.
-/

namespace BridgeService

open ErrorState

variable {H α : Type}

/-- The L2 networks of a deployment; their ids are not zero, which is the id of
L1. -/
structure Deployment where
  networkIDs : List Nat
  notL1 : ∀ networkID, networkID ∈ networkIDs → networkID ≠ 0
  retries : Nat

namespace Deployment

def l1 (d : Deployment) : ClientSynchronizer :=
  { networkID := 0
    allNetworkIDs := 0 :: d.networkIDs
    chsExitRootEvent := d.networkIDs
    retries := d.retries }

def l2 (d : Deployment) (networkID : Nat) : ClientSynchronizer :=
  { networkID := networkID
    allNetworkIDs := []
    chsExitRootEvent := []
    retries := d.retries }

def synchronizers (d : Deployment) : List ClientSynchronizer :=
  d.l1 :: d.networkIDs.map d.l2

/-- The claim transaction manager of a network; rollup ids are network
ids. -/
def manager (_ : Deployment) (networkID : Nat) : ClaimTxManager :=
  { l2NetworkID := networkID
    rollupID := networkID }

end Deployment

def Service.Ends (program : Service H α) (w w' : World H) : Prop :=
  (∃ value, program w = .ok value w') ∨
    ∃ err, err ≠ .panic ∧ program w = .error err w'

def World.receive (w : World H) (networkID : Nat)
    (rest : List (GlobalExitRoot H)) : World H :=
  { w with
    exitRootEvents := Function.update w.exitRootEvents networkID rest }

variable [DecidableEq H] [Externals H]

/-- One step of a part of the service: a block or a reset of a synchronizer,
which commits or is rolled back; a global exit root that is sent; an entry of
the trusted sequencer; an entry that is received by a manager, which handles it
or, before the networks are synced, ignores it. -/
inductive Deployment.Step (d : Deployment) (height : Nat)
    (w w' : World H) : Prop
  | commit (s : ClientSynchronizer) (deployed : s ∈ d.synchronizers)
      (order : H → List Order) (gers gers' : NewGers) (block : Block H)
      (emitted : s.networkID ≠ 0 → block.OfL2)
      (withinCap : block.WithinCap height)
      (inOrder : w.committed.InOrder s.networkID block)
      (ran : s.processBlock order gers block w = .ok gers' w')
  | rollback (s : ClientSynchronizer) (deployed : s ∈ d.synchronizers)
      (order : H → List Order) (gers : NewGers) (block : Block H)
      (err : Err) (withinCap : block.WithinCap height)
      (ran : s.processBlock order gers block w = .error err w')
      (returned : err ≠ .panic)
      (handled : ¬s.StopsIn order gers block w w')
  | reset (s : ClientSynchronizer) (deployed : s ∈ d.synchronizers)
      (blockNumber : Nat) (ended : (s.resetState blockNumber).Ends w w')
  | sendL1 (ended : d.l1.sendL1Ger.Ends w w')
  | sendL2 (networkID : Nat) (deployed : networkID ∈ d.networkIDs)
      (ended : (d.l2 networkID).sendL2Ger.Ends w w')
  | trusted (networkID : Nat) (deployed : networkID ∈ d.networkIDs)
      (lastGER : H) (exitRoots : Option (H × H))
      (ended : ((d.l2 networkID).syncTrustedState lastGER exitRoots).Ends w w')
  | status (networkID : Nat) (deployed : networkID ∈ d.networkIDs)
      (ger : GlobalExitRoot H) (rest : List (GlobalExitRoot H))
      (pending : w.exitRootEvents networkID = ger :: rest)
      (ended : ((d.manager networkID).updateDepositsStatus ger).Ends
        (w.receive networkID rest) w')
  | ignore (networkID : Nat) (deployed : networkID ∈ d.networkIDs)
      (ger : GlobalExitRoot H) (rest : List (GlobalExitRoot H))
      (pending : w.exitRootEvents networkID = ger :: rest)
      (received : w' = w.receive networkID rest)

abbrev Deployment.Run (d : Deployment) (height : Nat) :
    World H → World H → Prop :=
  Relation.ReflTransGen (d.Step height)

abbrev Deployment.RunWhere (d : Deployment) (height : Nat)
    (condition : World H → World H → Prop) : World H → World H → Prop :=
  Relation.ReflTransGen fun w w' =>
    d.Step height w w' ∧ condition w w'

/-- All synchronizers are ready, and the rows of the networks are kept
apart. -/
structure Deployment.Sound (d : Deployment) (height : Nat) (w : World H) :
    Prop where
  ready : ∀ s, s ∈ d.synchronizers → s.Ready height w
  separated : w.committed.Separated

section Parts

variable {d : Deployment} {height : Nat} {w w' : World H}

omit [DecidableEq H] in
theorem ClientSynchronizer.Ready.of_sameTrees {s : ClientSynchronizer}
    (ready : s.Ready height w)
    (trees : w.committed.SameTrees w'.committed)
    (issued : w'.committed.Issued w'.seqs) (dbTx : w'.dbTx = w.dbTx)
    (exitTrees : w'.exitTrees = w.exitTrees)
    (fault : w'.fault = w.fault) : s.Ready height w' where
  small := ready.small
  injective := ready.injective
  consistent :=
    { tables := ready.consistent.tables.congr trees.entries trees.root
        trees.rht
      issued := issued
      capacity := by
        intro networkID
        rw [Tables.leavesOf_congr trees.entries]
        exact ready.consistent.capacity networkID
      trees := by
        intro networkID mt registered
        rw [exitTrees] at registered
        rw [Tables.leavesOf_congr trees.entries]
        exact ready.consistent.trees networkID mt registered }
  idle := dbTx.trans ready.idle
  registered := by
    rw [exitTrees]
    exact ready.registered
  reads := by
    obtain ⟨count, root, get⟩ := ready.reads
    constructor
    · rw [World.Faulty, fault]
      exact count
    · rw [World.Faulty, fault]
      exact root
    · rw [World.Faulty, fault]
      exact get
  rollback := by
    rw [World.Faulty, fault]
    exact ready.rollback
  retries := ready.retries

/-- Only the channels, what was last sent and the position in the run have
changed. -/
structure World.SameData (before w : World H) : Prop where
  committed : w.committed = before.committed
  dbTx : w.dbTx = before.dbTx
  seqs : w.seqs = before.seqs
  fault : w.fault = before.fault
  exitTrees : w.exitTrees = before.exitTrees
  rollupsTree : w.rollupsTree = before.rollupsTree

omit [DecidableEq H] [Externals H] in
theorem World.SameData.refl (w : World H) : w.SameData w :=
  ⟨rfl, rfl, rfl, rfl, rfl, rfl⟩

omit [DecidableEq H] [Externals H] in
theorem World.sameData_receive (w : World H) (networkID : Nat)
    (rest : List (GlobalExitRoot H)) :
    w.SameData (w.receive networkID rest) :=
  ⟨rfl, rfl, rfl, rfl, rfl, rfl⟩

omit [DecidableEq H] [Externals H] in
private theorem query_sameData {call : StorageCall}
    (read : Tables H → Except Err α) :
    Triple w.SameData (Storage.query call .pool read)
      (fun _ => w.SameData) (fun _ => w.SameData) := by
  intro before same
  refine ((Storage.query_triple read rfl).weaken ?_ ?_) before (.refl before)
  · rintro _ _ ⟨⟨tick, rfl⟩, _⟩
    exact ⟨same.committed, same.dbTx, same.seqs, same.fault, same.exitTrees,
      same.rollupsTree⟩
  · rintro _ _ ⟨⟨tick, rfl⟩, _⟩
    exact ⟨same.committed, same.dbTx, same.seqs, same.fault, same.exitTrees,
      same.rollupsTree⟩

omit [Externals H] in
private theorem getLatestTrustedExitRoot_sameData (networkID : Nat) :
    Triple w.SameData (Storage.getLatestTrustedExitRoot networkID .pool)
      (fun _ => w.SameData) (fun _ => w.SameData) := by
  refine .bind (query_sameData _) fun row => ?_
  have completed : Triple w.SameData
      (Storage.completeFromL1 row.globalExitRoot .pool)
      (fun _ => w.SameData) (fun _ => w.SameData) := by
    refine .bind (.handle (query_sameData _) ?_) fun _ =>
      .pure fun _ same => same
    intro err
    cases err with
    | _ => exact .throw fun _ same => same
  refine .ite (fun _ => ?_) fun _ => ?_
  · exact .pure fun _ same => same
  · exact .bind completed fun _ => .pure fun _ same => same

private theorem sendL1Ger_sameData (s : ClientSynchronizer) :
    Triple w.SameData s.sendL1Ger (fun _ => w.SameData)
      (fun _ => w.SameData) := by
  refine .bind (query_sameData _) fun ger => ?_
  apply Triple.modify
  intro before same
  split
  · exact ⟨same.committed, same.dbTx, same.seqs, same.fault, same.exitTrees,
      same.rollupsTree⟩
  · exact same

omit [Externals H] in
private theorem sendL2Ger_sameData (s : ClientSynchronizer) :
    Triple w.SameData s.sendL2Ger (fun _ => w.SameData)
      (fun _ => w.SameData) := by
  refine .handle (.bind
    (getLatestTrustedExitRoot_sameData s.networkID) fun ger => ?_) ?_
  · apply Triple.modify
    intro before same
    exact ⟨same.committed, same.dbTx, same.seqs, same.fault, same.exitTrees,
      same.rollupsTree⟩
  · intro err
    cases err with
    | l1GERNotFound => exact .pure fun _ same => same
    | _ => exact .throw fun _ same => same

omit [DecidableEq H] [Externals H] in
private theorem ends_sameData {program : Service H α}
    (keeps : Triple w.SameData program (fun _ => w.SameData)
      (fun _ => w.SameData)) (ended : program.Ends w w') :
    w.SameData w' := by
  rcases ended with ⟨value, ran⟩ | ⟨err, _, ran⟩
  · exact keeps.ok (.refl w) ran
  · exact keeps.error (.refl w) ran

structure World.TrustedAdded (before : World H) (networkID : Nat)
    (lastGER mainnetExitRoot rollupExitRoot : H) (w : World H) : Prop where
  committed : ∃ id, (∀ row, row ∈ before.committed.exitRoot → row.id < id) ∧
    w.committed =
      { before.committed with
        exitRoot := before.committed.exitRoot ++
          [{ id := id
             blockID := 0
             globalExitRoot := lastGER
             exitRoots := [mainnetExitRoot, rollupExitRoot]
             networkID := networkID
             allowed := true }] }
  issued : w.committed.Issued w.seqs
  dbTx : w.dbTx = before.dbTx
  fault : w.fault = before.fault
  exitTrees : w.exitTrees = before.exitTrees
  rollupsTree : w.rollupsTree = before.rollupsTree
  exitRootEvents : w.exitRootEvents =
    Function.update before.exitRootEvents networkID
      (before.exitRootEvents networkID ++
        [{ blockID := 0
           blockNumber := 0
           exitRoots := [mainnetExitRoot, rollupExitRoot]
           globalExitRoot := lastGER
           networkID := networkID
           id := 0 }])

omit [Externals H] in
private theorem addTrustedGlobalExitRoot_ok {ger : GlobalExitRoot H}
    {isUpdated : Bool} (issued : w.committed.Issued w.seqs)
    (ran : Storage.addTrustedGlobalExitRoot ger .pool w = .ok isUpdated w') :
    w'.exitRootEvents = w.exitRootEvents ∧
      if isUpdated then
        ∃ id, (∀ row, row ∈ w.committed.exitRoot → row.id < id) ∧
          w'.committed.Issued w'.seqs ∧
          w' =
            { w with
              committed :=
                { w.committed with
                  exitRoot := w.committed.exitRoot ++
                    [{ id := id
                       blockID := 0
                       globalExitRoot := ger.globalExitRoot
                       exitRoots := ger.exitRoots.take 2
                       networkID := ger.networkID
                       allowed := true }] }
              seqs := { w.seqs with exitRoot := id }
              tick := w.tick + 1 }
      else
        w.SameData w' := by
  rw [Storage.addTrustedGlobalExitRoot] at ran
  split at ran
  · contradiction
  · obtain ⟨t, seqs, t', view, inserted, rfl⟩ := Storage.exec_ok ran
    have same : w.committed = t := Option.some.inj view
    subst same
    refine ⟨rfl, ?_⟩
    split at inserted
    · simp only [Except.ok.injEq, Prod.mk.injEq] at inserted
      obtain ⟨rfl, rfl, rfl⟩ := inserted
      exact ⟨rfl, rfl, rfl, rfl, rfl, rfl⟩
    · simp only [Except.ok.injEq, Prod.mk.injEq,
        Storage.insertExitRoot] at inserted
      obtain ⟨rfl, rfl, rfl⟩ := inserted
      refine ⟨w.seqs.exitRoot + 1, ?_, ?_, rfl⟩
      · intro row stored
        exact Nat.lt_succ_of_le (issued.exitRoot row stored)
      · refine ⟨issued.block, issued.deposit, ?_, issued.rollupExit⟩
        intro row stored
        rcases Rows.mem_push.mp stored with old | rfl
        · exact Nat.le_succ_of_le (issued.exitRoot row old)
        · exact le_rfl

theorem syncTrustedState_ends {s : ClientSynchronizer} {lastGER : H}
    {exitRoots : Option (H × H)} (issued : w.committed.Issued w.seqs)
    (ended : (s.syncTrustedState lastGER exitRoots).Ends w w') :
    w.SameData w' ∧ w'.exitRootEvents = w.exitRootEvents ∨
      ∃ mainnetExitRoot rollupExitRoot,
        exitRoots = some (mainnetExitRoot, rollupExitRoot) ∧
        w.TrustedAdded s.networkID lastGER mainnetExitRoot rollupExitRoot
          w' := by
  have nothing : (pure () : Service H Unit).Ends w w' →
      w.SameData w' ∧ w'.exitRootEvents = w.exitRootEvents := by
    rintro (⟨_, ran⟩ | ⟨_, _, ran⟩)
    · cases ran
      exact ⟨.refl w, rfl⟩
    · contradiction
  rw [ClientSynchronizer.syncTrustedState.eq_def] at ended
  split at ended
  · exact .inl (nothing ended)
  split at ended
  · exact .inl (nothing ended)
  next mainnetExitRoot rollupExitRoot =>
  rcases ended with ⟨_, ran⟩ | ⟨err, _, ran⟩
  · obtain ⟨isUpdated, middle, added, sent⟩ := bind_ok ran
    obtain ⟨events, effect⟩ := addTrustedGlobalExitRoot_ok issued added
    cases isUpdated with
    | false =>
      cases sent
      exact .inl ⟨effect, events⟩
    | true =>
      obtain ⟨id, fresh, issued', rfl⟩ := effect
      cases sent
      exact .inr ⟨mainnetExitRoot, rollupExitRoot, rfl, ⟨id, fresh, rfl⟩,
        issued', rfl, rfl, rfl, rfl, rfl⟩
  · rcases bind_error ran with failed | ⟨isUpdated, middle, added, sent⟩
    · rw [Storage.addTrustedGlobalExitRoot,
        if_neg (by simp)] at failed
      rw [Storage.exec_error failed]
      exact .inl ⟨⟨rfl, rfl, rfl, rfl, rfl, rfl⟩, rfl⟩
    · cases isUpdated with
      | false => contradiction
      | true => contradiction

omit [Externals H] in
theorem updateDepositsStatus_ends {tm : ClaimTxManager}
    {ger : GlobalExitRoot H} (idle : w.dbTx = none)
    (ended : (tm.updateDepositsStatus ger).Ends w w') :
    ∃ t, w.Published t w' ∧
      (t = w.committed ∨ StatusUpdated tm ger w.committed t) := by
  rcases ended with ⟨_, ran⟩ | ⟨err, returned, ran⟩
  · obtain ⟨t, updated, published⟩ :=
      ClaimTxManager.updateDepositsStatus_ok idle ran
    exact ⟨t, published, .inr updated⟩
  · rcases ClaimTxManager.updateDepositsStatus_error idle ran with
      panicked | published
    · exact absurd panicked returned
    · exact ⟨w.committed, published, .inl rfl⟩

end Parts

section Runs

variable {d : Deployment} {height : Nat} {w w' : World H}

namespace Deployment

section

variable (sound : d.Sound height w)

include sound

omit [DecidableEq H] in
theorem Sound.of_sameData (same : w.SameData w') : d.Sound height w' := by
  refine ⟨fun s deployed => ?_, ?_⟩
  · have ready := sound.ready s deployed
    refine ready.of_sameTrees ?_ ?_ same.dbTx same.exitTrees same.fault
    · rw [same.committed]
      exact ⟨rfl, rfl, rfl⟩
    · rw [same.committed, same.seqs]
      exact ready.consistent.issued
  · rw [same.committed]
    exact sound.separated

omit [DecidableEq H] in
private theorem Sound.of_settled {networkID : Nat} {t : Tables H}
    (separated : t.Separated) (settled : w.Settled networkID height t w') :
    d.Sound height w' := by
  refine ⟨fun s deployed => settled.ready (sound.ready s deployed), ?_⟩
  rw [settled.committed]
  exact separated

omit [DecidableEq H] in
private theorem Sound.of_published {t : Tables H}
    (published : w.Published t w') (trees : w.committed.SameTrees t)
    (issued : ∀ seqs, w.committed.Issued seqs → t.Issued seqs)
    (separated : t.Separated) : d.Sound height w' := by
  obtain ⟨tick, rfl⟩ := published
  refine ⟨fun s deployed => ?_, separated⟩
  have ready := sound.ready s deployed
  exact ready.of_sameTrees trees (issued _ ready.consistent.issued) rfl rfl rfl

omit [DecidableEq H] in
theorem Sound.readyL1 : d.l1.Ready height w :=
  sound.ready d.l1 List.mem_cons_self

private theorem Sound.status {tm : ClaimTxManager} {ger : GlobalExitRoot H}
    (ended : (tm.updateDepositsStatus ger).Ends w w') : d.Sound height w' := by
  have ready := sound.readyL1
  obtain ⟨t, published, same | updated⟩ :=
    updateDepositsStatus_ends ready.idle ended
  · rw [same] at published
    exact sound.of_published published ⟨rfl, rfl, rfl⟩ (fun _ => id)
      sound.separated
  · refine sound.of_published published ?_ ?_ ?_
    · refine updated.preserves ?_ ⟨rfl, rfl, rfl⟩
      intro t matching same
      exact ⟨(Tables.entries_setReady t true matching).trans same.entries,
        same.root, same.rht⟩
    · intro seqs issued
      refine updated.preserves ?_ issued
      intro t matching issued
      exact issued.setReady true matching
    · exact updated.preserves (fun t matching separated =>
        separated.setReady true matching) sound.separated

private theorem Sound.trusted {s : ClientSynchronizer} {lastGER : H}
    {exitRoots : Option (H × H)}
    (ended : (s.syncTrustedState lastGER exitRoots).Ends w w') :
    d.Sound height w' := by
  rcases syncTrustedState_ends sound.readyL1.consistent.issued ended with
    ⟨same, _⟩ | ⟨mainnet, rollup, _, added⟩
  · exact sound.of_sameData same
  · obtain ⟨id, fresh, committed⟩ := added.committed
    refine ⟨fun other deployed => ?_, ?_⟩
    · refine (sound.ready other deployed).of_sameTrees ?_ added.issued
        added.dbTx added.exitTrees added.fault
      rw [committed]
      exact ⟨rfl, rfl, rfl⟩
    · rw [committed]
      exact sound.separated.pushTrusted rfl fresh

end

theorem Step.sound (step : d.Step height w w')
    (sound : d.Sound height w) : d.Sound height w' := by
  cases step with
  | commit s deployed order gers gers' block emitted withinCap inOrder ran =>
    have ready := sound.ready s deployed
    obtain ⟨t, commits, settled⟩ :=
      ClientSynchronizer.processBlock_ok ready withinCap ran
    refine sound.of_settled ?_ settled
    exact commits.separated ready.consistent.tables sound.separated inOrder
      emitted
  | rollback s deployed order gers block err withinCap ran returned
      handled =>
      rcases ClientSynchronizer.processBlock_error
        (sound.ready s deployed) withinCap ran with
        panicked | settled | ⟨stops, _⟩
      · exact absurd panicked returned
      · exact sound.of_settled sound.separated settled
      · exact absurd stops handled
  | reset s deployed blockNumber ended =>
    have ready := sound.ready s deployed
    have chained := sound.separated.chained
    rcases ended with ⟨_, ran⟩ | ⟨err, returned, ran⟩
    · exact sound.of_settled
        (sound.separated.reset blockNumber s.networkID)
        (ClientSynchronizer.resetState_ok ready chained ran)
    · rcases ClientSynchronizer.resetState_error ready chained ran with
        panicked | settled
      · exact absurd panicked returned
      · exact sound.of_settled sound.separated settled
  | sendL1 ended =>
    exact sound.of_sameData (ends_sameData (sendL1Ger_sameData d.l1) ended)
  | sendL2 networkID deployed ended =>
    exact sound.of_sameData
      (ends_sameData (sendL2Ger_sameData (d.l2 networkID)) ended)
  | trusted networkID deployed lastGER exitRoots ended =>
    exact sound.trusted ended
  | status networkID deployed ger rest pending ended =>
    exact (sound.of_sameData (w.sameData_receive networkID rest)).status ended
  | ignore networkID deployed ger rest pending received =>
    rw [received]
    exact sound.of_sameData (w.sameData_receive networkID rest)

inductive Change (d : Deployment) (height : Nat) (w w' : World H) : Prop
  | kept (same : w'.committed = w.committed)
  | block (s : ClientSynchronizer) (deployed : s ∈ d.synchronizers)
      (order : H → List Order) (gers gers' : NewGers) (block : Block H)
      (emitted : s.networkID ≠ 0 → block.OfL2)
      (inOrder : w.committed.InOrder s.networkID block)
      (ran : s.processBlock order gers block w = .ok gers' w')
      (commits : BlockCommits height s order block w w'.committed)
  | reset (s : ClientSynchronizer) (deployed : s ∈ d.synchronizers)
      (blockNumber : Nat) (ran : s.resetState blockNumber w = .ok () w')
      (committed : w'.committed = w.committed.reset blockNumber s.networkID)
  | trusted (networkID : Nat) (deployed : networkID ∈ d.networkIDs)
      (lastGER mainnetExitRoot rollupExitRoot : H)
      (added : w.TrustedAdded networkID lastGER mainnetExitRoot
        rollupExitRoot w')
  | status (networkID : Nat) (deployed : networkID ∈ d.networkIDs)
      (ger : GlobalExitRoot H) (rest : List (GlobalExitRoot H))
      (pending : w.exitRootEvents networkID = ger :: rest)
      (received : w'.exitRootEvents networkID = rest)
      (updated : StatusUpdated (d.manager networkID) ger w.committed
        w'.committed)

theorem Step.change (step : d.Step height w w')
    (sound : d.Sound height w) : d.Change height w w' := by
  cases step with
  | commit s deployed order gers gers' block emitted withinCap inOrder ran =>
    obtain ⟨t, commits, settled⟩ :=
      ClientSynchronizer.processBlock_ok (sound.ready s deployed) withinCap ran
    rw [← settled.committed] at commits
    exact .block s deployed order gers gers' block emitted inOrder ran commits
  | rollback s deployed order gers block err withinCap ran returned
      handled =>
      rcases ClientSynchronizer.processBlock_error
        (sound.ready s deployed) withinCap ran with
        panicked | settled | ⟨stops, _⟩
      · exact absurd panicked returned
      · exact .kept settled.committed
      · exact absurd stops handled
  | reset s deployed blockNumber ended =>
    have ready := sound.ready s deployed
    have chained := sound.separated.chained
    rcases ended with ⟨_, ran⟩ | ⟨err, returned, ran⟩
    · exact .reset s deployed blockNumber ran
        (ClientSynchronizer.resetState_ok ready chained ran).committed
    · rcases ClientSynchronizer.resetState_error ready chained ran with
        panicked | settled
      · exact absurd panicked returned
      · exact .kept settled.committed
  | sendL1 ended =>
    exact .kept (ends_sameData (sendL1Ger_sameData d.l1) ended).committed
  | sendL2 networkID deployed ended =>
    exact .kept (ends_sameData (sendL2Ger_sameData (d.l2 networkID))
      ended).committed
  | trusted networkID deployed lastGER exitRoots ended =>
    rcases syncTrustedState_ends sound.readyL1.consistent.issued ended with
      ⟨same, _⟩ | ⟨mainnet, rollup, _, added⟩
    · exact .kept same.committed
    · exact .trusted networkID deployed lastGER mainnet rollup added
  | status networkID deployed ger rest pending ended =>
    have ready := (sound.of_sameData
      (w.sameData_receive networkID rest)).readyL1
    obtain ⟨t, ⟨tick, rfl⟩, same | updated⟩ :=
      updateDepositsStatus_ends ready.idle ended
    · exact .kept same
    · have received : (w.receive networkID rest).exitRootEvents
          networkID = rest := by
        simp [World.receive]
      exact .status networkID deployed ger rest pending received updated
  | ignore networkID deployed ger rest pending received =>
    rw [received]
    exact .kept rfl

theorem Run.sound (run : d.Run height w w') (sound : d.Sound height w) :
    d.Sound height w' := by
  induction run with
  | refl => exact sound
  | tail _ step induction => exact step.sound induction

variable {condition : World H → World H → Prop}

theorem RunWhere.weaken {condition' : World H → World H → Prop}
    (weaker : ∀ w w', condition w w' → condition' w w')
    (run : d.RunWhere height condition w w') :
    d.RunWhere height condition' w w' := by
  induction run with
  | refl => exact .refl
  | tail _ step induction =>
    exact induction.tail ⟨step.1, weaker _ _ step.2⟩

theorem RunWhere.run (run : d.RunWhere height condition w w') :
    d.Run height w w' := by
  induction run with
  | refl => exact .refl
  | tail _ step induction => exact induction.tail step.1

theorem RunWhere.induct (holds : World H → Prop)
    (keeps : ∀ {w w' : World H}, d.Sound height w → d.Step height w w' →
      condition w w' → holds w → holds w')
    (run : d.RunWhere height condition w w') (sound : d.Sound height w)
    (start : holds w) : d.Sound height w' ∧ holds w' := by
  induction run with
  | refl => exact ⟨sound, start⟩
  | tail _ step induction =>
    obtain ⟨sound, here⟩ := induction
    exact ⟨step.1.sound sound, keeps sound step.1 step.2 here⟩

omit [DecidableEq H] in
theorem sound_initial (ready : ∀ s, s ∈ d.synchronizers → s.Ready height w)
    (empty : w.committed = Tables.empty) : d.Sound height w := by
  refine ⟨ready, ?_⟩
  rw [empty]
  exact Tables.separated_empty

end Deployment

end Runs

section Samples

def Deployment.commits (height : Nat) (s : ClientSynchronizer)
    (order : H → List Order) (block : Block H) (check : World H → Bool)
    (w : World H) : Bool :=
  decide (s.networkID ≠ 0 → block.OfL2) &&
    decide (block.WithinCap height) &&
    decide (w.committed.InOrder s.networkID block) &&
    returns (s.processBlock order
      { isNewL1Ger := false
        isNewL2Ger := false } block) (fun _ w' => check w') w

theorem Deployment.step_of_commits {d : Deployment} {height : Nat}
    {s : ClientSynchronizer} (deployed : s ∈ d.synchronizers)
    {order : H → List Order} {block : Block H} {check : World H → Bool}
    {w : World H}
    (committed : Deployment.commits height s order block check w = true) :
    ∃ w', d.Step height w w' ∧ check w' = true := by
  simp only [Deployment.commits, Bool.and_eq_true, decide_eq_true_eq]
    at committed
  obtain ⟨⟨⟨emitted, withinCap⟩, inOrder⟩, returned⟩ := committed
  obtain ⟨gers, w', ran, checked⟩ := exists_of_returns returned
  exact ⟨w', .commit s deployed order _ gers block emitted withinCap inOrder
    ran, checked⟩

def sampleDeployment : Deployment :=
  { networkIDs := [1, 2]
    notL1 := by decide
    retries := 1 }

omit [DecidableEq H] in
theorem sampleDeployment_ready
    (injective : Function.Injective2 (hash : H → H → H)) (height : Nat)
    (small : height ≤ 32) :
    ∀ s, s ∈ sampleDeployment.synchronizers →
      s.Ready height (World.start height [0, 1, 2] : World H) := by
  intro s deployed
  have inside : s.networkID ∈ [0, 1, 2] ∧ s.retries = 1 := by
    revert s
    decide
  exact
    { small := small
      injective := injective
      consistent := (World.start_initial height [0, 1, 2]).consistent
      idle := rfl
      registered := ⟨_, if_pos inside.1⟩
      reads := ⟨nofun, nofun, nofun⟩
      rollback := nofun
      retries := by
        rw [inside.2]
        exact Nat.one_pos }

end Samples

end BridgeService
