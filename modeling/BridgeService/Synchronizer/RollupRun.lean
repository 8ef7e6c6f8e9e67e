import BridgeService.Bridgectrl.Runs
import BridgeService.Synchronizer.RollupEffects
import BridgeService.Synchronizer.Transaction
import Mathlib.Logic.Relation

/-!
# Runs of the rollup exit tree

Leaves are added to the rollup exit tree inside transactions that commit or are
rolled back as a whole, and a reorganisation of L1 deletes the rows of the
removed blocks.  In every such run the table holds whole versions of the tree.
-/

namespace BridgeService

open ErrorState

variable {H α : Type}

/-- Work on the tables of a querier that leaves the trees in memory alone. -/
structure World.Carrying (base : World H) (dbTx : Querier) (t : Tables H)
    (w : World H) : Prop where
  view : w.view dbTx = some t
  issued : t.Issued w.seqs
  later : base.seqs.Le w.seqs
  committed : dbTx = .tx → w.committed = base.committed
  rollupsTree : w.rollupsTree = base.rollupsTree
  fault : w.fault = base.fault

/-- Such work has failed, and the tables of the querier are given up. -/
structure World.GivenUp (base : World H) (dbTx : Querier) (w : World H) :
    Prop where
  later : base.seqs.Le w.seqs
  committed : dbTx = .tx → w.committed = base.committed
  rollupsTree : w.rollupsTree = base.rollupsTree
  fault : w.fault = base.fault

section Statements

variable {base : World H} {dbTx : Querier} {t : Tables H}

theorem World.Carrying.givenUp {w : World H}
    (carrying : base.Carrying dbTx t w) : base.GivenUp dbTx w :=
  ⟨carrying.later, carrying.committed, carrying.rollupsTree, carrying.fault⟩

theorem exec_carrying {call : StorageCall}
    {statement : Sequences → Tables H → Except Err (α × Sequences × Tables H)}
    (keeps : ∀ seqs value seqs' t', t.Issued seqs →
      statement seqs t = .ok (value, seqs', t') →
      seqs.Le seqs' ∧ t'.Issued seqs') :
    Triple (base.Carrying dbTx t) (Storage.exec call dbTx statement)
      (fun value w => ∃ seqs seqs' t', t.Issued seqs ∧
        statement seqs t = .ok (value, seqs', t') ∧
        base.Carrying dbTx t' w)
      (fun _ => base.GivenUp dbTx) := by
  intro w carrying
  have failed : base.GivenUp dbTx w.advance :=
    ⟨carrying.later, carrying.committed, carrying.rollupsTree, carrying.fault⟩
  cases fault : w.fault w.tick call dbTx with
  | true =>
    rw [Storage.exec_faulty fault]
    exact failed
  | false =>
    rw [Storage.exec_view fault carrying.view]
    cases result : statement w.seqs t with
    | error err => exact failed
    | ok outcome =>
      obtain ⟨value, seqs, t'⟩ := outcome
      obtain ⟨later, issued⟩ := keeps w.seqs value seqs t'
        carrying.issued result
      have newer := carrying.later.trans later
      refine ⟨w.seqs, seqs, t', carrying.issued, result, ?_⟩
      cases dbTx with
      | pool =>
        exact ⟨rfl, issued, newer, nofun, carrying.rollupsTree, carrying.fault⟩
      | tx =>
        exact ⟨rfl, issued, newer, carrying.committed,
          carrying.rollupsTree, carrying.fault⟩

theorem carries_carrying [Externals H] (base : World H) (dbTx : Querier) :
    Carries dbTx (base.Carrying dbTx) (base.GivenUp dbTx) where
  exec := fun keeps => exec_carrying fun seqs value seqs' t' issued ran =>
    (keeps seqs value seqs' t' issued ran).2
  lose := fun _ _ carrying => carrying.givenUp

end Statements

variable [DecidableEq H] [Externals H]

inductive RollupCall (H : Type)
  | addBlock (block : Block H) (networkID : Nat)
  | addRollupExitLeaf (rollupLeaf : RollupExitLeaf H)
  | reset (blockNumber networkID : Nat)

namespace RollupCall

def run (dbTx : Querier) : RollupCall H → Service H Unit
  | .addBlock block networkID => do
      let _ ← Storage.addBlock block networkID dbTx
      pure ()
  | .addRollupExitLeaf rollupLeaf =>
    BridgeController.addRollupExitLeaf rollupLeaf dbTx
  | .reset blockNumber networkID =>
    Storage.reset blockNumber networkID dbTx

def Nonzero : RollupCall H → Prop
  | .addRollupExitLeaf rollupLeaf => rollupLeaf.leaf ≠ hashZero
  | _ => True

end RollupCall

section Calls

variable {base : World H} {dbTx : Querier} {t : Tables H}

theorem addRollupExitLeaf_carrying (rollupLeaf : RollupExitLeaf H) :
    Triple (base.Carrying dbTx t)
      (BridgeController.addRollupExitLeaf rollupLeaf dbTx)
      (fun _ w => 0 < rollupLeaf.rollupId ∧
        ∃ t', RollupLeafAdded base.rollupsTree.height rollupLeaf t t' ∧
          base.Carrying dbTx t' w)
      (fun _ => base.GivenUp dbTx) := by
  intro w carrying
  rw [BridgeController.addRollupExitLeaf, carrying.rollupsTree]
  exact addRollupExitLeaf_triple (carries_carrying base dbTx)
    base.rollupsTree rollupLeaf w carrying

omit [Externals H] in
private theorem addBlock_carrying (block : Block H) (networkID : Nat) :
    Triple (base.Carrying dbTx t) (Storage.addBlock block networkID dbTx)
      (fun _ w => ∃ t', t'.rollupExit = t.rollupExit ∧
        base.Carrying dbTx t' w)
      (fun _ => base.GivenUp dbTx) := by
  apply (exec_carrying _).weaken
  · rintro id w ⟨seqs, seqs', t', issued, ran, carrying⟩
    obtain ⟨added, _⟩ := insertBlock_added issued block networkID
      (Except.ok.inj ran)
    refine ⟨t', ?_, carrying⟩
    cases added with
    | known => rfl
    | new => rfl
  · exact fun _ _ failed => failed
  · intro seqs id seqs' t' issued ran
    exact (insertBlock_added issued block networkID (Except.ok.inj ran)).2

omit [DecidableEq H] [Externals H] in
private theorem reset_carrying (blockNumber networkID : Nat) :
    Triple (base.Carrying dbTx t)
      (Storage.reset blockNumber networkID dbTx)
      (fun _ => base.Carrying dbTx (t.reset blockNumber networkID))
      (fun _ => base.GivenUp dbTx) := by
  rw [Storage.reset, Storage.update]
  have outcome : ∀ {seqs seqs' : Sequences} {value : Unit} {t' : Tables H},
      (.ok ((), seqs, t.reset blockNumber networkID) :
        Except Err (Unit × Sequences × Tables H)) = .ok (value, seqs', t') →
      seqs = seqs' ∧ t.reset blockNumber networkID = t' := by
    intro seqs seqs' value t' ran
    injection ran with same
    injection same with _ same
    injection same with sameSeqs sameTables
    exact ⟨sameSeqs, sameTables⟩
  refine (exec_carrying ?_).post ?_
  · intro seqs _ seqs' t' issued ran
    obtain ⟨rfl, rfl⟩ := outcome ran
    exact ⟨.refl _, issued.reset blockNumber networkID⟩
  · rintro _ w ⟨seqs, seqs', t', _, ran, carrying⟩
    obtain ⟨_, rfl⟩ := outcome ran
    exact carrying

theorem RollupCall.run_triple {height : Nat} (small : height ≤ 64)
    (sameHeight : base.rollupsTree.height = height)
    (valid : ∃ versions, Versions height t.rollupExit versions)
    (call : RollupCall H) (nonzero : call.Nonzero) :
    Triple (base.Carrying dbTx t) (call.run dbTx)
      (fun _ w => ∃ t',
        (∃ versions, Versions height t'.rollupExit versions) ∧
        base.Carrying dbTx t' w)
      (fun _ => base.GivenUp dbTx) := by
  obtain ⟨versions, valid⟩ := valid
  cases call with
  | addBlock block networkID =>
    refine .bind (addBlock_carrying block networkID) fun _ => ?_
    apply Triple.pure
    rintro w ⟨t', same, carrying⟩
    exact ⟨t', ⟨versions, by rw [same]; exact valid⟩, carrying⟩
  | addRollupExitLeaf rollupLeaf =>
    apply (addRollupExitLeaf_carrying rollupLeaf).weaken
    · rintro _ w ⟨positive, t', added, carrying⟩
      rw [sameHeight] at added
      obtain ⟨versions', _, valid'⟩ :=
        added.versionAdded small valid positive nonzero
      exact ⟨t', ⟨versions', valid'⟩, carrying⟩
    · exact fun _ _ failed => failed
  | reset blockNumber networkID =>
    apply (reset_carrying blockNumber networkID).weaken
    · intro _ w carrying
      exact ⟨_, ⟨_, valid.deleteBlocks _⟩, carrying⟩
    · exact fun _ _ failed => failed

theorem RollupCall.opened_of_ok {w w' : World H} (call : RollupCall H)
    (ran : call.run .tx w = .ok () w') : ∃ t, w.dbTx = some t := by
  cases call with
  | addBlock block networkID =>
    obtain ⟨id, between, added, _⟩ := bind_ok ran
    obtain ⟨t, _, _, view, _⟩ := Storage.exec_ok added
    exact ⟨t, view⟩
  | addRollupExitLeaf rollupLeaf =>
    obtain ⟨stored, between, read, _⟩ := bind_ok ran
    change Storage.getLatestRollupExitLeaves .tx w = _ at read
    rw [Storage.getLatestRollupExitLeaves, Storage.query] at read
    obtain ⟨t, _, _, view, _⟩ := Storage.exec_ok read
    exact ⟨t, view⟩
  | reset blockNumber networkID =>
    change Storage.reset blockNumber networkID .tx w = _ at ran
    obtain ⟨t, _, view, _⟩ := Storage.update_ok ran
    exact ⟨t, view⟩

end Calls

/-- One step of the work on the rollup exit tree.  A transaction in which a
call fails is rolled back. -/
inductive RollupStep (w w' : World H) : Prop
  | begin (ran : Storage.beginDBTransaction w = .ok () w')
  | call (call : RollupCall H) (nonzero : call.Nonzero)
      (ran : call.run .tx w = .ok () w')
  | failure (t : Tables H) (opened : w.dbTx = some t) (call : RollupCall H)
      (nonzero : call.Nonzero) (err : Err) (between : World H)
      (ran : call.run .tx w = .error err between)
      (undone : Storage.rollback between = .ok () w')
  | commit (ran : Storage.commit w = .ok () w')
  | rollback (ran : Storage.rollback w = .ok () w')

abbrev RollupRun : World H → World H → Prop :=
  Relation.ReflTransGen RollupStep

structure Tables.Versioned (height : Nat) (seqs : Sequences)
    (t : Tables H) : Prop where
  versions : ∃ versions, Versions height t.rollupExit versions
  issued : t.Issued seqs

omit [DecidableEq H] in
theorem Tables.Versioned.mono {height : Nat} {old new : Sequences}
    {t : Tables H} (versioned : t.Versioned height old)
    (later : old.Le new) : t.Versioned height new :=
  ⟨versioned.versions, versioned.issued.mono later⟩

structure World.Versioned (height : Nat)
    (fault : Nat → StorageCall → Querier → Bool) (w : World H) : Prop where
  sameHeight : w.rollupsTree.height = height
  fault_eq : w.fault = fault
  committed : w.committed.Versioned height w.seqs
  dbTx : ∀ t, w.dbTx = some t → t.Versioned height w.seqs

structure World.RollupInitial (height : Nat) (w : World H) : Prop where
  sameHeight : w.rollupsTree.height = height
  empty : w.committed.rollupExit = []
  issued : w.committed.Issued w.seqs
  idle : w.dbTx = none

section Run

variable {height : Nat} {fault : Nat → StorageCall → Querier → Bool}
  {w w' : World H}

omit [DecidableEq H] in
theorem World.RollupInitial.versioned (initial : w.RollupInitial height) :
    w.Versioned height w.fault where
  sameHeight := initial.sameHeight
  fault_eq := rfl
  committed :=
    ⟨⟨[], by rw [initial.empty]; exact versions_nil height⟩, initial.issued⟩
  dbTx := by
    rw [initial.idle]
    nofun

omit [DecidableEq H] [Externals H] in
private theorem carrying_self {t : Tables H} (view : w.dbTx = some t)
    (issued : t.Issued w.seqs) : w.Carrying .tx t w :=
  ⟨view, issued, .refl _, fun _ => rfl, rfl, rfl⟩

omit [DecidableEq H] in
private theorem versioned_of_rollback {between : World H}
    (versioned : w.Versioned height fault)
    (givenUp : w.GivenUp .tx between)
    (ran : Storage.rollback between = .ok () w') :
    w'.Versioned height fault := by
  rw [Storage.rollback] at ran
  split at ran
  · contradiction
  · split at ran
    · contradiction
    · cases ran
      refine ⟨?_, ?_, ?_, nofun⟩
      · exact givenUp.rollupsTree ▸ versioned.sameHeight
      · exact givenUp.fault.trans versioned.fault_eq
      · change between.committed.Versioned height between.seqs
        rw [givenUp.committed rfl]
        exact versioned.committed.mono givenUp.later

omit [DecidableEq H] in
private theorem versioned_of_commit (versioned : w.Versioned height fault)
    (ran : Storage.commit w = .ok () w') : w'.Versioned height fault := by
  rw [Storage.commit] at ran
  split at ran
  · contradiction
  · next t view =>
    split at ran
    · contradiction
    · cases ran
      exact ⟨versioned.sameHeight, versioned.fault_eq,
        versioned.dbTx t view, nofun⟩

theorem RollupStep.versioned (small : height ≤ 64)
    (step : RollupStep w w') (versioned : w.Versioned height fault) :
    w'.Versioned height fault := by
  cases step with
  | begin ran =>
    rw [begin_ok ran]
    refine ⟨versioned.sameHeight, versioned.fault_eq, versioned.committed, ?_⟩
    intro t same
    rw [← Option.some.inj same]
    exact versioned.committed
  | call call nonzero ran =>
    obtain ⟨t, opened⟩ := call.opened_of_ok ran
    obtain ⟨valid, issued⟩ := versioned.dbTx t opened
    obtain ⟨t', valid', carrying⟩ :=
      (call.run_triple small versioned.sameHeight valid nonzero).ok
        (carrying_self opened issued) ran
    refine ⟨carrying.rollupsTree ▸ versioned.sameHeight,
      carrying.fault.trans versioned.fault_eq, ?_, ?_⟩
    · rw [carrying.committed rfl]
      exact versioned.committed.mono carrying.later
    · intro found view
      have same : t' = found := Option.some.inj (carrying.view.symm.trans view)
      exact ⟨same ▸ valid', same ▸ carrying.issued⟩
  | failure t opened call nonzero err between ran undone =>
    obtain ⟨valid, issued⟩ := versioned.dbTx t opened
    have givenUp :=
      (call.run_triple small versioned.sameHeight valid nonzero).error
        (carrying_self opened issued) ran
    exact versioned_of_rollback versioned givenUp undone
  | commit ran => exact versioned_of_commit versioned ran
  | rollback ran =>
    exact versioned_of_rollback versioned
      ⟨.refl _, fun _ => rfl, rfl, rfl⟩ ran

theorem RollupRun.versioned (small : height ≤ 64) (run : RollupRun w w')
    (versioned : w.Versioned height fault) : w'.Versioned height fault := by
  induction run with
  | refl => exact versioned
  | tail _ step induction => exact step.versioned small induction

end Run

def sampleRollupLeaf (rollupId : Nat) (content : UInt8) :
    RollupExitLeaf Digest :=
  { id := 0
    blockID := 1
    leaf := .bytes [content]
    rollupId := rollupId
    root := hashZero }

theorem sampleRollupLeaf_ne_zero (rollupId : Nat) (content : UInt8) :
    (sampleRollupLeaf rollupId content).leaf ≠ hashZero :=
  Digest.noConfusion

omit [DecidableEq H] in
theorem start_rollupInitial (height : Nat) (networks : List Nat) :
    (World.start height networks : World H).RollupInitial height :=
  ⟨rfl, rfl, ⟨nofun, nofun, nofun, nofun⟩, rfl⟩

end BridgeService
