import BridgeService.Bridgectrl.Session
import Mathlib.Logic.Relation

/-!
# Runs of additions and deletions

The exit trees of all networks share the tables of the database.  A run adds
blocks and deposits, or deletes the last deposits of a network and rebuilds its
tree.  Every run keeps the tables and the trees consistent.
-/

namespace BridgeService

open ErrorState List

section Runs

variable {H : Type} [DecidableEq H] [Externals H]

/-- A write that a run of additions makes: a block, or a deposit with its
leaf. -/
inductive Addition (H : Type)
  | ofBlock (block : Block H) (networkID : Nat)
  | ofDeposit (deposit : Deposit H)

namespace Addition

def run (dbTx : Querier) : Addition H → Service H Unit
  | .ofBlock block networkID => do
      let _ ← Storage.addBlock block networkID dbTx
      pure ()
  | .ofDeposit deposit => do
      let id ← Storage.addDeposit deposit dbTx
      BridgeController.addDeposit { deposit with id := id } dbTx

def runAll (dbTx : Querier) : List (Addition H) → Service H Unit
  | [] => pure ()
  | addition :: rest => do
      addition.run dbTx
      runAll dbTx rest

def leafFor (networkID : Nat) : Addition H → List H
  | .ofBlock _ _ => []
  | .ofDeposit deposit =>
    if deposit.networkID = networkID then [hashDeposit deposit] else []

def Below (height : Nat) : Addition H → Prop
  | .ofBlock _ _ => True
  | .ofDeposit deposit => deposit.depositCount + 1 < 2 ^ height

variable {height : Nat} {w w' : World H}

private theorem run_block {block : Block H} {networkID : Nat}
    (consistent : w.Consistent height)
    (ran : (Addition.ofBlock block networkID).run .pool w = .ok () w') :
    w'.Consistent height ∧ ∀ network, w'.committed.leavesOf network =
        w.committed.leavesOf network := by
  obtain ⟨id, between, added, rest⟩ := bind_ok ran
  cases rest
  obtain ⟨t, seqs, t', view, result, rfl⟩ := Storage.exec_ok added
  have here : w.committed = t := Option.some.inj view
  subst here
  obtain ⟨blockAdded, _, issued⟩ := insertBlock_added consistent.issued block
    networkID (Except.ok.inj result)
  cases blockAdded with
  | known row stored sameHash =>
    exact ⟨⟨consistent.tables, issued, consistent.capacity,
      consistent.trees⟩, fun _ => rfl⟩
  | new id positive fresh unknown =>
    exact ⟨⟨consistent.tables.congr rfl rfl rfl, issued,
      consistent.capacity, consistent.trees⟩, fun _ => rfl⟩

private theorem run_deposit_registered {deposit : Deposit H} {dbTx : Querier}
    (ran : (Addition.ofDeposit deposit).run dbTx w = .ok () w') :
    ∃ mt, w.exitTrees deposit.networkID = some mt := by
  obtain ⟨id, between, stored, added⟩ := bind_ok ran
  obtain ⟨t, seqs, t', view, result, rfl⟩ := Storage.exec_ok stored
  cases tree : w.exitTrees deposit.networkID with
  | some mt => exact ⟨mt, rfl⟩
  | none =>
    have none : (w.advance.write dbTx seqs t').exitTrees
        deposit.networkID = none := by
      cases dbTx <;> exact tree
    rw [BridgeController.addDeposit, BridgeController.onTree] at added
    dsimp only at added
    simp [none] at added

private theorem run_deposit {deposit : Deposit H} (small : height ≤ 32)
    (consistent : w.Consistent height)
    (below : deposit.depositCount + 1 < 2 ^ height)
    (ran : (Addition.ofDeposit deposit).run .pool w = .ok () w') :
    w'.Consistent height ∧ ∀ network, w'.committed.leavesOf network =
        w.committed.leavesOf network ++
          (Addition.ofDeposit deposit).leafFor network := by
  obtain ⟨mt, tree⟩ := run_deposit_registered ran
  obtain ⟨sameNetwork, represents⟩ := consistent.trees _ mt tree
  obtain ⟨id, mt', index, fresh, network, tables, represents', session⟩ :=
    (storeDeposit_session consistent.tables small represents sameNetwork rfl
      below).ok (consistent.session tree) ran
  have leaves : ∀ network,
      (w.committed.pushDeposit height
        (Storage.depositRow id deposit)).leavesOf network =
      w.committed.leavesOf network ++
        (Addition.ofDeposit deposit).leafFor network :=
    fun network => w.committed.leavesOf_pushDeposit height _ network
  constructor
  · apply consistent.of_session session tables
    · rw [leaves, length_append, ← index]
      simp [leafFor, below]
    · intro other different
      rw [leaves]
      simp [leafFor, different.symm]
    · exact network
    · exact represents'
  · intro other
    obtain ⟨seqs, tick, rfl, _⟩ := session
    exact leaves other

theorem runAll_consistent (small : height ≤ 32)
    (additions : List (Addition H))
    (below : ∀ addition, addition ∈ additions → addition.Below height)
    {w w' : World H} (consistent : w.Consistent height)
    (ran : runAll .pool additions w = .ok () w') :
    w'.Consistent height ∧ ∀ network, w'.committed.leavesOf network =
        w.committed.leavesOf network ++
          additions.flatMap (leafFor network) := by
  induction additions generalizing w with
  | nil =>
    cases ran
    simpa using consistent
  | cons addition rest induction =>
    obtain ⟨_, between, added, others⟩ := bind_ok ran
    obtain ⟨kept, leaves⟩ : between.Consistent height ∧
        ∀ network, between.committed.leavesOf network =
          w.committed.leavesOf network ++ addition.leafFor network := by
      cases addition with
      | ofBlock block networkID =>
        simpa [leafFor] using run_block consistent added
      | ofDeposit deposit =>
        exact run_deposit small consistent (below _ mem_cons_self) added
    obtain ⟨final, later⟩ := induction
      (fun addition inside => below addition (mem_cons_of_mem _ inside))
      kept others
    refine ⟨final, fun network => ?_⟩
    rw [later, leaves, flatMap_cons, append_assoc]

end Addition

end Runs

section Frames

variable {H : Type}

/-- What additions on the tables of a querier keep: the networks and heights
of the trees and, in a transaction, the committed tables. -/
structure World.Framed (base : World H) (dbTx : Querier) (w : World H) :
    Prop where
  committed : dbTx = .tx → w.committed = base.committed
  fault : w.fault = base.fault
  shape : ∀ networkID,
    (w.exitTrees networkID).map (fun mt => (mt.networkID, mt.height)) =
      (base.exitTrees networkID).map fun mt => (mt.networkID, mt.height)

theorem World.Framed.refl (base : World H) (dbTx : Querier) :
    base.Framed dbTx base :=
  ⟨fun _ => rfl, rfl, fun _ => rfl⟩

variable {base : World H} {dbTx : Querier}

theorem quiet_of_framed {w : World H} {other : Querier}
    (framed : base.Framed dbTx w) (quiet : base.QuietReads other) :
    w.QuietReads other := by
  have same : ∀ call, w.Faulty call other ↔ base.Faulty call other := by
    intro call
    rw [World.Faulty, World.Faulty, framed.fault]
  exact ⟨by rw [same]; exact quiet.getLastDepositCount,
    by rw [same]; exact quiet.getRoot, by rw [same]; exact quiet.get⟩

theorem framed_write {w : World H} (framed : base.Framed dbTx w)
    (seqs : Sequences) (t : Tables H) :
    base.Framed dbTx (w.advance.write dbTx seqs t) := by
  cases dbTx with
  | pool => exact ⟨nofun, framed.fault, framed.shape⟩
  | tx => exact ⟨framed.committed, framed.fault, framed.shape⟩

private theorem exec_framed {α : Type} {call : StorageCall}
    {statement : Sequences → Tables H →
      Except Err (α × Sequences × Tables H)} :
    Triple (base.Framed dbTx) (Storage.exec call dbTx statement)
      (fun _ => base.Framed dbTx) (fun _ => base.Framed dbTx) := by
  intro w framed
  have advanced : base.Framed dbTx w.advance :=
    ⟨framed.committed, framed.fault, framed.shape⟩
  cases fault : w.fault w.tick call dbTx with
  | true =>
    rw [Storage.exec_faulty fault]
    exact advanced
  | false =>
    cases view : w.view dbTx with
    | none =>
      rw [Storage.exec, if_neg (by simp [fault]), view]
      exact advanced
    | some t =>
      rw [Storage.exec_view fault view]
      cases statement w.seqs t with
      | error err => exact advanced
      | ok outcome =>
        obtain ⟨value, seqs, t'⟩ := outcome
        exact framed_write framed seqs t'

private theorem update_framed {call : StorageCall}
    (change : Tables H → Except Err (Tables H)) :
    Triple (base.Framed dbTx) (Storage.update call dbTx change)
      (fun _ => base.Framed dbTx) (fun _ => base.Framed dbTx) :=
  exec_framed

variable [DecidableEq H] [Externals H]

private theorem addDeposit_framed (deposit : Deposit H) :
    Triple (base.Framed dbTx) (BridgeController.addDeposit deposit dbTx)
      (fun _ => base.Framed dbTx) (fun _ => base.Framed dbTx) := by
  intro w framed
  rw [BridgeController.addDeposit, BridgeController.onTree]
  dsimp only
  cases tree : w.exitTrees deposit.networkID with
  | none => exact framed
  | some mt =>
    have placed : ∀ {next : World H} {mt' : MerkleTree H},
        base.Framed dbTx next →
        (mt'.networkID, mt'.height) = (mt.networkID, mt.height) →
        base.Framed dbTx (next.setTree deposit.networkID mt') := by
      intro next mt' kept same
      refine ⟨kept.committed, kept.fault, fun networkID => ?_⟩
      dsimp only [World.setTree]
      by_cases here : networkID = deposit.networkID
      · subst here
        rw [Function.update_self, Option.map_some, same,
          ← framed.shape, tree, Option.map_some]
      · rw [Function.update_of_ne here]
        exact kept.shape networkID
    dsimp only
    rw [MerkleTree.addLeaf_eq]
    by_cases index : deposit.depositCount ≠ mt.count
    · rw [if_pos index]
      exact placed framed rfl
    · rw [if_neg index]
      dsimp only
      cases rooted : Storage.merkleTreeStore.setRoot
          (MerkleTree.addLeafPath mt (hashDeposit deposit)
            deposit.depositCount).cur deposit.id mt.networkID dbTx w with
      | error err next =>
        exact placed ((update_framed _).error framed rooted) rfl
      | ok value next =>
        have kept := (update_framed _).ok framed rooted
        dsimp only
        cases stored : Storage.merkleTreeStore.bulkSet
            (MerkleTree.pathRows deposit.id
              (MerkleTree.addLeafPath mt (hashDeposit deposit)
                deposit.depositCount)) dbTx next with
        | error err final =>
          exact placed ((update_framed _).error kept stored) rfl
        | ok value final =>
          exact placed ((update_framed _).ok kept stored) rfl

theorem runAll_framed (more : List (Addition H)) :
    Triple (base.Framed dbTx) (Addition.runAll dbTx more)
      (fun _ => base.Framed dbTx) (fun _ => base.Framed dbTx) := by
  induction more with
  | nil => exact .pure fun _ start => start
  | cons addition rest induction =>
    refine .bind ?_ fun _ => induction
    cases addition with
    | ofBlock block networkID =>
      exact .bind exec_framed fun _ =>
        .pure fun _ start => start
    | ofDeposit deposit =>
      exact .bind exec_framed fun _ =>
        addDeposit_framed _

end Frames

section Deletions

variable {H : Type}

/-- An empty database, and empty trees. -/
structure World.Initial [Externals H] (height : Nat) (w : World H) :
    Prop where
  committed : w.committed = Tables.empty
  trees : ∀ networkID mt, w.exitTrees networkID = some mt →
    mt = MerkleTree.emptyTree height networkID

theorem World.Initial.consistent [Externals H] {height : Nat} {w : World H}
    (initial : w.Initial height) : w.Consistent height where
  tables := by
    rw [initial.committed]
    exact Tables.treeTables_empty height
  issued := by
    rw [initial.committed]
    exact ⟨nofun, nofun, nofun, nofun⟩
  capacity := by
    intro networkID
    rw [initial.committed]
    exact Nat.two_pow_pos height
  trees := by
    intro networkID mt tree
    rw [initial.trees networkID mt tree, initial.committed]
    exact ⟨rfl, MerkleTree.emptyTree_represents height networkID⟩

/-- A service that starts on an empty database, without faults. -/
def World.start [Externals H] (height : Nat) (networks : List Nat) : World H :=
  { committed := Tables.empty
    dbTx := none
    openTxs := 0
    seqs :=
      { block := 0
        deposit := 0
        exitRoot := 0
        rollupExit := 0 }
    tick := 0
    fault := fun _ _ _ => false
    exitTrees := fun networkID =>
      if networkID ∈ networks then
        some (MerkleTree.emptyTree height networkID)
      else
        none
    rollupsTree := MerkleTree.emptyTree height (2 ^ 31 - 1)
    l1RollupExitRoot := fun _ => hashZero
    exitRootEvents := fun _ => [] }

theorem World.start_initial [Externals H] (height : Nat) (networks : List Nat) :
    (World.start height networks : World H).Initial height where
  committed := rfl
  trees := by
    intro networkID mt tree
    simp only [World.start] at tree
    split at tree
    · exact (Option.some.inj tree).symm
    · contradiction

/-- The deposits of a network from a count on are deleted, by a reorg or by a
BackwardLET event. -/
inductive Deleted (dbTx : Querier) (networkID count : Nat)
    (w w' : World H) : Prop
  | byReset (blockNumber : Nat)
      (ran : Storage.reset blockNumber networkID dbTx w = .ok () w')
      (suffix : ∀ t, w.view dbTx = some t → ∀ row, row ∈ t.deposit →
        (row ∉ (t.reset blockNumber networkID).deposit ↔
          count ≤ row.depositCnt ∧ row.networkID = networkID))
  | byResetDeposits
      (ran : Storage.resetDeposits count networkID dbTx w = .ok () w')

variable [Externals H] {height networkID count : Nat} {w w' : World H}
  {t : Tables H}

structure Tables.CutOff (height networkID count : Nat) (t t' : Tables H) :
    Prop where
  tables : t'.TreeTables height
  issued : ∀ seqs, t.Issued seqs → t'.Issued seqs
  same : t'.leavesOf networkID = (t.leavesOf networkID).take count
  others : ∀ other, other ≠ networkID → t'.leavesOf other = t.leavesOf other

theorem cutOff_reset (tree : t.TreeTables height) {blockNumber : Nat}
    (cuts : t.CutsAt networkID count fun row =>
      row.blockID ∈ (t.block.filter fun row =>
        blockNumber < row.blockNum && row.networkID == networkID).map
          BlockRow.id) :
    t.CutOff height networkID count (t.reset blockNumber networkID) where
  tables := (tree.deleteDeposits cuts).congr rfl rfl rfl
  issued := fun _ issued => issued.reset blockNumber networkID
  same := Tables.leavesOf_deleteDeposits_same tree cuts
  others := fun _ => Tables.leavesOf_deleteDeposits_other cuts

omit [Externals H] in
private theorem cutsAt_of_suffix {blockNumber : Nat}
    (suffix : ∀ row, row ∈ t.deposit →
      (row ∉ (t.reset blockNumber networkID).deposit ↔
        count ≤ row.depositCnt ∧ row.networkID = networkID)) :
    t.CutsAt networkID count fun row =>
      row.blockID ∈ (t.block.filter fun row =>
        blockNumber < row.blockNum && row.networkID == networkID).map
          BlockRow.id where
  gone_iff := by
    intro row stored
    rw [← suffix row stored]
    simp [Tables.reset, Tables.deleteBlocks, Tables.deleteDeposits, stored,
      and_assoc]

private theorem cutOff_resetDeposits (tree : t.TreeTables height) :
    t.CutOff height networkID count (t.resetDeposits count networkID) := by
  have cuts := t.cutsAt_resetDeposits count networkID
  exact
    { tables := tree.deleteDeposits cuts
      issued := fun _ issued => issued.deleteDeposits _
      same := Tables.leavesOf_deleteDeposits_same tree cuts
      others := fun _ => Tables.leavesOf_deleteDeposits_other cuts }

theorem Deleted.effect {dbTx : Querier} (tree : t.TreeTables height)
    (view : w.view dbTx = some t)
    (deleted : Deleted dbTx networkID count w w') :
    ∃ t', t.CutOff height networkID count t' ∧
      w' = w.advance.write dbTx w.seqs t' := by
  cases deleted with
  | byReset blockNumber ran suffix =>
    rw [Storage.reset] at ran
    obtain ⟨found, t', sameView, result, rfl⟩ := Storage.update_ok ran
    have same : t = found := Option.some.inj (view.symm.trans sameView)
    subst same
    rw [← Except.ok.inj result]
    exact ⟨_, cutOff_reset tree (cutsAt_of_suffix (suffix t view)), rfl⟩
  | byResetDeposits ran =>
    rw [Storage.resetDeposits] at ran
    split at ran
    · contradiction
    · obtain ⟨found, t', sameView, result, rfl⟩ := Storage.update_ok ran
      have same : t = found := Option.some.inj (view.symm.trans sameView)
      subst same
      rw [← Except.ok.inj result]
      exact ⟨_, cutOff_resetDeposits tree, rfl⟩

end Deletions

section Interleavings

variable {H : Type} [DecidableEq H] [Externals H] {height : Nat}

/-- One change of the trees: an addition to the tree of a network, or the
deletion of the last deposits of a network and the reset of its tree. -/
inductive TreeStep (height : Nat) (w w' : World H) : Prop
  | add (addition : Addition H) (below : addition.Below height)
      (ran : addition.run .pool w = .ok () w')
  | delete (networkID count : Nat) (between : World H)
      (deleted : Deleted .pool networkID count w between)
      (rebuilt : BridgeController.reorgMT count networkID .pool between =
        .ok () w')

abbrev TreeRun (height : Nat) : World H → World H → Prop :=
  Relation.ReflTransGen (TreeStep height)

variable {w w' : World H}

private theorem delete_consistent (small : height ≤ 32)
    (injective : Function.Injective2 (hash : H → H → H))
    {networkID count : Nat} {between : World H}
    (consistent : w.Consistent height)
    (deleted : Deleted .pool networkID count w between)
    (rebuilt : BridgeController.reorgMT count networkID .pool between =
      .ok () w') : w'.Consistent height ∧ w'.fault = w.fault := by
  obtain ⟨t', cut, rfl⟩ := deleted.effect consistent.tables rfl
  cases tree : w.exitTrees networkID with
  | none =>
    simp only [BridgeController.reorgMT, BridgeController.onTree,
      World.write, World.advance, tree] at rebuilt
    contradiction
  | some mt =>
    obtain ⟨sameNetwork, represents⟩ := consistent.trees networkID mt tree
    have registered :
        (w.advance.write .pool w.seqs t').exitTrees networkID =
          some mt := tree
    have view : (w.advance.write .pool w.seqs t').view .pool = some t' := rfl
    have capacity := consistent.capacity networkID
    have fits : (t'.leavesOf networkID).length < 2 ^ height := by
      rw [cut.same, length_take]
      omega
    rw [BridgeController.reorgMT,
      BridgeController.onTree_registered registered] at rebuilt
    have reset := MerkleTree.resetLeaf_triple cut.tables (by omega)
      injective view (Nat.le_of_lt fits) count
      (mt, w.advance.write .pool w.seqs t')
      ⟨represents.height_eq, sameNetwork, .refl _⟩
    cases ran : MerkleTree.resetLeaf Storage.merkleTreeStore count .pool
        (mt, w.advance.write .pool w.seqs t') with
    | error err state =>
      simp [ran] at rebuilt
    | ok value state =>
      rw [ran] at rebuilt reset
      cases rebuilt
      obtain ⟨⟨_, network, tick, same⟩, enough, represents'⟩ := reset
      rw [take_of_length_le (by rw [cut.same]; simp)]
        at represents'
      have session : w.Session .pool networkID t' state.1
          (state.2.setTree networkID state.1) :=
        ⟨w.seqs, tick, by rw [same]; rfl, .refl _,
          cut.issued _ consistent.issued⟩
      have kept : (state.2.setTree networkID state.1).fault = w.fault := by
        rw [same]
        rfl
      exact ⟨consistent.of_session session cut.tables fits cut.others
        network represents', kept⟩

theorem TreeStep.consistent (small : height ≤ 32)
    (injective : Function.Injective2 (hash : H → H → H))
    (consistent : w.Consistent height) (step : TreeStep height w w') :
    w'.Consistent height ∧ w'.fault = w.fault := by
  cases step with
  | add addition below ran =>
    have added : Addition.runAll .pool [addition] w = .ok () w' := by
      simp only [Addition.runAll, bind, EStateM.bind, ran]
      rfl
    refine ⟨(Addition.runAll_consistent small [addition] ?_ consistent
      added).1, ((runAll_framed _).ok (.refl w .pool) added).fault⟩
    intro other inside
    rw [mem_singleton.mp inside]
    exact below
  | delete networkID count between deleted rebuilt =>
    exact delete_consistent small injective consistent deleted rebuilt

theorem TreeRun.consistent (small : height ≤ 32)
    (injective : Function.Injective2 (hash : H → H → H))
    (consistent : w.Consistent height) (run : TreeRun height w w') :
    w'.Consistent height ∧ w'.fault = w.fault := by
  induction run with
  | refl => exact ⟨consistent, rfl⟩
  | tail _ step induction =>
    obtain ⟨next, kept⟩ := step.consistent small injective induction.1
    exact ⟨next, kept.trans induction.2⟩

theorem TreeRun.of_runAll (additions : List (Addition H))
    (below : ∀ addition, addition ∈ additions → addition.Below height)
    {w w' : World H} (ran : Addition.runAll .pool additions w = .ok () w') :
    TreeRun height w w' := by
  induction additions generalizing w with
  | nil =>
    injection ran with _ same
    rw [same]
  | cons addition rest induction =>
    obtain ⟨_, between, added, others⟩ := bind_ok ran
    refine .head (.add addition (below _ mem_cons_self) added)
      (induction ?_ others)
    intro other inside
    exact below other (mem_cons_of_mem _ inside)

end Interleavings

section Samples

def sampleDeposit {H : Type} [Externals H] (networkID depositCount : Nat) :
    Deposit H :=
  { id := 0
    leafType := 0
    originalNetwork := 0
    originalAddress := 0
    amount := 1
    destinationNetwork := 0
    destinationAddress := 0
    depositCount := depositCount
    blockID := 0
    blockNumber := 0
    networkID := networkID
    txHash := hashZero
    metadata := []
    readyForClaim := false }

def sampleAdditions : List (Addition Digest) :=
  [.ofDeposit (sampleDeposit 1 0), .ofDeposit (sampleDeposit 1 1)]

theorem sampleAdditions_below :
    ∀ addition, addition ∈ sampleAdditions → addition.Below 2 := by
  intro addition inside
  rcases mem_cons.mp inside with rfl | rest
  · show 0 + 1 < 2 ^ 2
    decide
  · rw [mem_singleton.mp rest]
    show 1 + 1 < 2 ^ 2
    decide

end Samples

end BridgeService
