import BridgeService.Bridgectrl.Rebuild

/-!
# Sessions

While a synchronizer works on its network, three things change: the tables it
writes to, the id sequences, and the exit tree of the network.  A session
describes such a state relative to the state in which the work began.  It
covers work on the committed tables as well as work in a transaction.
-/

namespace BridgeService

open ErrorState List

namespace Sequences

structure Le (old new : Sequences) : Prop where
  block : old.block ≤ new.block
  deposit : old.deposit ≤ new.deposit
  exitRoot : old.exitRoot ≤ new.exitRoot
  rollupExit : old.rollupExit ≤ new.rollupExit

theorem Le.refl (seqs : Sequences) : seqs.Le seqs :=
  ⟨le_rfl, le_rfl, le_rfl, le_rfl⟩

theorem Le.trans {first second third : Sequences}
    (early : first.Le second) (late : second.Le third) : first.Le third :=
  ⟨early.block.trans late.block, early.deposit.trans late.deposit,
    early.exitRoot.trans late.exitRoot,
    early.rollupExit.trans late.rollupExit⟩

end Sequences

variable {H α : Type}

namespace Tables

structure Issued (seqs : Sequences) (t : Tables H) : Prop where
  block : ∀ row, row ∈ t.block → row.id ≤ seqs.block
  deposit : ∀ row, row ∈ t.deposit → row.id ≤ seqs.deposit
  exitRoot : ∀ row, row ∈ t.exitRoot → row.id ≤ seqs.exitRoot
  rollupExit : ∀ row, row ∈ t.rollupExit → row.id ≤ seqs.rollupExit

theorem Issued.mono {old new : Sequences} {t : Tables H}
    (issued : t.Issued old) (later : old.Le new) : t.Issued new where
  block := fun row stored => (issued.block row stored).trans later.block
  deposit := fun row stored =>
    (issued.deposit row stored).trans later.deposit
  exitRoot := fun row stored =>
    (issued.exitRoot row stored).trans later.exitRoot
  rollupExit := fun row stored =>
    (issued.rollupExit row stored).trans later.rollupExit

theorem Issued.congr {seqs : Sequences} {t t' : Tables H}
    (issued : t.Issued seqs) (block : t'.block = t.block)
    (deposit : t'.deposit.map DepositRow.id = t.deposit.map DepositRow.id)
    (exitRoot : t'.exitRoot.map ExitRootRow.id = t.exitRoot.map ExitRootRow.id)
    (rollupExit : t'.rollupExit = t.rollupExit) : t'.Issued seqs where
  block := by
    rw [block]
    exact issued.block
  deposit := by
    intro row stored
    have mem := mem_map_of_mem (f := DepositRow.id) stored
    rw [deposit] at mem
    obtain ⟨old, oldStored, same⟩ := mem_map.mp mem
    rw [← same]
    exact issued.deposit old oldStored
  exitRoot := by
    intro row stored
    have mem := mem_map_of_mem (f := ExitRootRow.id) stored
    rw [exitRoot] at mem
    obtain ⟨old, oldStored, same⟩ := mem_map.mp mem
    rw [← same]
    exact issued.exitRoot old oldStored
  rollupExit := by
    rw [rollupExit]
    exact issued.rollupExit

theorem Issued.setReady {seqs : Sequences} {t : Tables H}
    (issued : t.Issued seqs) (ready : Bool)
    (matching : DepositRow H → Bool) :
    (t.setReady ready matching).Issued seqs where
  block := issued.block
  deposit := by
    intro row stored
    obtain ⟨old, oldIn, rfl⟩ := mem_setReady.mp stored
    have bound := issued.deposit old oldIn
    split
    · exact bound
    · exact bound
  exitRoot := issued.exitRoot
  rollupExit := issued.rollupExit

theorem Issued.deleteDeposits {seqs : Sequences} {t : Tables H}
    (issued : t.Issued seqs) (gone : DepositRow H → Bool) :
    (t.deleteDeposits gone).Issued seqs where
  block := issued.block
  deposit := fun row stored =>
    issued.deposit row (mem_filter.mp stored).1
  exitRoot := issued.exitRoot
  rollupExit := issued.rollupExit

theorem Issued.reset {seqs : Sequences} {t : Tables H}
    (issued : t.Issued seqs) (blockNumber networkID : Nat) :
    (t.reset blockNumber networkID).Issued seqs where
  block := fun row stored => issued.block row (mem_filter.mp stored).1
  deposit := fun row stored =>
    issued.deposit row (mem_filter.mp stored).1
  exitRoot := fun row stored =>
    issued.exitRoot row (mem_filter.mp stored).1
  rollupExit := fun row stored =>
    issued.rollupExit row (mem_filter.mp stored).1

end Tables

namespace World

def put (base : World H) (dbTx : Querier) (networkID : Nat)
    (seqs : Sequences) (t : Tables H) (mt : MerkleTree H) (tick : Nat) :
    World H :=
  { base.write dbTx seqs t with
    tick := tick
    exitTrees := Function.update base.exitTrees networkID (some mt) }

/-- Work of one network on the tables of a querier. -/
def Session (base : World H) (dbTx : Querier) (networkID : Nat)
    (t : Tables H) (mt : MerkleTree H) (w : World H) : Prop :=
  ∃ seqs tick, w = base.put dbTx networkID seqs t mt tick ∧
    base.seqs.Le seqs ∧ t.Issued seqs

section Put

variable {base : World H} {dbTx : Querier} {networkID : Nat}
  {seqs : Sequences} {t : Tables H} {mt : MerkleTree H} {tick : Nat}

@[simp] theorem put_view :
    (base.put dbTx networkID seqs t mt tick).view dbTx = some t := by
  cases dbTx <;> rfl

@[simp] theorem put_seqs :
    (base.put dbTx networkID seqs t mt tick).seqs = seqs := by
  cases dbTx <;> rfl

@[simp] theorem put_fault :
    (base.put dbTx networkID seqs t mt tick).fault = base.fault := by
  cases dbTx <;> rfl

@[simp] theorem put_tree :
    (base.put dbTx networkID seqs t mt tick).exitTrees networkID =
      some mt := by
  simp [put]

theorem put_ticked {w : World H}
    (ticked : (base.put dbTx networkID seqs t mt tick).Ticked w) :
    ∃ later, w = base.put dbTx networkID seqs t mt later := by
  obtain ⟨later, rfl⟩ := ticked
  exact ⟨later, rfl⟩

theorem put_advance :
    (base.put dbTx networkID seqs t mt tick).advance =
      base.put dbTx networkID seqs t mt (tick + 1) := rfl

theorem put_write (seqs' : Sequences) (t' : Tables H) :
    (base.put dbTx networkID seqs t mt tick).write dbTx seqs' t' =
      base.put dbTx networkID seqs' t' mt tick := by
  cases dbTx <;> rfl

theorem put_setTree (mt' : MerkleTree H) :
    (base.put dbTx networkID seqs t mt tick).setTree networkID mt' =
      base.put dbTx networkID seqs t mt' tick := by
  simp [put, setTree, Function.update_idem]

theorem session_ticked {w : World H}
    (ordered : base.seqs.Le seqs) (issued : t.Issued seqs)
    (ticked : (base.put dbTx networkID seqs t mt tick).Ticked w) :
    base.Session dbTx networkID t mt w := by
  obtain ⟨later, rfl⟩ := put_ticked ticked
  exact ⟨seqs, later, rfl, ordered, issued⟩

end Put

end World

section Statements

variable {base : World H} {dbTx : Querier} {networkID : Nat}
  {t : Tables H} {mt : MerkleTree H}

variable {call : StorageCall}

theorem exec_session
    (statement : Sequences → Tables H →
      Except Err (α × Sequences × Tables H)) :
    Triple (base.Session dbTx networkID t mt)
      (Storage.exec call dbTx statement)
      (fun value w => ∃ seqs seqs' t' tick, base.seqs.Le seqs ∧
        t.Issued seqs ∧ statement seqs t = .ok (value, seqs', t') ∧
        w = base.put dbTx networkID seqs' t' mt tick)
      (fun err w => base.Session dbTx networkID t mt w ∧
        (err = .database ∨ ∃ seqs, statement seqs t = .error err)) := by
  rintro _ ⟨seqs, tick, rfl, ordered, issued⟩
  cases fault : base.fault tick call dbTx with
  | true =>
    rw [Storage.exec_faulty (by rw [World.put_fault]; exact fault),
      World.put_advance]
    exact ⟨⟨seqs, tick + 1, rfl, ordered, issued⟩, .inl rfl⟩
  | false =>
    rw [Storage.exec_view (by rw [World.put_fault]; exact fault)
      World.put_view, World.put_seqs, World.put_advance]
    cases result : statement seqs t with
    | error err =>
      exact ⟨⟨seqs, tick + 1, rfl, ordered, issued⟩, .inr ⟨seqs, result⟩⟩
    | ok outcome =>
      obtain ⟨value, seqs', t'⟩ := outcome
      refine ⟨seqs, seqs', t', tick + 1, ordered, issued, result, ?_⟩
      exact World.put_write seqs' t'

theorem query_session (read : Tables H → Except Err α) :
    Triple (base.Session dbTx networkID t mt)
      (Storage.query call dbTx read)
      (fun value w => base.Session dbTx networkID t mt w ∧
        read t = .ok value)
      (fun err w => base.Session dbTx networkID t mt w ∧
        (err = .database ∨ read t = .error err)) := by
  apply (exec_session _).weaken
  · rintro value w ⟨seqs, seqs', t', tick, ordered, issued, ran, rfl⟩
    obtain ⟨_, answer, ⟨⟩⟩ := answer_ok ran
    exact ⟨⟨seqs, tick, rfl, ordered, issued⟩, answer⟩
  · rintro err w ⟨session, database | ⟨seqs, ran⟩⟩
    · exact ⟨session, .inl database⟩
    · exact ⟨session, .inr (answer_error ran)⟩

theorem update_session (change : Tables H → Except Err (Tables H))
    (issued_change : ∀ seqs t', change t = .ok t' → t.Issued seqs →
      t'.Issued seqs) :
    Triple (base.Session dbTx networkID t mt)
      (Storage.update call dbTx change)
      (fun _ w => ∃ t', change t = .ok t' ∧
        base.Session dbTx networkID t' mt w)
      (fun err w => base.Session dbTx networkID t mt w ∧
        (err = .database ∨ change t = .error err)) := by
  apply (exec_session _).weaken
  · rintro value w ⟨seqs, seqs', t', tick, ordered, issued, ran, rfl⟩
    obtain ⟨_, changed, ⟨⟩⟩ := answer_ok ran
    exact ⟨t', changed, seqs, tick, rfl, ordered,
      issued_change seqs t' changed issued⟩
  · rintro err w ⟨session, database | ⟨seqs, ran⟩⟩
    · exact ⟨session, .inl database⟩
    · exact ⟨session, .inr (answer_error ran)⟩

end Statements

section Blocks

variable [DecidableEq H] {base : World H} {dbTx : Querier}
  {networkID : Nat} {t : Tables H} {mt : MerkleTree H}

/-- The table of blocks after `AddBlock`, which returns the id of the block
with the given hash. -/
inductive BlockAdded (block : Block H) (networkID : Nat) (t : Tables H) :
    Nat → Tables H → Prop
  | known (row : BlockRow H) (stored : row ∈ t.block)
      (sameHash : row.blockHash = block.blockHash) :
      BlockAdded block networkID t row.id t
  | new (id : Nat) (positive : 0 < id)
      (fresh : ∀ row, row ∈ t.block → row.id < id)
      (unknown : ∀ row, row ∈ t.block → row.blockHash ≠ block.blockHash) :
      BlockAdded block networkID t id
        { t with
          block := t.block ++
            [{ id := id
               blockNum := block.blockNumber
               blockHash := block.blockHash
               networkID := networkID }] }

omit [DecidableEq H] in
theorem BlockAdded.rest_eq {block : Block H} {blockNetwork id : Nat}
    {t' : Tables H} (added : BlockAdded block blockNetwork t id t') :
    ∃ rows, t' = { t with block := t.block ++ rows } ∧
      ∀ row, row ∈ rows → row.networkID = blockNetwork := by
  cases added with
  | known row stored sameHash =>
    exact ⟨[], by rw [append_nil], nofun⟩
  | new id positive fresh unknown =>
    refine ⟨_, rfl, ?_⟩
    intro row inside
    rw [mem_singleton.mp inside]

theorem insertBlock_added {seqs : Sequences} (issued : t.Issued seqs)
    (block : Block H) (blockNetwork : Nat) {id : Nat} {seqs' : Sequences}
    {t' : Tables H}
    (inserted : Storage.insertBlock seqs t block blockNetwork =
      (id, seqs', t')) :
    BlockAdded block blockNetwork t id t' ∧ seqs.Le seqs' ∧
      t'.Issued seqs' := by
  rw [Storage.insertBlock] at inserted
  cases search : t.block.find? (fun row =>
      row.blockHash == block.blockHash) with
  | some row =>
    simp only [search, Prod.mk.injEq] at inserted
    obtain ⟨rfl, rfl, rfl⟩ := inserted
    have sameHash : row.blockHash = block.blockHash := by
      simpa using find?_some search
    exact ⟨.known row (mem_of_find?_eq_some search) sameHash,
      .refl _, issued⟩
  | none =>
    simp only [search, Prod.mk.injEq] at inserted
    obtain ⟨rfl, rfl, rfl⟩ := inserted
    refine ⟨.new _ (Nat.succ_pos _) (fun row stored =>
      Nat.lt_succ_of_le (issued.block row stored)) ?_, ?_, ?_⟩
    · intro row stored
      simpa using find?_eq_none.mp search row stored
    · exact ⟨Nat.le_succ _, le_rfl, le_rfl, le_rfl⟩
    · refine ⟨?_, issued.deposit, issued.exitRoot, issued.rollupExit⟩
      intro row stored
      rcases Rows.mem_push.mp stored with old | rfl
      · exact (issued.block row old).trans (Nat.le_succ _)
      · rfl

theorem addBlock_session (block : Block H) (blockNetwork : Nat) :
    Triple (base.Session dbTx networkID t mt)
      (Storage.addBlock block blockNetwork dbTx)
      (fun id w => ∃ t', BlockAdded block blockNetwork t id t' ∧
        base.Session dbTx networkID t' mt w)
      (fun err w => err ≠ .panic ∧
        base.Session dbTx networkID t mt w) := by
  apply (exec_session _).weaken
  · rintro id w ⟨seqs, seqs', t', tick, ordered, issued, ran, rfl⟩
    obtain ⟨added, later, issued'⟩ := insertBlock_added issued block
      blockNetwork (Except.ok.inj ran)
    exact ⟨t', added, seqs', tick, rfl, ordered.trans later, issued'⟩
  · rintro err w ⟨session, database | ⟨seqs, ran⟩⟩
    · exact ⟨by simp [database], session⟩
    · contradiction

end Blocks

/-- Some work of a network, whatever it has written so far. -/
def World.Working (base : World H) (dbTx : Querier) (networkID height : Nat)
    (w : World H) : Prop :=
  ∃ t mt, base.Session dbTx networkID t mt w ∧ mt.height = height ∧
    mt.networkID = networkID

section Deposits

variable [DecidableEq H] [Externals H] {base : World H} {dbTx : Querier}
  {networkID height : Nat} {t : Tables H} {mt : MerkleTree H}

omit [DecidableEq H] [Externals H] in
theorem addDeposit_session (deposit : Deposit H) :
    Triple (base.Session dbTx networkID t mt)
      (Storage.addDeposit deposit dbTx)
      (fun id w => (∀ row, row ∈ t.deposit → row.id < id) ∧
        base.Session dbTx networkID
          { t with
            deposit := t.deposit ++ [Storage.depositRow id deposit] } mt w)
      (fun _ w => base.Session dbTx networkID t mt w) := by
  apply (exec_session _).weaken
  · rintro id w ⟨seqs, seqs', t', tick, ordered, issued, ran, rfl⟩
    simp only [Except.ok.injEq, Prod.mk.injEq] at ran
    obtain ⟨rfl, rfl, rfl⟩ := ran
    refine ⟨fun row stored =>
      Nat.lt_succ_of_le (issued.deposit row stored), ?_⟩
    refine ⟨_, tick, rfl, ordered.trans ?_, ?_⟩
    · exact ⟨le_rfl, Nat.le_succ _, le_rfl, le_rfl⟩
    · refine ⟨issued.block, ?_, issued.exitRoot, issued.rollupExit⟩
      intro row stored
      rcases Rows.mem_push.mp stored with old | rfl
      · exact (issued.deposit row old).trans (Nat.le_succ _)
      · exact le_rfl
  · rintro err w ⟨session, _⟩
    exact session

omit [DecidableEq H] [Externals H] in
theorem onTree_session
    {method : EStateM Err (MerkleTree H × World H) α}
    {after : α → World H → Prop} {failed : Err → World H → Prop}
    (triple : Triple
      (fun state => state.1 = mt ∧ base.Session dbTx networkID t mt state.2)
      method
      (fun value state => after value (state.2.setTree networkID state.1))
      (fun err state => failed err (state.2.setTree networkID state.1))) :
    Triple (base.Session dbTx networkID t mt)
      (BridgeController.onTree networkID method) after failed := by
  intro w session
  have tree : w.exitTrees networkID = some mt := by
    obtain ⟨seqs, tick, rfl, _⟩ := session
    exact World.put_tree
  rw [BridgeController.onTree, tree]
  have result := triple (mt, w) ⟨rfl, session⟩
  cases ran : method (mt, w) with
  | ok value state =>
    rw [ran] at result
    simp only [ran]
    exact result
  | error err state =>
    rw [ran] at result
    simp only [ran]
    exact result

omit [DecidableEq H] [Externals H] in
theorem session_setTree {mt' : MerkleTree H} {w : World H}
    (session : base.Session dbTx networkID t mt w) :
    base.Session dbTx networkID t mt' (w.setTree networkID mt') := by
  obtain ⟨seqs, tick, rfl, ordered, issued⟩ := session
  exact ⟨seqs, tick, World.put_setTree mt', ordered, issued⟩

omit [DecidableEq H] [Externals H] in
private theorem setRoot_issued {t : Tables H} {root : H}
    {depositID network : Nat} (seqs : Sequences) (t' : Tables H)
    (changed : t.setRoot root depositID network = .ok t')
    (issued : t.Issued seqs) : t'.Issued seqs := by
  rw [Tables.setRoot_ok changed]
  exact ⟨issued.block, issued.deposit, issued.exitRoot, issued.rollupExit⟩

omit [Externals H] in
private theorem bulkSet_issued {t : Tables H} {rows : List (RhtRow H)}
    (seqs : Sequences) (t' : Tables H)
    (changed : t.bulkSet rows = .ok t')
    (issued : t.Issued seqs) : t'.Issued seqs := by
  rw [Tables.bulkSet_ok changed]
  exact ⟨issued.block, issued.deposit, issued.exitRoot, issued.rollupExit⟩

omit [DecidableEq H] in
theorem pathRows_eq
    (represents : mt.Represents height (t.leavesOf networkID))
    (small : height ≤ 64) {row : DepositRow H}
    (onNetwork : row.networkID = networkID)
    (index : row.depositCnt = (t.leavesOf networkID).length) :
    MerkleTree.pathRows row.id
        (MerkleTree.addLeafPath mt row.leaf row.depositCnt) =
      Tables.nodeRows height (Tables.depositEntry row)
        (t.leavesOf row.networkID ++ [row.leaf]) := by
  rw [MerkleTree.pathRows, index,
    (MerkleTree.addLeafPath_spec represents small).nodes, map_map,
    onNetwork, ← index]
  rfl

theorem addLeaf_session (small : height ≤ 32)
    (represents : mt.Represents height (t.leavesOf networkID))
    (sameNetwork : mt.networkID = networkID) (row : DepositRow H)
    (onNetwork : row.networkID = networkID)
    (room : row.depositCnt + 1 < 2 ^ height) :
    Triple
      (base.Session dbTx networkID
        { t with deposit := t.deposit ++ [row] } mt)
      (BridgeController.onTree networkID
        (MerkleTree.addLeaf Storage.merkleTreeStore row.id row.leaf
          row.depositCnt dbTx))
      (fun _ w => row.depositCnt = (t.leavesOf networkID).length ∧
        ∃ mt', mt'.networkID = networkID ∧ mt'.Represents height
            ((t.pushDeposit height row).leavesOf networkID) ∧
          base.Session dbTx networkID (t.pushDeposit height row) mt' w)
      (fun _ w => base.Working dbTx networkID height w) := by
  have limit : 2 ^ height ≤ 2 ^ 32 :=
    Nat.pow_le_pow_right (by omega) small
  apply onTree_session
  rintro ⟨mt, w⟩ ⟨rfl, session⟩
  rw [MerkleTree.addLeaf_eq]
  by_cases same : row.depositCnt ≠ mt.count
  · rw [if_pos same]
    exact ⟨_, mt, session_setTree session, represents.height_eq, sameNetwork⟩
  · have index : row.depositCnt = (t.leavesOf networkID).length := by
      rw [← represents.count_eq]
      simpa using same
    rw [if_neg same]
    dsimp only
    cases rooted : Storage.merkleTreeStore.setRoot
        (MerkleTree.addLeafPath mt row.leaf row.depositCnt).cur row.id
        mt.networkID dbTx w with
    | error err next =>
      have failed := (update_session _ setRoot_issued).error session rooted
      exact ⟨_, _, session_setTree failed.1, represents.height_eq, sameNetwork⟩
    | ok value next =>
      obtain ⟨t', changed, session⟩ :=
        (update_session _ setRoot_issued).ok session rooted
      rw [Tables.setRoot_ok changed] at session
      dsimp only
      cases stored : Storage.merkleTreeStore.bulkSet
          (MerkleTree.pathRows row.id
            (MerkleTree.addLeafPath mt row.leaf row.depositCnt))
          dbTx next with
      | error err next =>
        have failed := (update_session _ bulkSet_issued).error session stored
        exact ⟨_, _, session_setTree failed.1, represents.height_eq,
          sameNetwork⟩
      | ok value next =>
        obtain ⟨t', changed, session⟩ :=
          (update_session _ bulkSet_issued).ok session stored
        have pushed : base.Session dbTx networkID
            (t.pushDeposit height row) mt next := by
          rw [Tables.bulkSet_ok changed,
            pathRows_eq represents (by omega) onNetwork index, index,
            MerkleTree.addLeafPath_cur represents (by omega) (by omega),
            sameNetwork, ← onNetwork] at session
          rw [← onNetwork]
          exact session
        refine ⟨index, _, ?_, ?_, session_setTree pushed⟩
        · exact sameNetwork
        · rw [Tables.leavesOf_pushDeposit, if_pos onNetwork, index,
            represents.count_eq]
          exact represents.push (by omega) (by omega)

theorem storeDeposit_session (tree : t.TreeTables height)
    (small : height ≤ 32)
    (represents : mt.Represents height (t.leavesOf networkID))
    (sameNetwork : mt.networkID = networkID) {deposit : Deposit H}
    (onNetwork : deposit.networkID = networkID)
    (room : deposit.depositCount + 1 < 2 ^ height) :
    Triple (base.Session dbTx networkID t mt)
      (do
        let id ← Storage.addDeposit deposit dbTx
        BridgeController.addDeposit { deposit with id := id } dbTx)
      (fun _ w => ∃ id mt',
        deposit.depositCount = (t.leavesOf networkID).length ∧
        (∀ row, row ∈ t.deposit → row.id < id) ∧
        mt'.networkID = networkID ∧
        (t.pushDeposit height (Storage.depositRow id deposit)).TreeTables
          height ∧
        mt'.Represents height ((t.pushDeposit height
          (Storage.depositRow id deposit)).leavesOf networkID) ∧
        base.Session dbTx networkID (t.pushDeposit height
          (Storage.depositRow id deposit)) mt' w)
      (fun _ w => base.Working dbTx networkID height w) := by
  subst onNetwork
  apply Triple.bind ((addDeposit_session deposit).onError ?_)
  · rintro id w ⟨fresh, session⟩
    refine ((addLeaf_session small represents sameNetwork
      (Storage.depositRow id deposit) rfl room).post ?_) w session
    rintro _ w ⟨index, mt', network, represents', session'⟩
    exact ⟨id, mt', index, fresh, network, tree.pushDeposit fresh index,
      represents', session'⟩
  · intro err w session
    exact ⟨t, mt, session, represents.height_eq, sameNetwork⟩

end Deposits

section Consistency

variable [Externals H]

/-- The committed tables are well formed, and every exit tree represents the
committed leaves of its network. -/
structure World.Consistent (height : Nat) (w : World H) : Prop where
  tables : w.committed.TreeTables height
  issued : w.committed.Issued w.seqs
  capacity : ∀ networkID, (w.committed.leavesOf networkID).length < 2 ^ height
  trees : ∀ networkID mt, w.exitTrees networkID = some mt →
    mt.networkID = networkID ∧
      mt.Represents height (w.committed.leavesOf networkID)

variable {height networkID : Nat} {base w : World H} {t : Tables H}
  {mt : MerkleTree H}

omit [Externals H] in
theorem put_self (tree : base.exitTrees networkID = some mt) :
    base.put .pool networkID base.seqs base.committed mt base.tick =
      base := by
  have same : Function.update base.exitTrees networkID (some mt) =
      base.exitTrees := by
    rw [← tree]
    exact Function.update_eq_self networkID base.exitTrees
  rw [World.put, same]
  rfl

theorem World.Consistent.session (consistent : base.Consistent height)
    (tree : base.exitTrees networkID = some mt) :
    base.Session .pool networkID base.committed mt base :=
  ⟨base.seqs, base.tick, (put_self tree).symm, .refl _, consistent.issued⟩

theorem World.Consistent.of_session (consistent : base.Consistent height)
    (session : base.Session .pool networkID t mt w)
    (tables : t.TreeTables height)
    (capacity : (t.leavesOf networkID).length < 2 ^ height)
    (others : ∀ other, other ≠ networkID →
      t.leavesOf other = base.committed.leavesOf other)
    (sameNetwork : mt.networkID = networkID)
    (represents : mt.Represents height (t.leavesOf networkID)) :
    w.Consistent height := by
  obtain ⟨seqs, tick, rfl, ordered, issued⟩ := session
  constructor
  · exact tables
  · exact issued
  · intro other
    change (t.leavesOf other).length < 2 ^ height
    by_cases same : other = networkID
    · rw [same]
      exact capacity
    · rw [others other same]
      exact consistent.capacity other
  · intro other found tree
    change Function.update base.exitTrees networkID (some mt) other =
      some found at tree
    change found.networkID = other ∧ found.Represents height (t.leavesOf other)
    by_cases same : other = networkID
    · subst same
      rw [Function.update_self] at tree
      rw [← Option.some.inj tree]
      exact ⟨sameNetwork, represents⟩
    · rw [Function.update_of_ne same] at tree
      rw [others other same]
      exact consistent.trees other found tree

end Consistency

end BridgeService
