import BridgeService.Synchronizer.Faultless
import BridgeService.Synchronizer.TreeEffects

/-!
# Work on the exit tree that cannot fail

When no call of the storage fails by itself, the calls that change the exit
tree succeed exactly when their arguments fit the tree: a leaf is added at the
next index, and the tree is reset to a count that it has.  The constraints of
the tree tables reject nothing, provided that no hash is made from itself.
-/

namespace BridgeService

open ErrorState PaddedTree Ledger List

/-- No hash is made from itself, as is assumed of a hash function. -/
def HashesGrow (H : Type) [Externals H] : Prop :=
  ∃ depth : H → Nat, ∀ left right : H, depth left < depth (hash left right) ∧
      depth right < depth (hash left right)

variable {H : Type} [Externals H]

section Tables

variable {height : Nat} {t : Tables H}

private theorem path_nodup (grow : HashesGrow H) (leaves : List H)
    (index height : Nat) :
    ((List.range height).map fun level =>
      (MerkleTree.pathNode leaves index level).1).Nodup := by
  obtain ⟨depth, less⟩ := grow
  have step : ∀ level,
      depth (treeNode leaves level (index / 2 ^ level)) <
        depth (treeNode leaves (level + 1) (index / 2 ^ (level + 1))) := by
    intro level
    rw [treeNode_succ]
    have halves : index / 2 ^ level = 2 * (index / 2 ^ (level + 1)) ∨
        index / 2 ^ level = 2 * (index / 2 ^ (level + 1)) + 1 := by
      rw [div_two_pow_succ]
      omega
    rcases halves with left | right
    · rw [left]
      exact (less _ _).1
    · rw [right]
      exact (less _ _).2
  have increasing : StrictMono fun level =>
      depth (treeNode leaves level (index / 2 ^ level)) :=
    strictMono_nat_of_lt_succ step
  apply List.Nodup.map _ nodup_range
  intro first second same
  exact Nat.succ.inj (increasing.injective (congrArg depth same))

theorem Tables.TreeTables.rht_nodup (tree : t.TreeTables height)
    (grow : HashesGrow H) :
    (t.rht.map fun row => (row.key, row.depositID)).Nodup := by
  rw [tree.rht_eq, derived, map_flatMap, nodup_flatMap]
  constructor
  · intro entry _
    apply List.Nodup.of_map Prod.fst
    rw [map_map, Tables.nodeRows, map_map]
    exact path_nodup grow _ _ _
  · apply tree.ledger.increasing.imp
    intro first second less row inFirst inSecond
    obtain ⟨node, nodeIn, rfl⟩ := mem_map.mp inFirst
    obtain ⟨other, otherIn, same⟩ := mem_map.mp inSecond
    obtain ⟨_, _, rfl⟩ := mem_map.mp nodeIn
    obtain ⟨_, _, rfl⟩ := mem_map.mp otherIn
    injection same with _ sameID
    exact absurd sameID (Nat.ne_of_gt less)

variable {row : DepositRow H}

theorem Tables.TreeTables.setRoot_ok (tree : t.TreeTables height)
    (fresh : ∀ old, old ∈ t.deposit → old.id < row.id) (root : H)
    (network : Nat) :
    ∃ t', ({ t with deposit := t.deposit ++ [row] } : Tables H).setRoot root
      row.id network = .ok t' := by
  have unused : ¬t.root.any (fun stored => stored.depositID == row.id) := by
    intro used
    obtain ⟨stored, storedIn, same⟩ := any_eq_true.mp used
    obtain ⟨entry, entryIn, rfl⟩ := tree.mem_root.mp storedIn
    obtain ⟨old, oldIn, rfl⟩ := Tables.mem_entries.mp entryIn
    exact Nat.ne_of_lt (fresh old oldIn) (beq_iff_eq.mp same)
  have present : (t.deposit ++ [row]).any (fun old => old.id == row.id) := by
    simp
  rw [Tables.setRoot, if_neg unused, if_pos present]
  exact ⟨_, rfl⟩

variable [DecidableEq H]

theorem Tables.TreeTables.bulkSet_ok (tree : t.TreeTables height)
    (grow : HashesGrow H)
    (fresh : ∀ old, old ∈ t.deposit → old.id < row.id)
    (next : row.depositCnt = (t.leavesOf row.networkID).length)
    {t' : Tables H} (same : t'.rht = t.rht) :
    ∃ t'', t'.bulkSet (Tables.nodeRows height (Tables.depositEntry row)
      (t.leavesOf row.networkID ++ [row.leaf])) = .ok t'' := by
  have distinct := (tree.pushDeposit fresh next).rht_nodup grow
  rw [Tables.bulkSet, same]
  exact ⟨_, if_pos distinct⟩

end Tables

section Sessions

variable [DecidableEq H] {base : World H} {networkID height : Nat}
  {t : Tables H} {mt : MerkleTree H}

omit [Externals H] [DecidableEq H] in
theorem World.Session.withinTx {w : World H} (faultless : base.Faultless)
    (session : base.Session .tx networkID t mt w) :
    w.WithinTx fun t' => t' = t := by
  obtain ⟨seqs, tick, rfl, _⟩ := session
  exact ⟨faultless, t, rfl, rfl⟩

section

variable (faultless : base.Faultless) (grow : HashesGrow H)
  (small : height ≤ 32) (tree : t.TreeTables height)
  (represents : mt.Represents height (t.leavesOf networkID))

include faultless grow small tree represents

private theorem addLeaf_total {row : DepositRow H}
    (onNetwork : row.networkID = networkID)
    (fresh : ∀ old, old ∈ t.deposit → old.id < row.id)
    (next : row.depositCnt = (t.leavesOf networkID).length) :
    Triple
      (base.Session .tx networkID
        { t with deposit := t.deposit ++ [row] } mt)
      (BridgeController.onTree networkID
        (MerkleTree.addLeaf Storage.merkleTreeStore row.id row.leaf
          row.depositCnt .tx))
      (fun _ _ => True) fun _ _ => False := by
  have rooted : ∀ root network, Triple
      (World.WithinTx fun t' =>
        t' = { t with deposit := t.deposit ++ [row] })
      (Storage.merkleTreeStore.setRoot root row.id network .tx)
      (fun _ => World.WithinTx fun t' => t'.rht = t.rht)
      fun _ _ => False := by
    intro root network
    apply Storage.update_inTx
    · rintro _ t' rfl changed
      rw [Tables.setRoot_ok changed]
    · rintro _ err rfl rejected
      obtain ⟨t', changed⟩ := tree.setRoot_ok fresh root network
      simp [changed] at rejected
  have stored : Triple (World.WithinTx fun t' => t'.rht = t.rht)
      (Storage.merkleTreeStore.bulkSet (MerkleTree.pathRows row.id
        (MerkleTree.addLeafPath mt row.leaf row.depositCnt)) .tx)
      (fun _ => World.WithinTx fun _ => True) fun _ _ => False := by
    rw [pathRows_eq represents (by omega) onNetwork next]
    rw [← onNetwork] at next
    apply Storage.update_inTx
    · intro _ _ _ _
      trivial
    · intro t' err same rejected
      obtain ⟨t'', changed⟩ := tree.bulkSet_ok grow fresh next same
      simp [changed] at rejected
  apply onTree_session
  rintro ⟨mt, w⟩ ⟨rfl, session⟩
  have same : ¬row.depositCnt ≠ mt.count := by
    rw [represents.count_eq, ← next]
    simp
  rw [MerkleTree.addLeaf_eq, if_neg same]
  dsimp only
  cases first : Storage.merkleTreeStore.setRoot
      (MerkleTree.addLeafPath mt row.leaf row.depositCnt).cur row.id
      mt.networkID .tx w with
  | error err next =>
    exact (rooted _ _).error (session.withinTx faultless) first
  | ok value next =>
    have within := (rooted _ _).ok (session.withinTx faultless) first
    dsimp only
    cases second : Storage.merkleTreeStore.bulkSet
        (MerkleTree.pathRows row.id
          (MerkleTree.addLeafPath mt row.leaf row.depositCnt)) .tx
        next with
    | error err final => exact stored.error within second
    | ok value final => trivial

theorem addLeaf_succeeds (sameNetwork : mt.networkID = networkID)
    {row : DepositRow H} (onNetwork : row.networkID = networkID)
    (room : row.depositCnt + 1 < 2 ^ height)
    (fresh : ∀ old, old ∈ t.deposit → old.id < row.id)
    (next : row.depositCnt = (t.leavesOf networkID).length) :
    Triple
      (base.Session .tx networkID
        { t with deposit := t.deposit ++ [row] } mt)
      (BridgeController.onTree networkID
        (MerkleTree.addLeaf Storage.merkleTreeStore row.id row.leaf
          row.depositCnt .tx))
      (fun _ w => ∃ mt', mt'.networkID = networkID ∧
        mt'.Represents height ((t.pushDeposit height row).leavesOf networkID) ∧
        base.Session .tx networkID (t.pushDeposit height row) mt' w)
      fun _ _ => False := by
  apply ((addLeaf_session small represents sameNetwork row onNetwork
    room).of_total (addLeaf_total faultless grow small tree represents
      onNetwork fresh next) fun _ start => start).weaken
  · rintro _ w ⟨_, pushed⟩
    exact pushed
  · intro _ _ never
    exact never

end

end Sessions

namespace ClientSynchronizer

variable [DecidableEq H] {α : Type} {s : ClientSynchronizer} {height : Nat}
  {before : World H} {t : Tables H}

omit [DecidableEq H] in
theorem processing_withinTx {w : World H} (faultless : before.Faultless)
    (processing : before.Processing s.networkID height t w) :
    w.WithinTx fun t' => t' = t := by
  obtain ⟨mt, session, _⟩ := processing.session
  have opened : before.opened.Faultless := faultless
  exact session.withinTx opened

theorem orRollback_rejects (ready : s.Ready height before)
    {start : World H → Prop} {call : Service H α}
    {after : α → World H → Prop} {reason : Prop}
    (body : Triple start call after fun err w =>
      before.opened.Working .tx s.networkID height w ∧ err ≠ .panic ∧ reason) :
    Triple start (s.orRollback call) after fun _ w =>
      before.RolledBack s.networkID height w ∧ reason := by
  apply Triple.handle body
  rintro err w ⟨working, returned, because⟩
  have undone : Triple (before.opened.Working .tx s.networkID height)
      (s.rollback err : Service H α) after fun _ w =>
        before.RolledBack s.networkID height w ∧ reason :=
    (rollback_triple ready err).weaken (fun _ _ never => never.elim)
      fun _ _ result => ⟨result.2, because⟩
  cases err with
  | panic => contradiction
  | _ => exact undone w working

theorem orRollback_succeeds {start : World H → Prop} {call : Service H α}
    {after : α → World H → Prop} {failed : Err → World H → Prop}
    (body : Triple start call after fun _ _ => False) :
    Triple start (s.orRollback call) after failed :=
  (orRollback_fails body).onError fun _ _ never => never.elim

section Statements

omit [DecidableEq H] in
theorem query_succeeds (faultless : before.Faultless) {call : StorageCall}
    (read : Tables H → α) :
    Triple (before.Processing s.networkID height t)
      (Storage.query call .tx fun t => .ok (read t))
      (fun value w => before.Processing s.networkID height t w ∧
        read t = value) fun _ _ => False := by
  have total : Triple (World.WithinTx fun other => other = t)
      (Storage.query call .tx fun t => .ok (read t))
      (fun _ => World.WithinTx fun _ => True) fun _ _ => False := by
    apply Storage.query_inTx
    · intro _ _ _ _
      trivial
    · intro _ _ _ rejected
      contradiction
  apply ((query_keeps _).of_total total fun _ processing =>
    processing_withinTx faultless processing).weaken
  · rintro value w ⟨processing, found⟩
    exact ⟨processing, Except.ok.inj found⟩
  · intro _ _ never
    exact never

omit [DecidableEq H] in
theorem update_succeeds (faultless : before.Faultless) {call : StorageCall}
    (change : Tables H → Tables H) (same : t.SameTrees (change t))
    (issued : ∀ seqs, t.Issued seqs → (change t).Issued seqs) :
    Triple (before.Processing s.networkID height t)
      (Storage.update call .tx fun t => .ok (change t))
      (fun _ => before.Processing s.networkID height (change t))
      fun _ _ => False := by
  have total : Triple (World.WithinTx fun other => other = t)
      (Storage.update call .tx fun t => .ok (change t)) _
      fun _ _ => False := Storage.update_total
  exact (change_processing same issued).of_total total fun _ processing =>
    processing_withinTx faultless processing

end Statements

section Trees

theorem getExitRoot_succeeds (ready : s.Ready height before)
    (faultless : before.Faultless) :
    Triple (before.Processing s.networkID height t)
      (BridgeController.getExitRoot s.networkID .tx)
      (fun root w => before.Processing s.networkID height t w ∧
        root = treeRoot height (t.leavesOf s.networkID))
      fun _ _ => False := by
  have small := ready.small
  have total : Triple (before.Processing s.networkID height t)
      (BridgeController.getExitRoot s.networkID .tx) (fun _ _ => True)
      fun _ _ => False := by
    intro w processing
    obtain ⟨mt, session, network, represents⟩ := processing.session
    obtain ⟨seqs, tick, rfl, _⟩ := session
    have view : (before.opened.put .tx s.networkID seqs t mt tick).view .tx =
        some t := World.put_view
    have tree : (before.opened.put .tx s.networkID seqs t mt
        tick).exitTrees s.networkID = some mt := World.put_tree
    rw [BridgeController.getExitRoot, tree]
    apply (MerkleTree.getRoot_triple processing.tables (by omega) view
      represents.height_eq).weaken
    · intro _ _ _
      trivial
    · rintro err w ⟨_, outside | ⟨tick, faulty⟩⟩
      · rw [network, represents.count_eq] at outside
        exact Nat.lt_irrefl _ outside
      · have works := faultless tick .getRoot .tx
        rw [World.put_fault] at faulty
        exact Bool.noConfusion (works.symm.trans faulty)
    · exact .refl _
  exact (getExitRoot_processing ready).of_total total fun _ start => start

omit [DecidableEq H] in
theorem resetDeposits_succeeds (faultless : before.Faultless)
    (onL2 : s.networkID ≠ 0) (count : Nat) :
    Triple (before.Processing s.networkID height t)
      (Storage.resetDeposits count s.networkID .tx)
      (fun _ => before.TreeHeld s.networkID height
        (t.resetDeposits count s.networkID))
      fun _ _ => False := by
  have total : Triple (World.WithinTx fun other => other = t)
      (Storage.resetDeposits count s.networkID .tx)
      (fun _ => World.WithinTx fun other =>
        other = t.resetDeposits count s.networkID) fun _ _ => False := by
    rw [Storage.resetDeposits, if_neg onL2]
    exact Storage.update_total
  apply ((resetDeposits_processing count).of_total total fun _ processing =>
    processing_withinTx faultless processing).weaken
  · rintro _ w ⟨_, session⟩
    exact session
  · intro _ _ never
    exact never

private theorem resetLeaf_beyond {w : World H} (faultless : w.Faultless)
    (view : w.view .tx = some t) (tables : t.TreeTables height)
    {mt : MerkleTree H} {count : Nat}
    (outside : (t.leavesOf mt.networkID).length < count) :
    MerkleTree.resetLeaf Storage.merkleTreeStore count .tx (mt, w) =
      .error .storageNotFound
        ({ mt with
          count := count
          siblings := [] }, w.advance) := by
  have some : count ≠ 0 := by omega
  have missing : t.getRoot (count - 1) mt.networkID =
      .error .storageNotFound := tables.getRoot_notFound (by omega)
  have search : MerkleTree.initSiblings Storage.merkleTreeStore
      { mt with count := count } .tx w =
        .error .storageNotFound w.advance := by
    rw [MerkleTree.initSiblings, if_neg some]
    apply bind_of_error
    rw [MerkleTree.getRoot, if_neg some]
    change Storage.query .getRoot .tx (fun t =>
      t.getRoot (count - 1) mt.networkID) w = _
    rw [Storage.query, Storage.exec_view (faultless _ _ _) view, missing]
    rfl
  change MerkleTree.refreshSiblings Storage.merkleTreeStore .tx
    ({ mt with count := count }, w) = _
  rw [MerkleTree.refreshSiblings, search]

section

variable (ready : s.Ready height before) (faultless : before.Faultless)
  (tables : t.TreeTables height)
  (capacity : (t.leavesOf s.networkID).length < 2 ^ height)

include ready faultless tables capacity

private theorem reorgMT_beyond (count : Nat) :
    Triple
      (before.TreeHeld s.networkID height t)
      (BridgeController.reorgMT count s.networkID .tx)
      (fun _ _ => True)
      (fun err _ => err ≠ .panic ∧
        (t.leavesOf s.networkID).length < count) := by
  have small := ready.small
  rintro w ⟨mt, session, sameHeight, network⟩
  refine onTree_session ?_ w session
  rintro ⟨held, w⟩ ⟨same, session⟩
  dsimp only at same session
  subst same
  have opened : before.opened.Faultless := faultless
  have works : w.Faultless := (session.withinTx opened).1
  have view : w.view .tx = some t := by
    obtain ⟨seqs, tick, rfl, _⟩ := session
    exact World.put_view
  have reset := MerkleTree.resetLeaf_triple tables (by omega)
    ready.injective view (Nat.le_of_lt capacity) count
  by_cases outside : (t.leavesOf s.networkID).length < count
  · rw [← network] at outside
    rw [resetLeaf_beyond works view tables outside]
    rw [network] at outside
    exact ⟨nofun, outside⟩
  · apply reset.weaken
    · intro _ _ _
      trivial
    · rintro err state ⟨_, beyond | ⟨tick, faulty⟩ | ⟨tick, faulty⟩⟩
      · exact absurd beyond outside
      · exact Bool.noConfusion ((works _ _ _).symm.trans faulty)
      · exact Bool.noConfusion ((works _ _ _).symm.trans faulty)
    · exact ⟨sameHeight, network, .refl _⟩

theorem cut_decides
    (others : ∀ other, other ≠ s.networkID →
      t.leavesOf other = before.committed.leavesOf other)
    (count : Nat) :
    Triple
      (before.TreeHeld s.networkID height
        (t.resetDeposits count s.networkID))
      (BridgeController.reorgMT count s.networkID .tx)
      (fun _ w => count ≤ (t.leavesOf s.networkID).length ∧
        before.Processing s.networkID height
          (t.resetDeposits count s.networkID) w)
      (fun err w => before.opened.Working .tx s.networkID height w ∧
        err ≠ .panic ∧ ¬count ≤ (t.leavesOf s.networkID).length) := by
  have cuts := t.cutsAt_resetDeposits count s.networkID
  have leaves : (t.resetDeposits count s.networkID).leavesOf s.networkID =
      (t.leavesOf s.networkID).take count :=
    Tables.leavesOf_deleteDeposits_same tables cuts
  have length : ((t.resetDeposits count s.networkID).leavesOf
      s.networkID).length = min count (t.leavesOf s.networkID).length := by
    rw [leaves, length_take]
  have beyond := reorgMT_beyond ready faultless
    (tables.deleteDeposits cuts)
    (by
      change ((t.resetDeposits count s.networkID).leavesOf
        s.networkID).length < _
      omega) count
  apply ((cut_processing ready tables capacity others count).and
    beyond).weaken
  · rintro _ w ⟨processing, _⟩
    exact processing
  · rintro err w ⟨working, returned, outside⟩
    change ((t.resetDeposits count s.networkID).leavesOf
      s.networkID).length < count at outside
    exact ⟨working, returned, by omega⟩

end

end Trees

section Deposits

omit [DecidableEq H] [Externals H] in
private theorem addDeposit_succeeds {mt : MerkleTree H}
    (faultless : before.Faultless) (deposit : Deposit H) :
    Triple (before.opened.Session .tx s.networkID t mt)
      (Storage.addDeposit deposit .tx)
      (fun id w => (∀ row, row ∈ t.deposit → row.id < id) ∧
        before.opened.Session .tx s.networkID
          { t with
            deposit := t.deposit ++ [Storage.depositRow id deposit] } mt w)
      fun _ _ => False := by
  have opened : before.opened.Faultless := faultless
  have total : Triple (World.WithinTx fun other => other = t)
      (Storage.addDeposit deposit .tx)
      (fun _ => World.WithinTx fun _ => True) fun _ _ => False := by
    apply Storage.exec_inTx
    · intro _ _ _ _ _ _ _
      trivial
    · intro _ _ _ _ rejected
      contradiction
  exact (addDeposit_session deposit).of_total total
    fun _ session => session.withinTx opened

section

variable (ready : s.Ready height before) (faultless : before.Faultless)

include ready faultless

private theorem storeDeposit_next (grow : HashesGrow H) {deposit : Deposit H}
    (onNetwork : deposit.networkID = s.networkID)
    (room : deposit.depositCount + 1 < 2 ^ height)
    (next : deposit.depositCount = (t.leavesOf s.networkID).length) :
    Triple (before.Processing s.networkID height t) (s.storeDeposit deposit)
      (fun _ _ => True) fun _ _ => False := by
  have opened : before.opened.Faultless := faultless
  intro w processing
  obtain ⟨mt, session, network, represents⟩ := processing.session
  refine (Triple.bind (orRollback_succeeds
    (addDeposit_succeeds faultless deposit)) fun id => ?_) w session
  rintro w ⟨fresh, session⟩
  rw [addDeposit_onTree id onNetwork]
  exact (orRollback_succeeds ((addLeaf_succeeds opened grow ready.small
    processing.tables represents network onNetwork room fresh
      next).weaken (fun _ _ _ => trivial)
        fun _ _ never => never)) w session

private theorem storeDeposit_mismatch {deposit : Deposit H}
    (onNetwork : deposit.networkID = s.networkID)
    (different : deposit.depositCount ≠ (t.leavesOf s.networkID).length) :
    Triple (before.Processing s.networkID height t) (s.storeDeposit deposit)
      (fun _ _ => False) fun _ w => before.RolledBack s.networkID height w ∧
        deposit.depositCount ≠ (t.leavesOf s.networkID).length := by
  intro w processing
  obtain ⟨mt, session, network, represents⟩ := processing.session
  refine (Triple.bind (orRollback_succeeds
    (addDeposit_succeeds faultless deposit)) fun id => ?_) w session
  rintro w ⟨_, session⟩
  rw [addDeposit_onTree id onNetwork]
  refine orRollback_rejects ready (onTree_session ?_) w session
  rintro ⟨mt, w⟩ ⟨rfl, session⟩
  have refused : (Storage.depositRow id deposit).depositCnt ≠ mt.count := by
    rw [represents.count_eq]
    exact different
  rw [MerkleTree.addLeaf_eq, if_pos refused]
  exact ⟨⟨_, mt, session_setTree session, represents.height_eq, network⟩,
    nofun, different⟩

theorem storeDeposit_decides (grow : HashesGrow H) {deposit : Deposit H}
    (onNetwork : deposit.networkID = s.networkID)
    (room : (t.leavesOf s.networkID).length + 1 < 2 ^ height) :
    Triple (before.Processing s.networkID height t)
      (s.storeDeposit deposit)
      (fun _ w => ∃ id, (∀ row, row ∈ t.deposit → row.id < id) ∧
        deposit.depositCount = (t.leavesOf s.networkID).length ∧
        before.Processing s.networkID height
          (t.pushDeposit height (Storage.depositRow id deposit)) w)
      fun _ w => before.RolledBack s.networkID height w ∧
        deposit.depositCount ≠ (t.leavesOf s.networkID).length := by
  by_cases next : deposit.depositCount = (t.leavesOf s.networkID).length
  · rw [← next] at room
    exact ((storeDeposit_processing ready onNetwork room).of_total
      (storeDeposit_next ready faultless grow onNetwork room next)
        fun _ start => start).onError fun _ _ never => never.elim
  · exact (storeDeposit_mismatch ready faultless onNetwork
      next).weaken (fun _ _ never => never.elim) fun _ _ result => result

end

end Deposits

end ClientSynchronizer

end BridgeService
