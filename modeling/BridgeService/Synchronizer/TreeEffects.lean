import BridgeService.Synchronizer.Events
import BridgeService.Synchronizer.Processing

/-!
# Effects on the exit tree

The handlers of deposits and of LET events change the deposits of the network
and its exit tree together.  Each of them either changes the tables of the
transaction by the rule of its event, or fails with the block undone.
-/

namespace BridgeService

open ErrorState List

variable {H α : Type} [DecidableEq H] [Externals H]

def World.context (before : World H) (s : ClientSynchronizer)
    (height blockID blockNumber : Nat) : BlockContext H :=
  { height := height
    rollupHeight := before.rollupsTree.height
    synchronizer := s
    committed := before.committed
    blockID := blockID
    blockNumber := blockNumber }

def World.Handled (before : World H) (ctx : BlockContext H) (t : Tables H)
    (event : Event H) (w : World H) : Prop :=
  ∃ t', Applies ctx t event t' ∧
    before.Processing ctx.networkID ctx.height t' w

/-- The transaction has these tables; the tree in memory may be any other. -/
def World.TreeHeld (before : World H) (networkID height : Nat)
    (t : Tables H) (w : World H) : Prop :=
  ∃ mt, before.opened.Session .tx networkID t mt w ∧ mt.height = height ∧
    mt.networkID = networkID

namespace ClientSynchronizer

abbrev Performs (s : ClientSynchronizer) (before : World H)
    (height blockID blockNumber : Nat) (t : Tables H)
    (program : Service H Unit) (event : Event H) : Prop :=
  before.Handles s.networkID height t program fun _ =>
    before.Handled (before.context s height blockID blockNumber) t event

variable {s : ClientSynchronizer} {height : Nat} {before : World H}
  {t : Tables H}

section Deposits

theorem addDeposit_onTree (id : Nat) {deposit : Deposit H}
    (onNetwork : deposit.networkID = s.networkID) :
    BridgeController.addDeposit ({ deposit with id := id } : Deposit H) .tx =
      BridgeController.onTree s.networkID
        (MerkleTree.addLeaf Storage.merkleTreeStore
          (Storage.depositRow id deposit).id
          (Storage.depositRow id deposit).leaf
          (Storage.depositRow id deposit).depositCnt .tx) := by
  rw [BridgeController.addDeposit, ← onNetwork]
  rfl

theorem storeDeposit_processing (ready : s.Ready height before)
    {deposit : Deposit H} (onNetwork : deposit.networkID = s.networkID)
    (room : deposit.depositCount + 1 < 2 ^ height) :
    before.Handles s.networkID height t (s.storeDeposit deposit)
      (fun _ w => ∃ id, (∀ row, row ∈ t.deposit → row.id < id) ∧
        deposit.depositCount = (t.leavesOf s.networkID).length ∧
        before.Processing s.networkID height
          (t.pushDeposit height (Storage.depositRow id deposit)) w) := by
  intro w processing
  obtain ⟨mt, session, network, represents⟩ := processing.session
  have stored : Triple (before.opened.Session .tx s.networkID t mt)
      (Storage.addDeposit deposit .tx) _
      (fun _ => before.opened.Working .tx s.networkID height) :=
    (addDeposit_session deposit).onError
      fun _ _ session => ⟨t, mt, session, represents.height_eq, network⟩
  refine (Triple.bind (orRollback_triple ready stored) fun id =>
    ?_) w session
  rintro w ⟨fresh, session⟩
  rw [addDeposit_onTree id onNetwork]
  refine (orRollback_triple ready ((addLeaf_session ready.small represents
    network (Storage.depositRow id deposit) onNetwork room).post ?_)) w session
  rintro _ w ⟨index, mt', network', represents', session'⟩
  have leaves : ∀ other,
      (t.pushDeposit height (Storage.depositRow id deposit)).leavesOf other =
        t.leavesOf other ++
          if deposit.networkID = other then [hashDeposit deposit] else [] :=
    fun other => t.leavesOf_pushDeposit height _ other
  refine ⟨id, fresh, index, ⟨mt', session', network', represents'⟩,
    processing.tables.pushDeposit fresh ?_, ?_, ?_⟩
  · rw [show (Storage.depositRow id deposit).networkID = s.networkID from
      onNetwork]
    exact index
  · rw [leaves, if_pos onNetwork, length_append, ← index]
    exact room
  · intro other different
    rw [leaves, if_neg (by rw [onNetwork]; exact different.symm),
      append_nil]
    exact processing.others other different

theorem processDeposit_effect (ready : s.Ready height before)
    {deposit : Deposit H} (room : deposit.depositCount + 1 < 2 ^ height)
    (blockID blockNumber : Nat) :
    s.Performs before height blockID blockNumber t
      (s.processDeposit deposit blockID) (.deposit deposit) := by
  rw [processDeposit]
  refine (storeDeposit_processing ready ?_ ?_).post ?_
  · rfl
  · exact room
  rintro _ w ⟨id, fresh, next, processing⟩
  exact ⟨_, .deposit (.cons id fresh next (.nil _)), processing⟩

end Deposits

section LETs

theorem getExitRoot_processing (ready : s.Ready height before) :
    before.Attempts s.networkID height t
      (BridgeController.getExitRoot s.networkID .tx)
      (fun root w => before.Processing s.networkID height t w ∧
        root = treeRoot height (t.leavesOf s.networkID)) := by
  have small := ready.small
  intro w processing
  obtain ⟨mt, session, network, represents⟩ := processing.session
  obtain ⟨seqs, tick, rfl, ordered, issued⟩ := session
  have view : (before.opened.put .tx s.networkID seqs t mt tick).view .tx =
      some t := World.put_view
  have tree : (before.opened.put .tx s.networkID seqs t mt
      tick).exitTrees s.networkID = some mt := World.put_tree
  rw [BridgeController.getExitRoot, tree]
  refine ((MerkleTree.getRoot_triple processing.tables (by omega) view
    represents.height_eq).weaken ?_ ?_) _
      (.refl _)
  · rintro root w ⟨ticked, _, rfl⟩
    refine ⟨⟨⟨mt, World.session_ticked ordered issued ticked, network,
      represents⟩, processing.tables, processing.capacity,
      processing.others⟩, ?_⟩
    rw [network, represents.count_eq, take_length]
  · rintro err w ⟨ticked, _⟩
    exact ⟨t, mt, World.session_ticked ordered issued ticked,
      represents.height_eq, network⟩

theorem checkLET_processing (ready : s.Ready height before)
    (blockID blockNumber : Nat) (root : H) (depositCount : Nat) :
    before.Handles s.networkID height t
      (s.checkLET blockNumber root depositCount)
      (fun _ w => before.Processing s.networkID height t w ∧
        (before.context s height blockID blockNumber).LETMatches root
          depositCount t) := by
  refine .bind (orRollback_triple ready (query_processing _))
    fun depositCnt => ?_
  rintro w ⟨processing, counted⟩
  refine (Triple.bind (orRollback_triple ready
    (getExitRoot_processing ready)) fun localExitTreeRoot => ?_) w processing
  apply Triple.ite
  · intro mismatch
    exact (rollback_failed ready .letMismatch).consequence
      (fun _ start => start.1.working) (fun _ _ result => result)
      fun _ _ failed => failed
  · intro agree
    apply Triple.pure
    rintro w ⟨processing, rfl⟩
    rw [not_or, not_not, not_not] at agree
    exact ⟨processing, agree.1, (Except.ok.inj counted).trans agree.2⟩

theorem reorgMT_processing (ready : s.Ready height before)
    (tables : t.TreeTables height)
    (capacity : (t.leavesOf s.networkID).length < 2 ^ height)
    (count : Nat) :
    Triple
      (before.TreeHeld s.networkID height t)
      (BridgeController.reorgMT count s.networkID .tx)
      (fun _ w => count ≤ (t.leavesOf s.networkID).length ∧
        ∃ mt, before.opened.Session .tx s.networkID t mt w ∧
          mt.networkID = s.networkID ∧
          mt.Represents height ((t.leavesOf s.networkID).take count))
      (fun _ => before.opened.Working .tx s.networkID height) := by
  have small := ready.small
  rintro w ⟨mt, session, sameHeight, network⟩
  refine onTree_session ?_ w session
  rintro ⟨held, w⟩ ⟨same, session⟩
  dsimp only at same session
  subst same
  obtain ⟨seqs, tick, rfl, ordered, issued⟩ := session
  have view : (before.opened.put .tx s.networkID seqs t held tick).view .tx =
      some t := World.put_view
  refine ((MerkleTree.resetLeaf_triple tables (by omega) ready.injective view
    (Nat.le_of_lt capacity) count).weaken ?_ ?_) _
      ⟨sameHeight, network, .refl _⟩
  · rintro _ ⟨mt', w'⟩ ⟨⟨_, network', ticked⟩, enough, represents⟩
    exact ⟨enough, mt', session_setTree
      (World.session_ticked ordered issued ticked), network', represents⟩
  · rintro _ ⟨mt', w'⟩ ⟨⟨sameHeight', network', ticked⟩, _⟩
    exact ⟨t, mt', session_setTree
      (World.session_ticked ordered issued ticked), sameHeight', network'⟩

omit [DecidableEq H] in
theorem resetDeposits_processing (count : Nat) :
    before.Attempts s.networkID height t
      (Storage.resetDeposits count s.networkID .tx)
      (fun _ w => s.networkID ≠ 0 ∧ before.TreeHeld s.networkID height
        (t.resetDeposits count s.networkID) w) := by
  apply Triple.ite
  · intro _
    exact .throw fun _ processing => processing.working
  · intro notL1 w processing
    obtain ⟨mt, session, network, represents⟩ := processing.session
    refine ((update_session _ ?_).weaken ?_ ?_) w session
    · intro seqs t' changed issued
      rw [← Except.ok.inj changed]
      exact issued.deleteDeposits _
    · rintro _ w ⟨t', changed, session⟩
      rw [← Except.ok.inj changed] at session
      exact ⟨notL1, mt, session, represents.height_eq, network⟩
    · rintro _ w ⟨session, _⟩
      exact ⟨t, mt, session, represents.height_eq, network⟩

theorem cut_processing (ready : s.Ready height before)
    (tables : t.TreeTables height)
    (capacity : (t.leavesOf s.networkID).length < 2 ^ height)
    (others : ∀ other, other ≠ s.networkID →
      t.leavesOf other = before.committed.leavesOf other) (count : Nat) :
    Triple
      (before.TreeHeld s.networkID height
        (t.resetDeposits count s.networkID))
      (BridgeController.reorgMT count s.networkID .tx)
      (fun _ w => count ≤ (t.leavesOf s.networkID).length ∧
        before.Processing s.networkID height
          (t.resetDeposits count s.networkID) w)
      (fun _ => before.opened.Working .tx s.networkID height) := by
  have cuts := t.cutsAt_resetDeposits count s.networkID
  have tables' : (t.resetDeposits count s.networkID).TreeTables height :=
    tables.deleteDeposits cuts
  have leaves : (t.resetDeposits count s.networkID).leavesOf s.networkID =
      (t.leavesOf s.networkID).take count :=
    Tables.leavesOf_deleteDeposits_same tables cuts
  have capacity' : ((t.resetDeposits count s.networkID).leavesOf
      s.networkID).length < 2 ^ height := by
    rw [leaves, length_take]
    omega
  refine (reorgMT_processing ready tables' capacity' count).post ?_
  rintro _ w ⟨enough, mt, session, network, represents⟩
  have kept : ((t.resetDeposits count s.networkID).leavesOf
      s.networkID).take count =
      (t.resetDeposits count s.networkID).leavesOf s.networkID := by
    rw [leaves, take_take, Nat.min_self]
  rw [kept] at represents
  rw [leaves, length_take] at enough
  refine ⟨by omega, ⟨mt, session, network, represents⟩, tables', capacity',
    ?_⟩
  intro other different
  rw [← others other different]
  exact Tables.leavesOf_deleteDeposits_other cuts different

theorem processBackwardLETSovereign_effect (ready : s.Ready height before)
    (backwardLET : BackwardLET H) (blockID blockNumber : Nat) :
    s.Performs before height blockID blockNumber t
      (s.processBackwardLETSovereign backwardLET blockID blockNumber)
      (.backwardLET backwardLET) := by
  refine .bind (checkLET_processing ready blockID blockNumber _ _)
    fun _ => ?_
  rintro w ⟨processing, previous⟩
  have tables := processing.tables
  have capacity := processing.capacity
  have others := processing.others
  refine (Triple.bind (orRollback_triple ready
    (resetDeposits_processing backwardLET.newDepositCount)) fun _ => ?_) w
      processing
  rintro w ⟨notL1, session⟩
  refine (Triple.bind (orRollback_triple ready
    (cut_processing ready tables capacity others
      backwardLET.newDepositCount)) fun _ => ?_) w session
  rintro w ⟨enough, processing⟩
  refine (Triple.bind (checkLET_processing ready blockID blockNumber _ _)
    fun _ => ?_) w processing
  rintro w ⟨processing, reached⟩
  exact (orRollback_triple ready ((change_processing ⟨rfl, rfl, rfl⟩
    fun _ issued => issued.congr rfl rfl rfl rfl).post fun _ _ processing =>
      ⟨_, .backwardLET notL1 previous enough reached, processing⟩)) w
        processing

private theorem storeDeposits_processing (ready : s.Ready height before)
    {β : Type} (items : List β) (make : β → Deposit H)
    (onNetwork : ∀ item, (make item).networkID = s.networkID)
    (room : ∀ item, item ∈ items →
      (make item).depositCount + 1 < 2 ^ height) (t : Tables H) :
    before.Handles s.networkID height t
      (items.foldlM (fun _ item => s.storeDeposit (make item)) ())
      (fun _ w => ∃ t', DepositsPushed height (items.map make) t t' ∧
        before.Processing s.networkID height t' w) := by
  induction items generalizing t with
  | nil =>
    exact .pure fun w processing => ⟨t, .nil t, processing⟩
  | cons item rest induction =>
    rw [foldlM_cons]
    refine .bind (storeDeposit_processing ready (onNetwork item)
      (room item mem_cons_self)) fun _ => ?_
    rintro w ⟨id, fresh, next, processing⟩
    refine ((induction (fun item inside => room item
      (mem_cons_of_mem _ inside)) _).post ?_) w processing
    rintro _ w ⟨t', pushed, processing⟩
    refine ⟨t', .cons id fresh ?_ pushed, processing⟩
    rw [onNetwork item]
    exact next

theorem processForwardLETSovereign_effect (ready : s.Ready height before)
    {forwardLET : ForwardLET H}
    (room : forwardLET.previousDepositCount + forwardLET.newLeaves.length <
      2 ^ height) (blockID blockNumber : Nat) :
    s.Performs before height blockID blockNumber t
      (s.processForwardLETSovereign forwardLET blockID blockNumber)
      (.forwardLET forwardLET) := by
  refine .bind (checkLET_processing ready blockID blockNumber _ _)
    fun _ => ?_
  rintro w ⟨processing, previous⟩
  refine (Triple.bind (orRollback_triple ready (query_processing _))
    fun initialDepositCount => ?_) w processing
  rintro w ⟨processing, counted⟩
  have initial : initialDepositCount = forwardLET.previousDepositCount :=
    (Except.ok.inj counted).symm.trans previous.2
  subst initial
  refine (Triple.bind (storeDeposits_processing ready
    forwardLET.newLeaves.zipIdx (fun item => s.leafDeposit forwardLET blockID
      blockNumber ((forwardLET.previousDepositCount + item.2) % 2 ^ 32)
      item.1) (fun _ => rfl) ?_ t) fun _ => ?_) w processing
  · rintro ⟨leaf, i⟩ inside
    have bounded : i < forwardLET.newLeaves.length := by
      simpa using (mem_zipIdx inside).2.1
    have reduced : (forwardLET.previousDepositCount + i) % 2 ^ 32 ≤
        forwardLET.previousDepositCount + i := Nat.mod_le _ _
    change (forwardLET.previousDepositCount + i) % 2 ^ 32 + 1 < 2 ^ height
    omega
  rintro w ⟨t', pushed, processing⟩
  refine (Triple.bind (checkLET_processing ready blockID blockNumber _ _)
    fun _ => ?_) w processing
  rintro w ⟨processing, reached⟩
  exact (orRollback_triple ready ((change_processing ⟨rfl, rfl, rfl⟩
    fun _ issued => issued.congr rfl rfl rfl rfl).post fun _ _ processing =>
      ⟨_, .forwardLET previous pushed reached, processing⟩)) w processing

end LETs

end ClientSynchronizer

end BridgeService
