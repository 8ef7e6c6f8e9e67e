import BridgeService.Synchronizer.EventOrder
import BridgeService.Synchronizer.TreeProgress

/-!
# LET events that describe the exit tree

A ForwardLET event announces leaves that are appended to the exit tree of a
network, a BackwardLET event a count to which the tree is cut; both name the
count and the root before and after.  When the storage works, the synchronizer
accepts such an event exactly if it describes the transition of the leaves
that it holds, and undoes the block otherwise.  This is so at every point of a
block, after any deposits and LET events that came before.
-/

namespace BridgeService

open ErrorState List

variable {H : Type} [Externals H]

def LeafData.hash (leaf : LeafData) : H :=
  Externals.hashLeaf leaf.leafType (leaf.originNetwork % 2 ^ 32)
    leaf.originAddress (leaf.destinationNetwork % 2 ^ 32)
    leaf.destinationAddress leaf.amount (Externals.hashBytes leaf.metadata)

/-- The event appends its leaves to these leaves. -/
structure ForwardLET.Describes (height : Nat) (leaves : List H)
    (forwardLET : ForwardLET H) : Prop where
  previousCount : forwardLET.previousDepositCount = leaves.length
  previousRoot : forwardLET.previousRoot = treeRoot height leaves
  newCount : forwardLET.newDepositCount =
    leaves.length + forwardLET.newLeaves.length
  newRoot : forwardLET.newRoot =
    treeRoot height (leaves ++ forwardLET.newLeaves.map LeafData.hash)

structure BackwardLET.Describes (height : Nat) (leaves : List H)
    (backwardLET : BackwardLET H) : Prop where
  previousCount : backwardLET.previousDepositCount = leaves.length
  previousRoot : backwardLET.previousRoot = treeRoot height leaves
  newCount : backwardLET.newDepositCount ≤ leaves.length
  newRoot : backwardLET.newRoot =
    treeRoot height (leaves.take backwardLET.newDepositCount)

/-- While a block is processed, the block is the last one of its network in
the tables of the transaction. -/
structure World.InBlock (before : World H) (ctx : BlockContext H)
    (t : Tables H) (w : World H) : Prop where
  processing : before.Processing ctx.networkID ctx.height t w
  chained : t.Chained
  stored : ∃ row, row ∈ t.block ∧ row.id = ctx.blockID ∧
    row.networkID = ctx.networkID ∧ row.blockNum = ctx.blockNumber
  last : ∀ row, row ∈ t.block → row.networkID = ctx.networkID →
    row.blockNum ≤ ctx.blockNumber

/-- The tables of the transaction and the exit tree agree on the leaves of the
network. -/
def World.AgreesOn (before : World H) (ctx : BlockContext H)
    (leaves : List H) (w : World H) : Prop :=
  ∃ t, before.InBlock ctx t w ∧ t.leavesOf ctx.networkID = leaves

namespace World

variable {before w : World H} {ctx : BlockContext H} {t t' : Tables H}

theorem InBlock.current (inBlock : before.InBlock ctx t w) :
    ctx.Current t := by
  obtain ⟨row, rowIn, sameID, sameNetwork, number⟩ := inBlock.stored
  refine ⟨row, rowIn, sameID, sameNetwork, ?_⟩
  rw [number]
  exact inBlock.last

theorem InBlock.count_eq (inBlock : before.InBlock ctx t w)
    (small : ctx.height ≤ 32) :
    t.getNumberDeposits ctx.networkID ctx.blockNumber =
      (t.leavesOf ctx.networkID).length := by
  have limit : 2 ^ ctx.height ≤ 2 ^ 32 :=
    Nat.pow_le_pow_right (by omega) small
  exact inBlock.chained.getNumberDeposits_eq inBlock.processing.tables
    (Nat.lt_of_lt_of_le inBlock.processing.capacity limit) inBlock.last

theorem InBlock.step {w' : World H} (inBlock : before.InBlock ctx t w)
    (processing : before.Processing ctx.networkID ctx.height t' w')
    (block : t'.block = t.block) (chained : t'.Chained) :
    before.InBlock ctx t' w' where
  processing := processing
  chained := chained
  stored := by
    rw [block]
    exact inBlock.stored
  last := by
    rw [block]
    exact inBlock.last

end World

namespace ClientSynchronizer

variable [DecidableEq H] {s : ClientSynchronizer}
  {height blockID blockNumber : Nat} {before : World H} {leaves : List H}

section

variable (ready : s.Ready height before) (faultless : before.Faultless)

include ready faultless

theorem checkLET_decides (root : H) (depositCount : Nat) :
    Triple
      (before.AgreesOn (before.context s height blockID blockNumber) leaves)
      (s.checkLET blockNumber root depositCount)
      (fun _ w => (depositCount = leaves.length ∧
          root = treeRoot height leaves) ∧
        before.AgreesOn (before.context s height blockID blockNumber) leaves w)
      fun _ w => before.RolledBack s.networkID height w ∧
        ¬(depositCount = leaves.length ∧ root = treeRoot height leaves) := by
  rintro w ⟨t, inBlock, rfl⟩
  have count := inBlock.count_eq ready.small
  refine (Triple.bind (orRollback_succeeds (query_succeeds faultless _))
    fun depositCnt => ?_) w inBlock.processing
  rintro w ⟨processing, rfl⟩
  refine (Triple.bind (orRollback_succeeds
    (getExitRoot_succeeds ready faultless)) fun localExitTreeRoot => ?_) w
      processing
  rintro w ⟨processing, rfl⟩
  change t.getNumberDeposits s.networkID blockNumber = _ at count
  rw [count]
  suffices decided : Triple (before.Processing s.networkID height t) _ _ _
    from decided w processing
  apply Triple.ite
  · intro mismatch
    apply (rollback_triple ready .letMismatch).consequence
    · intro _ processing
      exact processing.working
    · intro _ _ never
      exact never.elim
    · rintro _ w ⟨_, undone⟩
      refine ⟨undone, ?_⟩
      rintro ⟨rfl, rfl⟩
      exact mismatch.elim (fun different => different rfl)
        fun different => different rfl
  · intro agree
    rw [not_or, not_not, not_not] at agree
    apply Triple.pure
    intro w processing
    exact ⟨⟨agree.2.symm, agree.1.symm⟩, t,
      inBlock.step processing rfl inBlock.chained, rfl⟩

theorem processBackwardLETSovereign_decides (onL2 : s.networkID ≠ 0)
    (backwardLET : BackwardLET H) :
    Triple
      (before.AgreesOn (before.context s height blockID blockNumber) leaves)
      (s.processBackwardLETSovereign backwardLET blockID blockNumber)
      (fun _ w => backwardLET.Describes height leaves ∧
        before.AgreesOn (before.context s height blockID blockNumber)
          (leaves.take backwardLET.newDepositCount) w)
      fun _ w => before.RolledBack s.networkID height w ∧
        ¬backwardLET.Describes height leaves := by
  refine .bind ((checkLET_decides ready faultless _ _).onError ?_)
    fun _ => ?_
  · rintro _ w ⟨undone, mismatch⟩
    exact ⟨undone, fun describes =>
      mismatch ⟨describes.previousCount, describes.previousRoot⟩⟩
  rintro w ⟨⟨previousCount, previousRoot⟩, t, inBlock, rfl⟩
  have tables := inBlock.processing.tables
  have cuts := t.cutsAt_resetDeposits backwardLET.newDepositCount s.networkID
  have cut : (t.resetDeposits backwardLET.newDepositCount
      s.networkID).leavesOf s.networkID =
      (t.leavesOf s.networkID).take backwardLET.newDepositCount :=
    Tables.leavesOf_deleteDeposits_same tables cuts
  refine (Triple.bind (orRollback_succeeds (resetDeposits_succeeds faultless
    onL2 backwardLET.newDepositCount)) fun _ => ?_) w inBlock.processing
  refine .bind (orRollback_rejects ready ((cut_decides ready faultless
    tables inBlock.processing.capacity inBlock.processing.others
      backwardLET.newDepositCount).onError ?_)) fun _ => ?_
  · rintro err w ⟨working, returned, outside⟩
    exact ⟨working, returned, fun describes => outside describes.newCount⟩
  rintro w ⟨enough, processing⟩
  have agrees : before.AgreesOn
      (before.context s height blockID blockNumber)
      ((t.leavesOf s.networkID).take backwardLET.newDepositCount) w :=
    ⟨_, inBlock.step processing rfl (inBlock.chained.deleteDeposits _), cut⟩
  refine (Triple.bind ((checkLET_decides ready faultless _ _).onError ?_)
    fun _ => ?_) w
      agrees
  · rintro _ w ⟨undone, mismatch⟩
    refine ⟨undone, fun describes => mismatch ⟨?_, describes.newRoot⟩⟩
    rw [length_take]
    exact (Nat.min_eq_left enough).symm
  rintro w ⟨⟨_, newRoot⟩, t', inBlock', leaves'⟩
  have describes : backwardLET.Describes height (t.leavesOf s.networkID) :=
    ⟨previousCount, previousRoot, enough, newRoot⟩
  refine (orRollback_succeeds (update_succeeds faultless (fun t =>
    { t with backwardLET := t.backwardLET ++
      [{ backwardLET with blockID := blockID }] }) ⟨rfl, rfl, rfl⟩
        fun _ issued => issued.congr rfl rfl rfl rfl)).post ?_ w
            inBlock'.processing
  intro _ w processing
  exact ⟨describes, _, inBlock'.step processing rfl
    (inBlock'.chained.congr rfl rfl), leaves'⟩

theorem storeDeposit_agrees (grow : HashesGrow H) {deposit : Deposit H}
    (onNetwork : deposit.networkID = s.networkID)
    (inBlock : deposit.blockID = blockID)
    (room : leaves.length + 1 < 2 ^ height) :
    Triple
      (before.AgreesOn (before.context s height blockID blockNumber) leaves)
      (s.storeDeposit deposit)
      (fun _ w => deposit.depositCount = leaves.length ∧
        before.AgreesOn (before.context s height blockID blockNumber)
          (leaves ++ [hashDeposit deposit]) w)
      fun _ w => before.RolledBack s.networkID height w ∧
        deposit.depositCount ≠ leaves.length := by
  rintro w ⟨t, here, rfl⟩
  refine (storeDeposit_decides ready faultless grow onNetwork
    room).post ?_ w here.processing
  rintro _ w ⟨id, fresh, next, processing⟩
  have pushed : DepositsPushed height [deposit] t
      (t.pushDeposit height (Storage.depositRow id deposit)) := by
    refine .cons id fresh ?_ (.nil _)
    rw [onNetwork]
    exact next
  have own : ∀ made, made ∈ [deposit] →
      made.blockID = blockID ∧ made.networkID = s.networkID := by
    intro made inside
    rw [mem_singleton.mp inside]
    exact ⟨inBlock, onNetwork⟩
  obtain ⟨_, chained⟩ := DepositsPushed.chained pushed own
    here.processing.tables here.chained here.current
  refine ⟨next, _, here.step processing rfl chained, ?_⟩
  have leaves' := t.leavesOf_pushDeposit height
    (Storage.depositRow id deposit) s.networkID
  rw [if_pos (show (Storage.depositRow id deposit).networkID = s.networkID
    from onNetwork)] at leaves'
  exact leaves'

theorem processDeposit_decides (grow : HashesGrow H) {deposit : Deposit H}
    (room : leaves.length + 1 < 2 ^ height) :
    Triple
      (before.AgreesOn (before.context s height blockID blockNumber) leaves)
      (s.processDeposit deposit blockID)
      (fun _ w => deposit.depositCount = leaves.length ∧
        before.AgreesOn (before.context s height blockID blockNumber)
          (leaves ++ [hashDeposit deposit]) w)
      fun _ w => before.RolledBack s.networkID height w ∧
        deposit.depositCount ≠ leaves.length :=
  storeDeposit_agrees ready faultless grow rfl rfl room

private theorem storeLeaves_agrees (grow : HashesGrow H)
    (forwardLET : ForwardLET H) (initial : Nat) (items : List LeafData)
    (index : Nat) (leaves : List H) (next : leaves.length = initial + index)
    (room : leaves.length + items.length < 2 ^ height) :
    Triple
      (before.AgreesOn (before.context s height blockID blockNumber) leaves)
      ((items.zipIdx index).foldlM (fun _ (leaf, i) =>
        s.storeDeposit (s.leafDeposit forwardLET blockID blockNumber
          ((initial + i) % 2 ^ 32) leaf)) ())
      (fun _ => before.AgreesOn
        (before.context s height blockID blockNumber)
        (leaves ++ items.map LeafData.hash))
      fun _ _ => False := by
  have limit : 2 ^ height ≤ 2 ^ 32 :=
    Nat.pow_le_pow_right (by omega) ready.small
  induction items generalizing leaves index with
  | nil =>
    apply Triple.pure
    intro w agrees
    rw [map_nil, append_nil]
    exact agrees
  | cons leaf rest induction =>
    rw [length_cons] at room
    have count : (initial + index) % 2 ^ 32 = leaves.length := by
      rw [← next]
      exact Nat.mod_eq_of_lt (by omega)
    rw [zipIdx_cons, foldlM_cons]
    refine .bind ((storeDeposit_agrees ready faultless grow rfl rfl
      (by omega)).consequence (fun _ start => start)
        (fun _ _ result => result) ?_) fun _ => ?_
    · rintro _ _ ⟨_, mismatch⟩
      exact mismatch count
    rintro w ⟨_, agrees⟩
    have longer : (leaves ++ [LeafData.hash leaf]).length =
        leaves.length + 1 := length_append
    have others := induction (index + 1) (leaves ++ [LeafData.hash leaf])
      (by omega) (by omega)
    rw [append_assoc] at others
    exact others w agrees

theorem processForwardLETSovereign_decides (grow : HashesGrow H)
    {forwardLET : ForwardLET H}
    (room : leaves.length + forwardLET.newLeaves.length < 2 ^ height) :
    Triple
      (before.AgreesOn (before.context s height blockID blockNumber) leaves)
      (s.processForwardLETSovereign forwardLET blockID blockNumber)
      (fun _ w => forwardLET.Describes height leaves ∧
        before.AgreesOn (before.context s height blockID blockNumber)
          (leaves ++ forwardLET.newLeaves.map LeafData.hash) w)
      fun _ w => before.RolledBack s.networkID height w ∧
        ¬forwardLET.Describes height leaves := by
  refine .bind ((checkLET_decides ready faultless _ _).onError ?_)
    fun _ => ?_
  · rintro _ w ⟨undone, mismatch⟩
    exact ⟨undone, fun describes =>
      mismatch ⟨describes.previousCount, describes.previousRoot⟩⟩
  rintro w ⟨⟨previousCount, previousRoot⟩, t, inBlock, rfl⟩
  have count := inBlock.count_eq ready.small
  refine (Triple.bind (orRollback_succeeds (query_succeeds faultless _))
    fun initialDepositCount => ?_) w inBlock.processing
  rintro w ⟨processing, rfl⟩
  change t.getNumberDeposits s.networkID blockNumber = _ at count
  refine (Triple.bind ((storeLeaves_agrees ready faultless grow forwardLET
    _ forwardLET.newLeaves 0 _ count.symm room).onError
      fun _ _ never => never.elim) fun _ => ?_) w
          ⟨t, inBlock.step processing rfl inBlock.chained, rfl⟩
  refine .bind ((checkLET_decides ready faultless _ _).onError ?_)
    fun _ => ?_
  · rintro _ w ⟨undone, mismatch⟩
    refine ⟨undone, fun describes => mismatch ⟨?_, describes.newRoot⟩⟩
    rw [length_append, length_map]
    exact describes.newCount
  rintro w ⟨⟨newCount, newRoot⟩, t', inBlock', leaves'⟩
  rw [length_append, length_map] at newCount
  refine (orRollback_succeeds (update_succeeds faultless (fun t =>
    { t with
      forwardLET := t.forwardLET ++
        [{ blockID := blockID
           previousDepositCnt := forwardLET.previousDepositCount
           previousRoot := forwardLET.previousRoot
           newDepositCnt := forwardLET.newDepositCount
           newRoot := forwardLET.newRoot
           newRawLeaves := forwardLET.newRawLeaves }] }) ⟨rfl, rfl, rfl⟩
        fun _ issued => issued.congr rfl rfl rfl rfl)).post ?_ w
            inBlock'.processing
  intro _ w processing
  exact ⟨⟨previousCount, previousRoot, newCount, newRoot⟩, _,
    inBlock'.step processing rfl (inBlock'.chained.congr rfl rfl), leaves'⟩

end

end ClientSynchronizer

section Acceptance

/-- A program returns exactly under a condition, with one outcome when it
returns and another one when it fails. -/
structure AcceptedIff (describes : Prop) (program : Service H Unit)
    (accepted rejected : World H → Prop) (w : World H) : Prop where
  returns_iff : (∃ w', program w = .ok () w') ↔ describes
  accepts : ∀ w', program w = .ok () w' → accepted w'
  rejects : ∀ err w', program w = .error err w' → rejected w'

omit [Externals H] in
private theorem acceptedIff_of_triple {describes : Prop}
    {program : Service H Unit} {start accepted rejected : World H → Prop}
    (triple : Triple start program (fun _ w => describes ∧ accepted w)
      fun _ w => rejected w ∧ ¬describes) {w : World H} (here : start w) :
    AcceptedIff describes program accepted rejected w where
  returns_iff := by
    constructor
    · rintro ⟨w', ran⟩
      exact (triple.ok here ran).1
    · intro holds
      cases ran : program w with
      | ok value w' => exact ⟨w', rfl⟩
      | error err w' => exact absurd holds (triple.error here ran).2
  accepts := fun _ ran => (triple.ok here ran).2
  rejects := fun _ _ ran => (triple.error here ran).1

inductive ExitEvent (H : Type)
  | deposit (deposit : Deposit H)
  | forwardLET (forwardLET : ForwardLET H)
  | backwardLET (backwardLET : BackwardLET H)

namespace ExitEvent

def added : ExitEvent H → Nat
  | .deposit _ => 1
  | .forwardLET forward => forward.newLeaves.length
  | .backwardLET _ => 0

inductive Leads (height : Nat) (leaves : List H) :
    ExitEvent H → List H → Prop
  | deposit {made : Deposit H} (next : made.depositCount = leaves.length) :
      Leads height leaves (.deposit made) (leaves ++ [hashDeposit made])
  | forwardLET {forward : ForwardLET H}
      (describes : forward.Describes height leaves) :
      Leads height leaves (.forwardLET forward)
        (leaves ++ forward.newLeaves.map LeafData.hash)
  | backwardLET {backward : BackwardLET H}
      (describes : backward.Describes height leaves) :
      Leads height leaves (.backwardLET backward)
        (leaves.take backward.newDepositCount)

inductive LeadAll (height : Nat) :
    List H → List (ExitEvent H) → List H → Prop
  | nil (leaves : List H) : LeadAll height leaves [] leaves
  | cons {leaves middle final : List H} {event : ExitEvent H}
      {rest : List (ExitEvent H)} (first : Leads height leaves event middle)
      (others : LeadAll height middle rest final) :
      LeadAll height leaves (event :: rest) final

def Fit (height : Nat) : List (ExitEvent H) → List H → Prop
  | [], _ => True
  | event :: rest, leaves => leaves.length + event.added < 2 ^ height ∧
      ∀ leaves', event.Leads height leaves leaves' → Fit height rest leaves'

variable [DecidableEq H]

def process (s : ClientSynchronizer) (blockID blockNumber : Nat) :
    ExitEvent H → Service H Unit
  | .deposit made => s.processDeposit made blockID
  | .forwardLET forward =>
    s.processForwardLETSovereign forward blockID blockNumber
  | .backwardLET backward =>
    s.processBackwardLETSovereign backward blockID blockNumber

variable {s : ClientSynchronizer} {height blockID blockNumber : Nat}
  {before : World H} {leaves : List H}

theorem process_decides (ready : s.Ready height before)
    (faultless : before.Faultless) (grow : HashesGrow H)
    (onL2 : s.networkID ≠ 0) {event : ExitEvent H}
    (room : leaves.length + event.added < 2 ^ height) :
    Triple
      (before.AgreesOn (before.context s height blockID blockNumber) leaves)
      (event.process s blockID blockNumber)
      (fun _ w => ∃ leaves', event.Leads height leaves leaves' ∧
        before.AgreesOn (before.context s height blockID blockNumber)
          leaves' w)
      fun _ w => before.RolledBack s.networkID height w ∧
        ¬∃ leaves', event.Leads height leaves leaves' := by
  cases event with
  | deposit made =>
    apply (ClientSynchronizer.processDeposit_decides ready faultless grow
      room).weaken
    · rintro _ w ⟨next, agrees⟩
      exact ⟨_, .deposit next, agrees⟩
    · rintro _ w ⟨undone, mismatch⟩
      refine ⟨undone, ?_⟩
      rintro ⟨_, leads⟩
      cases leads with
      | deposit next => exact mismatch next
  | forwardLET forward =>
    apply (ClientSynchronizer.processForwardLETSovereign_decides ready
      faultless grow room).weaken
    · rintro _ w ⟨describes, agrees⟩
      exact ⟨_, .forwardLET describes, agrees⟩
    · rintro _ w ⟨undone, mismatch⟩
      refine ⟨undone, ?_⟩
      rintro ⟨_, leads⟩
      cases leads with
      | forwardLET describes => exact mismatch describes
  | backwardLET backward =>
    apply (ClientSynchronizer.processBackwardLETSovereign_decides ready
      faultless onL2 backward).weaken
    · rintro _ w ⟨describes, agrees⟩
      exact ⟨_, .backwardLET describes, agrees⟩
    · rintro _ w ⟨undone, mismatch⟩
      refine ⟨undone, ?_⟩
      rintro ⟨_, leads⟩
      cases leads with
      | backwardLET describes => exact mismatch describes

omit [DecidableEq H] in
theorem Leads.unique {event : ExitEvent H} {first second : List H}
    (one : event.Leads height leaves first)
    (other : event.Leads height leaves second) : first = second := by
  cases one with
  | deposit _ =>
    cases other
    rfl
  | forwardLET _ =>
    cases other
    rfl
  | backwardLET _ =>
    cases other
    rfl

omit [DecidableEq H] in
theorem LeadAll.unique {events : List (ExitEvent H)}
    {first second : List H} (one : LeadAll height leaves events first)
    (other : LeadAll height leaves events second) : first = second := by
  induction one with
  | nil leaves =>
    cases other
    rfl
  | cons leads _ induction =>
    cases other with
    | cons leads' later =>
      rw [leads'.unique leads] at later
      exact induction later

theorem processAll_decides (ready : s.Ready height before)
    (faultless : before.Faultless) (grow : HashesGrow H)
    (onL2 : s.networkID ≠ 0) (events : List (ExitEvent H))
    (leaves : List H) (fit : Fit height events leaves) :
    Triple
      (before.AgreesOn (before.context s height blockID blockNumber) leaves)
      (events.foldlM (fun _ event => event.process s blockID blockNumber) ())
      (fun _ w => ∃ leaves', LeadAll height leaves events leaves' ∧
        before.AgreesOn (before.context s height blockID blockNumber)
          leaves' w)
      fun _ w => before.RolledBack s.networkID height w ∧
        ¬∃ leaves', LeadAll height leaves events leaves' := by
  induction events generalizing leaves with
  | nil => exact .pure fun w agrees => ⟨leaves, .nil leaves, agrees⟩
  | cons event rest induction =>
    obtain ⟨room, others⟩ := fit
    rw [foldlM_cons]
    refine .bind ((process_decides ready faultless grow onL2
      room).onError ?_) fun _ => ?_
    · rintro _ w ⟨undone, mismatch⟩
      refine ⟨undone, ?_⟩
      rintro ⟨_, leads⟩
      cases leads with
      | cons first _ => exact mismatch ⟨_, first⟩
    rintro w ⟨middle, first, agrees⟩
    apply (induction middle (others middle first)).weaken
    · rintro _ w ⟨final, later, agrees⟩
      exact ⟨final, .cons first later, agrees⟩
    · rintro _ w ⟨undone, mismatch⟩
      refine ⟨undone, ?_⟩
      rintro ⟨final, leads⟩
      cases leads with
      | cons first' later =>
        rw [first'.unique first] at later
        exact mismatch ⟨final, later⟩
    · exact agrees

end ExitEvent

variable [DecidableEq H] {s : ClientSynchronizer} {height : Nat}
  {before : World H}

theorem ClientSynchronizer.addBlock_agrees (ready : s.Ready height before)
    (chained : before.committed.Chained) (block : Block H)
    (inOrder : before.committed.InOrder s.networkID block) :
    Triple (fun w => w = before.opened)
      (s.orRollback (Storage.addBlock block s.networkID .tx))
      (fun blockID => before.AgreesOn
        (before.context s height blockID block.blockNumber)
        (before.committed.leavesOf s.networkID))
      (before.Failed s.networkID height) := by
  apply (addBlock_effect ready block).weaken
  · rintro blockID w ⟨t, added, processing⟩
    refine ⟨t, ⟨processing, added.chained chained, ?_, ?_⟩, ?_⟩
    · cases added with
      | known row rowIn sameHash =>
        obtain ⟨network, number⟩ := inOrder.known row rowIn sameHash
        exact ⟨row, rowIn, rfl, network, number⟩
      | new _ _ _ _ =>
        exact ⟨_, mem_append_right _ mem_cons_self, rfl, rfl, rfl⟩
    · cases added with
      | known row rowIn sameHash => exact inOrder.later
      | new _ _ _ _ =>
        intro row rowIn network
        rcases Rows.mem_push.mp rowIn with old | rfl
        · exact inOrder.later row old network
        · exact le_rfl
    · cases added with
      | known row rowIn sameHash => rfl
      | new _ _ _ _ => rfl
  · intro _ _ failed
    exact failed

/-- LET events are accepted exactly when they describe the transition of the
exit tree, alone and among the other events of a block. -/
theorem let_events_accepted_iff (ready : s.Ready height before)
    (faultless : before.Faultless) (grow : HashesGrow H)
    (onL2 : s.networkID ≠ 0) {blockID blockNumber : Nat} {leaves : List H}
    {w : World H}
    (agrees : before.AgreesOn (before.context s height blockID blockNumber)
      leaves w) :
    (∀ forwardLET : ForwardLET H,
      leaves.length + forwardLET.newLeaves.length < 2 ^ height →
      AcceptedIff (forwardLET.Describes height leaves)
        (s.processForwardLETSovereign forwardLET blockID blockNumber)
        (before.AgreesOn (before.context s height blockID blockNumber)
          (leaves ++ forwardLET.newLeaves.map LeafData.hash))
        (before.RolledBack s.networkID height) w) ∧
    (∀ backwardLET : BackwardLET H,
      AcceptedIff (backwardLET.Describes height leaves)
        (s.processBackwardLETSovereign backwardLET blockID blockNumber)
        (before.AgreesOn (before.context s height blockID blockNumber)
          (leaves.take backwardLET.newDepositCount))
        (before.RolledBack s.networkID height) w) ∧
    ∀ events : List (ExitEvent H), ExitEvent.Fit height events leaves →
      AcceptedIff (∃ leaves', ExitEvent.LeadAll height leaves events leaves')
        (events.foldlM
          (fun _ event => event.process s blockID blockNumber) ())
        (fun w' => ∃ leaves',
          ExitEvent.LeadAll height leaves events leaves' ∧
          before.AgreesOn (before.context s height blockID blockNumber)
            leaves' w')
        (before.RolledBack s.networkID height) w := by
  refine ⟨?_, ?_, ?_⟩
  · intro forwardLET room
    exact acceptedIff_of_triple
      (ClientSynchronizer.processForwardLETSovereign_decides ready faultless
        grow room) agrees
  · intro backwardLET
    exact acceptedIff_of_triple
      (ClientSynchronizer.processBackwardLETSovereign_decides ready faultless
        onL2 backwardLET) agrees
  · intro events fit
    apply acceptedIff_of_triple _ agrees
    apply (ExitEvent.processAll_decides ready faultless grow onL2 events
      leaves fit).weaken
    · rintro _ w ⟨leaves', leads, agrees⟩
      exact ⟨⟨leaves', leads⟩, leaves', leads, agrees⟩
    · intro _ _ failed
      exact failed

end Acceptance

section Samples

open ClientSynchronizer

private def digestDepth : Digest → Nat
  | .zero level => level
  | .node left right => max (digestDepth left) (digestDepth right) + 1
  | _ => 0

private theorem digestDepth_pair (left right : Digest) :
    digestDepth (Digest.pair left right) =
      max (digestDepth left) (digestDepth right) + 1 := by
  cases left with
  | zero level =>
    cases right with
    | zero other =>
      by_cases same : level = other
      · simp [Digest.pair, same, digestDepth]
      · simp [Digest.pair, same, digestDepth]
    | node => rfl
    | bytes => rfl
    | leaf => rfl
  | node => rfl
  | bytes => rfl
  | leaf => rfl

private theorem digest_grows : HashesGrow Digest := by
  refine ⟨digestDepth, fun left right => ?_⟩
  have depth := digestDepth_pair left right
  constructor
  · show digestDepth left < digestDepth (Digest.pair left right)
    omega
  · show digestDepth right < digestDepth (Digest.pair left right)
    omega

private def sampleLeaf : LeafData :=
  { leafType := 0
    originNetwork := 0
    originAddress := 0
    destinationNetwork := 0
    destinationAddress := 0
    amount := 7
    metadata := [] }

private def sampleForwardLET : ForwardLET Digest :=
  { blockID := 0
    previousDepositCount := 1
    previousRoot := treeRoot 2 [hashDeposit (sampleDeposit 1 0)]
    newDepositCount := 2
    newRoot := treeRoot 2 [hashDeposit (sampleDeposit 1 0), sampleLeaf.hash]
    newRawLeaves := []
    newLeaves := [sampleLeaf]
    txHash := hashZero }

private def sampleBackwardLET : BackwardLET Digest :=
  { blockID := 0
    previousDepositCount := 2
    previousRoot := treeRoot 2
      [hashDeposit (sampleDeposit 1 0), sampleLeaf.hash]
    newDepositCount := 1
    newRoot := treeRoot 2 [hashDeposit (sampleDeposit 1 0)] }

private def sampleExitEvents : List (ExitEvent Digest) :=
  [.deposit (sampleDeposit 1 0), .forwardLET sampleForwardLET,
    .backwardLET sampleBackwardLET]

private theorem sample_lead : ExitEvent.LeadAll 2 [] sampleExitEvents
    [hashDeposit (sampleDeposit 1 0)] :=
  .cons (.deposit rfl) (.cons (.forwardLET ⟨rfl, rfl, rfl, rfl⟩)
    (.cons (.backwardLET ⟨rfl, rfl, by decide, rfl⟩) (.nil _)))

private theorem sample_fit : ExitEvent.Fit 2 sampleExitEvents [] := by
  refine ⟨by decide, fun leaves first => ?_⟩
  rw [first.unique (.deposit rfl)]
  refine ⟨by decide, fun leaves second => ?_⟩
  rw [second.unique (.forwardLET ⟨rfl, rfl, rfl, rfl⟩)]
  exact ⟨by decide, fun _ _ => trivial⟩

/-- A deposit, a ForwardLET and a BackwardLET event of one block. -/
theorem deposit_and_let_events_accepted :
    ∃ (blockID : Nat) (w w' : World Digest), sampleSynchronizer.orRollback
        (Storage.addBlock (depositBlock 5 []) 1 .tx)
        (World.start 2 [1]).opened = .ok blockID w ∧
      sampleExitEvents.foldlM (fun _ event =>
        event.process sampleSynchronizer blockID 5) () w = .ok () w' ∧
      (World.start 2 [1]).AgreesOn
        ((World.start 2 [1]).context sampleSynchronizer 2 blockID 5)
        [hashDeposit (sampleDeposit 1 0)] w' := by
  have ready := start_ready Digest.hash_injective 2 (by decide)
  have returned : returns (sampleSynchronizer.orRollback
      (Storage.addBlock (depositBlock 5 []) 1 .tx)) (fun _ _ => true)
      (World.start 2 [1] : World Digest).opened = true := by
    decide +kernel
  obtain ⟨blockID, w, added, _⟩ := exists_of_returns returned
  have agrees := (addBlock_agrees ready Tables.chained_empty
    (depositBlock 5 []) ⟨nofun, nofun⟩).ok rfl added
  have accepted := (let_events_accepted_iff ready (fun _ _ _ => rfl)
    digest_grows (by decide) agrees).2.2 sampleExitEvents sample_fit
  obtain ⟨w', ran⟩ := accepted.returns_iff.mpr ⟨_, sample_lead⟩
  obtain ⟨leaves, leads, agrees'⟩ := accepted.accepts w' ran
  rw [leads.unique sample_lead] at agrees'
  exact ⟨blockID, w, w', added, ran, agrees'⟩

end Samples

end BridgeService
