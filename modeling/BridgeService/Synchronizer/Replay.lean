import BridgeService.Synchronizer.Reorg

/-!
# Reset against replay

A reset to a block is compared with a run that stops at this block.  Both leave
the same deposits, claims, exit roots and exit tree exactly when no event of a
later block deleted or changed something that was stored up to this block.
-/

namespace BridgeService

open ErrorState List

variable {H : Type}

section Statement

/-- Blocks that follow the stored blocks of a network, with increasing numbers
and new hashes. -/
structure Tables.Follows (t : Tables H) (networkID : Nat)
    (blocks : List (Block H)) : Prop where
  later : ∀ block, block ∈ blocks → ∀ row, row ∈ t.block →
    row.networkID = networkID → row.blockNum < block.blockNumber
  unknown : ∀ block, block ∈ blocks → ∀ row, row ∈ t.block →
    row.blockHash ≠ block.blockHash
  increasing : blocks.Pairwise fun first second =>
    first.blockNumber < second.blockNumber
  distinct : blocks.Pairwise fun first second =>
    first.blockHash ≠ second.blockHash

def Tables.numberOf (t : Tables H) (blockID : Nat) : Option Nat :=
  (t.block.find? fun row => row.id == blockID).map BlockRow.blockNum

/-- What the tables say about a network, up to row ids: a row names its block
by the number of the block. -/
structure NetworkView (H : Type) where
  deposits : List (DepositRow H × Option Nat)
  claims : List (ClaimRow H × Option Nat)
  exitRoots : List (ExitRootRow H × Option Nat)
  roots : List H

def Tables.networkView (t : Tables H) (networkID : Nat) : NetworkView H :=
  { deposits := (t.networkState networkID).deposits.map fun row =>
      ({ row with
         id := 0
         blockID := 0 }, t.numberOf row.blockID)
    claims := (t.networkState networkID).claims.map fun row =>
      ({ row with blockID := 0 }, t.numberOf row.blockID)
    exitRoots := (t.networkState networkID).exitRoots.map fun row =>
      ({ row with
         id := 0
         blockID := 0 }, t.numberOf row.blockID)
    roots := (t.root.filter fun row => row.network == networkID).map
      RootRow.root }

/-- Two states agree on a network: on its tables, up to row ids, and on the
number of leaves and all later roots of its exit tree. -/
structure World.SameNetwork [Externals H] (networkID height : Nat)
    (w w' : World H) : Prop where
  view : w.committed.networkView networkID = w'.committed.networkView networkID
  tree : ∃ mt mt', w.exitTrees networkID = some mt ∧
    w'.exitTrees networkID = some mt' ∧ mt.count = mt'.count ∧
    MerkleTree.SameRoots height mt mt'

/-- An event deletes no stored deposit or claim of the network and forbids no
entry of its exit roots. -/
def Event.Spares [DecidableEq H] (t : Tables H) (networkID : Nat) :
    Event H → Prop
  | .backwardLET backward =>
    (t.depositsOf networkID).length ≤ backward.newDepositCount
  | .unsetClaim unset => ∀ row, row ∈ t.claim →
      row.networkID = networkID → row.globalIndex ≠ toString unset.globalIndex
  | .removeL2GER ger => ∀ row, row ∈ t.exitRoot →
      Storage.isEntryOf ger.globalExitRoot networkID row = true →
        row.allowed = false
  | _ => True

end Statement

section Spared

variable [DecidableEq H] [Externals H] {t : Tables H}
  {height networkID : Nat}

omit [Externals H] in
private theorem forbid_eq_self_iff (row : ExitRootRow H) (ger : H) :
    row.forbid ger = row ↔
      (row.globalExitRoot = ger → row.allowed = false) := by
  rw [ExitRootRow.forbid]
  by_cases removed : row.globalExitRoot = ger
  · rw [if_pos removed]
    constructor
    · intro same _
      rw [← same]
    · intro forbidden
      rw [← forbidden removed]
  · rw [if_neg removed]
    exact ⟨fun _ here => absurd here removed, fun _ => rfl⟩

theorem Event.after_eq_self_iff (tree : t.TreeTables height)
    (event : Event H) :
    (t.networkState networkID).after event = t.networkState networkID ↔
      event.Spares t networkID := by
  cases event with
  | backwardLET backward =>
    have counts := tree.counts_eq networkID
    rw [NetworkState.after, Event.Spares, Tables.networkState]
    simp only [NetworkState.mk.injEq, and_true, filter_eq_self,
      decide_eq_true_eq]
    constructor
    · intro all
      by_contra fewer
      have count : backward.newDepositCount ∈
          (t.depositsOf networkID).map DepositRow.depositCnt := by
        rw [counts, mem_range]
        omega
      obtain ⟨row, stored, same⟩ := mem_map.mp count
      have below := all row stored
      omega
    · intro enough row stored
      have count := mem_map_of_mem (f := DepositRow.depositCnt) stored
      rw [counts, mem_range] at count
      omega
  | unsetClaim unset =>
    rw [NetworkState.after, Event.Spares, Tables.networkState]
    simp only [NetworkState.mk.injEq, true_and, and_true,
      filter_eq_self, mem_filter, decide_eq_true_eq, and_imp]
  | removeL2GER ger =>
    rw [NetworkState.after, Event.Spares, Tables.networkState]
    simp only [NetworkState.mk.injEq, true_and, map_map,
      map_inj_left, mem_filter, decide_eq_true_eq, and_imp,
      Function.comp_apply, forbid_eq_self_iff]
    apply forall_congr'
    intro row
    apply imp_congr_right
    intro _
    simp only [Storage.isEntryOf, Bool.and_eq_true, beq_iff_eq,
      ExitRootRow.withoutRoots]
    exact ⟨fun kept same => kept same.2 same.1,
      fun kept onNetwork same => kept ⟨same, onNetwork⟩⟩
  | _ => exact ⟨fun _ => trivial, fun _ => rfl⟩

end Spared

section Blocks

variable [DecidableEq H] [Externals H] {t t' : Tables H}
  {networkID blockNumber : Nat}

omit [DecidableEq H] [Externals H] in
theorem Tables.Follows.tail {block : Block H} {rest : List (Block H)}
    (follows : t.Follows networkID (block :: rest))
    {row : BlockRow H} (blocks : t'.block = t.block ++ [row])
    (number : row.blockNum = block.blockNumber)
    (hash : row.blockHash = block.blockHash) :
    t'.Follows networkID rest := by
  obtain ⟨larger, increasing⟩ := pairwise_cons.mp follows.increasing
  obtain ⟨others, distinct⟩ := pairwise_cons.mp follows.distinct
  refine ⟨?_, ?_, increasing, distinct⟩
  · intro next nextIn old oldIn onNetwork
    rw [blocks] at oldIn
    rcases Rows.mem_push.mp oldIn with before | rfl
    · exact follows.later next (mem_cons_of_mem _ nextIn) old before
        onNetwork
    · rw [number]
      exact larger next nextIn
  · intro next nextIn old oldIn
    rw [blocks] at oldIn
    rcases Rows.mem_push.mp oldIn with before | rfl
    · exact follows.unknown next (mem_cons_of_mem _ nextIn) old before
    · rw [hash]
      exact others next nextIn

omit [DecidableEq H] [Externals H] in
theorem Tables.Follows.inOrder {block : Block H} {rest : List (Block H)}
    (follows : t.Follows networkID (block :: rest)) :
    t.InOrder networkID block where
  later := by
    intro row stored onNetwork
    exact Nat.le_of_lt
      (follows.later block mem_cons_self row stored onNetwork)
  known := by
    intro row stored sameHash
    exact absurd sameHash (follows.unknown block mem_cons_self row stored)

omit [DecidableEq H] [Externals H] in
private theorem filter_gone_snoc {α : Type} {rows : List α}
    {blockID : α → Nat} {gone : List Nat} {id : Nat}
    (fresh : ∀ row, row ∈ rows → blockID row ≠ id) :
    (rows.filter fun row => blockID row ∉ gone ++ [id]) =
      rows.filter fun row => blockID row ∉ gone := by
  apply filter_congr
  intro row stored
  have other := fresh row stored
  simp [other]

omit [DecidableEq H] [Externals H] in
theorem Tables.keptState_new (chained : t.Chained) (owned : t.Owned)
    {id : Nat} (positive : 0 < id)
    (fresh : ∀ row, row ∈ t.block → row.id < id) (gone : List Nat) :
    t.keptState (gone ++ [id]) networkID = t.keptState gone networkID := by
  have other : ∀ {blockID rowNetwork : Nat},
      t.OwnBlock blockID rowNetwork → blockID ≠ id := by
    rintro blockID rowNetwork ⟨block, stored, rfl, _⟩
    exact Nat.ne_of_lt (fresh block stored)
  rw [keptState, keptState, filter_gone_snoc, filter_gone_snoc,
    filter_gone_snoc]
  · intro row inside
    obtain ⟨old, oldIn, rfl⟩ := mem_map.mp (mem_filter.mp inside).1
    rcases owned.exitRoot old oldIn with trusted | own
    · show old.blockID ≠ id
      omega
    · exact other own
  · intro row inside
    exact other (owned.claim row (mem_filter.mp inside).1)
  · intro row inside
    obtain ⟨block, stored, sameID, _⟩ :=
      chained.dated row (mem_filter.mp inside).1
    rw [← sameID]
    exact Nat.ne_of_lt (fresh block stored)

theorem AppliesAll.keptState {ctx : BlockContext H}
    {events : List (Event H)} {gone : List Nat}
    (applied : AppliesAll ctx events t t') (notL1 : ctx.networkID ≠ 0)
    (here : ctx.blockID ∈ gone) :
    t'.keptState gone ctx.networkID = events.foldl NetworkState.after
        (t.keptState gone ctx.networkID) := by
  induction applied with
  | nil => rfl
  | cons applies others induction =>
    rw [induction, foldl_cons, applies.keptState notL1 here]

/-- What a reset of the network to a block number keeps. -/
def Tables.kept (t : Tables H) (blockNumber networkID : Nat) :
    NetworkState H :=
  t.keptState (t.goneIDs blockNumber networkID) networkID

end Blocks

section Runs

variable [DecidableEq H] [Externals H] {s : ClientSynchronizer}
  {height blockNumber : Nat} {before w : World H} {order : H → List Order}

structure ClientSynchronizer.Steady (s : ClientSynchronizer) (height : Nat)
    (w : World H) : Prop where
  ready : s.Ready height w
  chained : w.committed.Chained
  owned : w.committed.Owned

def eventsOf (order : H → List Order) (blocks : List (Block H)) :
    List (Event H) :=
  blocks.flatMap fun block =>
    (order block.blockHash).filterMap block.event

private theorem commits_new (blockNumber : Nat) {block : Block H}
    {rest : List (Block H)} {t : Tables H} (steady : s.Steady height before)
    (follows : before.committed.Follows s.networkID (block :: rest))
    (commits : BlockCommits height s order block before t) :
    t.Owned ∧ t.Follows s.networkID rest ∧
      (∃ row, t.block = before.committed.block ++ [row] ∧
        row.networkID = s.networkID ∧
        row.blockNum = block.blockNumber) ∧
      (s.networkID ≠ 0 → blockNumber < block.blockNumber →
        t.kept blockNumber s.networkID =
          ((order block.blockHash).filterMap block.event).foldl
            NetworkState.after
            (before.committed.kept blockNumber s.networkID)) := by
  obtain ⟨blockID, start, events, added, ordered, applied⟩ := commits
  have current : (before.context s height blockID
      block.blockNumber).Current start :=
    BlockAdded.current follows.inOrder added
  have owned := applied.owned (added.owned steady.owned) current
  have listed := Block.filterMap_event ordered
  cases added with
  | known row stored sameHash =>
    exact absurd sameHash (follows.unknown block mem_cons_self row stored)
  | new _ positive fresh unknown =>
    have blocks := applied.block_eq
    refine ⟨owned, follows.tail blocks rfl rfl, ⟨_, blocks, rfl, rfl⟩, ?_⟩
    intro notL1 beyond
    have gone : t.goneIDs blockNumber s.networkID =
        before.committed.goneIDs blockNumber s.networkID ++ [blockID] := by
      rw [Tables.goneIDs, blocks, filter_append, map_append]
      simp [Tables.goneIDs, beyond]
    rw [Tables.kept, gone, listed, Tables.kept,
      ← Tables.keptState_new steady.chained steady.owned positive fresh]
    exact applied.keptState notL1 (mem_append_right _ mem_cons_self)

private def NewRows (networkID : Nat) (blocks : List (Block H))
    (rows : List (BlockRow H)) : Prop :=
  ∀ row, row ∈ rows → row.networkID = networkID ∧
    ∃ block, block ∈ blocks ∧ row.blockNum = block.blockNumber

private theorem blocks_commit (blockNumber : Nat)
    (blocks : List (Block H)) {rest : List (Block H)} {gers gers' : NewGers}
    {before : World H}
    (steady : s.Steady height before)
    (follows : before.committed.Follows s.networkID (blocks ++ rest))
    (withinCap : ∀ block, block ∈ blocks → block.WithinCap height)
    (ran : blocks.foldlM (s.processBlock order) gers before = .ok gers' w) :
    s.Steady height w ∧ w.committed.Follows s.networkID rest ∧
      (∃ rows, w.committed.block = before.committed.block ++ rows ∧
        NewRows s.networkID blocks rows) ∧
      (s.networkID ≠ 0 →
        (∀ block, block ∈ blocks → blockNumber < block.blockNumber) →
        w.committed.kept blockNumber s.networkID =
          (eventsOf order blocks).foldl NetworkState.after
            (before.committed.kept blockNumber s.networkID)) := by
  induction blocks generalizing gers before with
  | nil =>
    cases ran
    exact ⟨steady, follows, ⟨[], (append_nil _).symm, nofun⟩,
      fun _ _ => rfl⟩
  | cons block others induction =>
    rw [foldlM_cons] at ran
    obtain ⟨middle, between, first, ran⟩ := bind_ok ran
    obtain ⟨t, commits, settled⟩ := ClientSynchronizer.processBlock_ok
      steady.ready (withinCap block mem_cons_self) first
    obtain ⟨owned, follows', ⟨row, added, onNetwork, number⟩, kept⟩ :=
      commits_new blockNumber steady follows commits
    have chained := ClientSynchronizer.commits_chained
      steady.ready.consistent.tables steady.chained follows.inOrder commits
    rw [← settled.committed] at owned follows' added kept chained
    obtain ⟨steady', follows'', ⟨rows, grown, new⟩, kept'⟩ := induction
      ⟨settled.ready steady.ready, chained, owned⟩ follows'
      (fun next inside => withinCap next (mem_cons_of_mem _ inside))
      ran
    refine ⟨steady', follows'', ⟨row :: rows, ?_, ?_⟩, ?_⟩
    · rw [grown, added, append_assoc]
      rfl
    · intro other inside
      rcases mem_cons.mp inside with rfl | older
      · exact ⟨onNetwork, block, mem_cons_self, number⟩
      · obtain ⟨otherNetwork, source, sourceIn, otherNumber⟩ := new other older
        exact ⟨otherNetwork, source, mem_cons_of_mem _ sourceIn,
          otherNumber⟩
    · intro notL1 beyond
      rw [forall_mem_cons] at beyond
      rw [kept' notL1 beyond.2, kept notL1 beyond.1, eventsOf, eventsOf,
        flatMap_cons, foldl_append]

omit [DecidableEq H] [Externals H] in
private theorem kept_nothing {t : Tables H} {networkID : Nat}
    (last : ∀ row, row ∈ t.block → row.networkID = networkID →
      row.blockNum ≤ blockNumber) :
    t.kept blockNumber networkID = t.networkState networkID := by
  have none : t.goneIDs blockNumber networkID = [] := by
    rw [Tables.goneIDs, map_eq_nil_iff, filter_eq_nil_iff]
    intro row stored removed
    rw [Bool.and_eq_true, decide_eq_true_eq, beq_iff_eq] at removed
    have early := last row stored removed.2
    omega
  rw [Tables.kept, none, Tables.keptState, Tables.networkState,
    filter_map]
  simp
  rfl

omit [DecidableEq H] [Externals H] in
private theorem block_reset {t t' : Tables H} {networkID : Nat}
    {blocks : List (Block H)} {rows : List (BlockRow H)}
    (last : ∀ row, row ∈ t.block → row.networkID = networkID →
      row.blockNum ≤ blockNumber)
    (grown : t'.block = t.block ++ rows)
    (new : NewRows networkID blocks rows)
    (beyond : ∀ block, block ∈ blocks → blockNumber < block.blockNumber) :
    (t'.reset blockNumber networkID).block = t.block := by
  change t'.block.filter (fun row =>
    !(blockNumber < row.blockNum && row.networkID == networkID)) = _
  rw [grown, filter_append, filter_eq_self.mpr,
    filter_eq_nil_iff.mpr, append_nil]
  · intro row inside
    obtain ⟨onNetwork, block, blockIn, number⟩ := new row inside
    have later := beyond block blockIn
    simp [onNetwork, number, later]
  · intro row stored
    by_cases onNetwork : row.networkID = networkID
    · have early := last row stored onNetwork
      simp [onNetwork, Nat.not_lt.mpr early]
    · simp [onNetwork]

omit [DecidableEq H] in
private theorem networkView_congr {t t' : Tables H} {networkID : Nat}
    (tree : t.TreeTables height) (tree' : t'.TreeTables height)
    (state : t'.networkState networkID = t.networkState networkID)
    (block : t'.block = t.block) :
    t'.networkView networkID = t.networkView networkID := by
  have number : t'.numberOf = t.numberOf := by
    funext blockID
    rw [Tables.numberOf, Tables.numberOf, block]
  have deposits : t'.depositsOf networkID = t.depositsOf networkID :=
    congrArg NetworkState.deposits state
  rw [Tables.networkView, Tables.networkView, state, number,
    tree.roots_of_network, tree'.roots_of_network, deposits]

omit [DecidableEq H] [Externals H] in
private theorem size_eq_of_view {t t' : Tables H} {networkID : Nat}
    (view : t'.networkView networkID = t.networkView networkID) :
    (t'.networkState networkID).size = (t.networkState networkID).size := by
  have deposits := congrArg (fun v => v.deposits.length) view
  have claims := congrArg (fun v => v.claims.length) view
  have exitRoots := congrArg
    (fun v => v.exitRoots.countP fun entry => entry.1.allowed) view
  simp only [Tables.networkView, length_map, countP_map]
    at deposits claims exitRoots
  rw [NetworkState.size, NetworkState.size, deposits, claims]
  exact congrArg _ exitRoots

omit [DecidableEq H] in
private theorem sameNetwork_of_view {mid : World H}
    (ready : s.Ready height w) (ready' : s.Ready height mid)
    (view : w.committed.networkView s.networkID =
      mid.committed.networkView s.networkID)
    (leaves : w.committed.leavesOf s.networkID =
      mid.committed.leavesOf s.networkID) :
    w.SameNetwork s.networkID height mid := by
  obtain ⟨mt, registered⟩ := ready.registered
  obtain ⟨mt', registered'⟩ := ready'.registered
  obtain ⟨network, represents⟩ :=
    ready.consistent.trees s.networkID mt registered
  obtain ⟨network', represents'⟩ :=
    ready'.consistent.trees s.networkID mt' registered'
  rw [leaves] at represents
  refine ⟨view, mt, mt', registered, registered', ?_, ?_⟩
  · rw [represents.count_eq, represents'.count_eq]
  · exact MerkleTree.sameRoots_of_represents ready.small represents
      represents' (network.trans network'.symm)

/-- A reset to a block leaves what a run up to this block leaves exactly when
the events of the later blocks spare what was stored up to it. -/
theorem reset_replays_iff {start mid full : World H}
    (steady : s.Steady height start) (notL1 : s.networkID ≠ 0)
    {earlier later : List (Block H)} {last : Block H}
    (follows : start.committed.Follows s.networkID
      (earlier ++ [last] ++ later))
    (withinCap : ∀ block, block ∈ earlier ++ [last] ++ later →
      block.WithinCap height)
    {gers gers' : NewGers}
    (all : s.processBlocks (earlier ++ [last] ++ later) order start =
      .ok gers full)
    (reset : s.resetState last.blockNumber full = .ok () w)
    (replay : s.processBlocks (earlier ++ [last]) order start =
      .ok gers' mid) :
    w.SameNetwork s.networkID height mid ↔
      ∀ event, event ∈ eventsOf order later →
        event.Spares mid.committed s.networkID := by
  rw [ClientSynchronizer.processBlocks] at replay
  rw [ClientSynchronizer.processBlocks, foldlM_append,
    bind_of_ok replay] at all
  have increasing := pairwise_append.mp follows.increasing
  have beyond : ∀ block, block ∈ later →
      last.blockNumber < block.blockNumber := fun block inside =>
    increasing.2.2 last (by simp) block inside
  obtain ⟨steadyMid, followsMid, ⟨rows, grown, new⟩, _⟩ := blocks_commit
    0 (earlier ++ [last]) steady follows
    (fun block inside => withinCap block (mem_append_left _ inside))
    replay
  rw [← append_nil later] at followsMid
  obtain ⟨steadyFull, _, ⟨rows', grown', new'⟩, kept⟩ := blocks_commit
    last.blockNumber later steadyMid followsMid
    (fun block inside => withinCap block (mem_append_right _ inside))
    all
  have newest : ∀ row, row ∈ mid.committed.block →
      row.networkID = s.networkID → row.blockNum ≤ last.blockNumber := by
    intro row stored onNetwork
    rw [grown] at stored
    rcases mem_append.mp stored with old | added
    · exact Nat.le_of_lt (follows.later last (by simp) row old onNetwork)
    · obtain ⟨_, block, blockIn, number⟩ := new row added
      rw [number]
      rcases Rows.mem_push.mp blockIn with early | rfl
      · exact Nat.le_of_lt ((pairwise_append.mp increasing.1).2.2 block
          early last mem_cons_self)
      · rfl
  have settled := ClientSynchronizer.resetState_ok steadyFull.ready
    steadyFull.chained reset
  have readyReset := settled.ready steadyFull.ready
  have treeMid := steadyMid.ready.consistent.tables
  have state : w.committed.networkState s.networkID =
      (eventsOf order later).foldl NetworkState.after
        (mid.committed.networkState s.networkID) := by
    rw [settled.committed, Tables.networkState_reset, ← kept_nothing newest]
    exact kept notL1 beyond
  have block : w.committed.block = mid.committed.block := by
    rw [settled.committed]
    exact block_reset newest grown' new' beyond
  simp only [← Event.after_eq_self_iff treeMid]
  constructor
  · intro same
    have size := size_eq_of_view same.view
    rw [state] at size
    exact (NetworkState.size_foldl_eq_iff _ _).mp size
  · intro spared
    rw [NetworkState.foldl_eq_self spared] at state
    apply sameNetwork_of_view readyReset steadyMid.ready
    · exact networkView_congr treeMid readyReset.consistent.tables state block
    · have deposits : w.committed.depositsOf s.networkID =
          mid.committed.depositsOf s.networkID :=
        congrArg NetworkState.deposits state
      rw [Tables.leavesOf_eq_map, Tables.leavesOf_eq_map, deposits]

end Runs

section Samples

def backwardBlock : Block Digest :=
  { (depositBlock 2 [] : Block Digest) with
    backwardLETs :=
      [{ blockID := 0
         previousDepositCount := 1
         previousRoot := treeRoot 2 [hashDeposit (sampleDeposit 1 0)]
         newDepositCount := 0
         newRoot := treeRoot 2 [] }] }

def backwardOrder : Digest → List Order := fun blockHash =>
  if blockHash = backwardBlock.blockHash then
    [{ name := .backwardLETOrder
       pos := 0 }]
  else
    depositOrder 1 blockHash

theorem reset_loses_deleted_deposit :
    ∃ (gers gers' : NewGers) (full w mid : World Digest),
      sampleSynchronizer.processBlocks
          ([] ++ [depositBlock 1 [sampleDeposit 1 0]] ++ [backwardBlock])
          backwardOrder (World.start 2 [1]) = .ok gers full ∧
        sampleSynchronizer.resetState 1 full = .ok () w ∧
        sampleSynchronizer.processBlocks
            ([] ++ [depositBlock 1 [sampleDeposit 1 0]]) backwardOrder
            (World.start 2 [1]) = .ok gers' mid ∧
        w.committed.depositsOf 1 = [] ∧
        (mid.committed.depositsOf 1).length = 1 ∧
        ¬w.SameNetwork 1 2 mid := by
  have returned : returns
      (do
        let _ ← sampleSynchronizer.processBlocks
          ([] ++ [depositBlock 1 [sampleDeposit 1 0]] ++ [backwardBlock])
          backwardOrder
        sampleSynchronizer.resetState 1)
      (fun _ (w : World Digest) => w.committed.depositsOf 1 = [])
      (World.start 2 [1]) = true := by
    decide +kernel
  have replayed : returns
      (sampleSynchronizer.processBlocks
        ([] ++ [depositBlock 1 [sampleDeposit 1 0]]) backwardOrder)
      (fun _ (w : World Digest) => (w.committed.depositsOf 1).length = 1)
      (World.start 2 [1]) = true := by
    decide +kernel
  obtain ⟨_, w, ran, lost⟩ := exists_of_returns returned
  obtain ⟨gers, full, all, reset⟩ := bind_ok ran
  obtain ⟨gers', mid, replay, one⟩ := exists_of_returns replayed
  have lost : w.committed.depositsOf 1 = [] := of_decide_eq_true lost
  have one : (mid.committed.depositsOf 1).length = 1 := of_decide_eq_true one
  refine ⟨gers, gers', full, w, mid, all, reset, replay, lost, one, ?_⟩
  intro same
  have lengths := congrArg (fun view => view.deposits.length) same.view
  simp only [Tables.networkView, Tables.networkState, length_map, lost,
    one] at lengths
  exact Nat.zero_ne_one lengths

theorem reset_replays_deposit_block :
    ∃ (full w mid : World Digest) (gers gers' : NewGers),
      sampleSynchronizer.processBlocks
          ([] ++ [depositBlock 1 [sampleDeposit 1 0]] ++
            [depositBlock 2 [sampleDeposit 1 1]])
          (depositOrder 1) (World.start 2 [1]) = .ok gers full ∧
        sampleSynchronizer.resetState 1 full = .ok () w ∧
        sampleSynchronizer.processBlocks
            ([] ++ [depositBlock 1 [sampleDeposit 1 0]]) (depositOrder 1)
            (World.start 2 [1]) = .ok gers' mid ∧
        w.SameNetwork 1 2 mid := by
  have returned : returns
      (do
        let _ ← sampleSynchronizer.processBlocks
          ([] ++ [depositBlock 1 [sampleDeposit 1 0]] ++
            [depositBlock 2 [sampleDeposit 1 1]])
          (depositOrder 1)
        sampleSynchronizer.resetState 1)
      (fun _ _ => true) (World.start 2 [1] : World Digest) = true := by
    decide +kernel
  have replayed : returns
      (sampleSynchronizer.processBlocks
        ([] ++ [depositBlock 1 [sampleDeposit 1 0]]) (depositOrder 1))
      (fun _ _ => true) (World.start 2 [1] : World Digest) = true := by
    decide +kernel
  obtain ⟨_, w, ran, _⟩ := exists_of_returns returned
  obtain ⟨gers, full, all, reset⟩ := bind_ok ran
  obtain ⟨gers', mid, replay, _⟩ := exists_of_returns replayed
  have steady : sampleSynchronizer.Steady 2
      (World.start 2 [1] : World Digest) :=
    ⟨start_ready Digest.hash_injective 2 (by decide), Tables.chained_empty,
      Tables.owned_empty⟩
  have follows : (World.start 2 [1] : World Digest).committed.Follows 1
      ([] ++ [depositBlock 1 [sampleDeposit 1 0]] ++
        [depositBlock 2 [sampleDeposit 1 1]]) := by
    refine ⟨fun _ _ => nofun, fun _ _ => nofun, ?_, ?_⟩
    · exact pairwise_pair.mpr (by decide)
    · exact pairwise_pair.mpr (by decide)
  have withinCap : ∀ block : Block Digest,
      block ∈ [] ++ [depositBlock 1 [sampleDeposit 1 0]] ++
        [depositBlock 2 [sampleDeposit 1 1]] → block.WithinCap 2 := by
    decide
  refine ⟨full, w, mid, gers, gers', all, reset, replay,
    (reset_replays_iff steady (by decide) follows withinCap all reset
      replay).mpr ?_⟩
  intro event inside
  obtain ⟨block, blockIn, inside⟩ := mem_flatMap.mp inside
  obtain ⟨element, _, found⟩ := mem_filterMap.mp inside
  rw [mem_singleton.mp blockIn] at found
  obtain ⟨made, _, rfl⟩ := depositBlock_event found
  trivial

end Samples

end BridgeService
