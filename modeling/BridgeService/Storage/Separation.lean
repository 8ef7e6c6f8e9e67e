import BridgeService.Bridgectrl.RollupExit
import BridgeService.Storage.Chain

/-!
# Rows of one network

All networks share the tables.  Their rows are kept apart by the network of a
row and by the block that a row refers to: every row belongs to a block of its
own network, and the rollup exit trees belong to blocks of L1.  A reset of one
network then deletes nothing of another one.
-/

namespace BridgeService

open Ledger List

variable {H : Type}

namespace Tables

section Views

def blocksOf (t : Tables H) (networkID : Nat) : List (BlockRow H) :=
  t.block.filter fun row => row.networkID = networkID

def claimsOf (t : Tables H) (networkID : Nat) : List (ClaimRow H) :=
  t.claim.filter fun row => row.networkID = networkID

def tokensOf (t : Tables H) (networkID : Nat) : List TokenRow :=
  t.tokenWrapped.filter fun row => row.networkID = networkID

def exitRootsOf (t : Tables H) (networkID : Nat) : List (ExitRootRow H) :=
  t.exitRoot.filter fun row => row.networkID = networkID

def rootsOf (t : Tables H) (networkID : Nat) : List (RootRow H) :=
  t.root.filter fun row => row.network = networkID

def nodesOf (t : Tables H) (networkID : Nat) : List (RhtRow H) :=
  t.rht.filter fun row =>
    row.depositID ∈ (t.depositsOf networkID).map DepositRow.id

end Views

/-- Every row belongs to a block of its own network, the rollup exit trees to
blocks of L1, and the entries of the exit roots table have increasing ids. -/
structure Separated (t : Tables H) : Prop where
  chained : t.Chained
  owned : t.Owned
  rollupExit : ∀ row, row ∈ t.rollupExit → t.OwnBlock row.blockID 0
  exitRootIDs : t.exitRoot.Pairwise fun first second => first.id < second.id

theorem separated_empty : (Tables.empty : Tables H).Separated :=
  ⟨chained_empty, owned_empty, nofun, List.Pairwise.nil⟩

variable {t t' : Tables H} {networkID other : Nat}

section Trees

variable [Externals H] {height : Nat}

theorem TreeTables.rootsOf_eq (tree : t.TreeTables height) :
    t.rootsOf networkID =
      derived (rootRows height) (lane networkID t.entries) := by
  rw [rootsOf, tree.root_eq]
  apply filter_derived
  intro entry _ past row inside
  rw [mem_singleton.mp inside]

theorem TreeTables.nodesOf_eq (tree : t.TreeTables height) :
    t.nodesOf networkID =
      derived (nodeRows height) (lane networkID t.entries) := by
  have ids : (t.depositsOf networkID).map DepositRow.id =
      (lane networkID t.entries).map Entry.id := by
    rw [lane, entries, filter_map, map_map]
    rfl
  rw [nodesOf, tree.rht_eq]
  apply filter_derived
  intro entry mem past row inside
  obtain ⟨level, _, rfl⟩ := mem_map.mp inside
  rw [decide_eq_decide, ids, mem_map]
  constructor
  · rintro ⟨same, sameIn, sameID⟩
    obtain ⟨stored, sameLane⟩ := mem_lane.mp sameIn
    rw [← tree.ledger.eq_of_id stored mem sameID]
    exact sameLane
  · intro here
    exact ⟨entry, mem_lane.mpr ⟨mem, here⟩, rfl⟩

theorem TreeTables.same_trees (tree : t.TreeTables height)
    (tree' : t'.TreeTables height)
    (same : (t'.depositsOf networkID).map depositEntry =
      (t.depositsOf networkID).map depositEntry) :
    t'.rootsOf networkID = t.rootsOf networkID ∧
      t'.nodesOf networkID = t.nodesOf networkID := by
  have lanes : ∀ t : Tables H, lane networkID t.entries =
      (t.depositsOf networkID).map depositEntry := by
    intro t
    rw [lane, entries, filter_map]
    rfl
  have sameLane : lane networkID t'.entries = lane networkID t.entries := by
    rw [lanes, lanes, same]
  rw [tree.rootsOf_eq, tree'.rootsOf_eq, tree.nodesOf_eq, tree'.nodesOf_eq,
    sameLane]
  exact ⟨rfl, rfl⟩

end Trees

section Reset

variable {blockNumber : Nat}

theorem filter_stays {α : Type} {rows : List α} {keep : α → Bool}
    {network : α → Nat}
    (stays : ∀ row, row ∈ rows → network row = other → keep row = true) :
    ((rows.filter keep).filter fun row => network row = other) =
      rows.filter fun row => network row = other := by
  rw [filter_filter]
  apply filter_congr
  intro row stored
  by_cases here : network row = other
  · simp [here, stays row stored here]
  · simp [here]

theorem Separated.reset_other (separated : t.Separated) (blockNumber : Nat)
    (different : other ≠ networkID) :
    (t.reset blockNumber networkID).blocksOf other = t.blocksOf other ∧
      (t.reset blockNumber networkID).depositsOf other = t.depositsOf other ∧
      (t.reset blockNumber networkID).claimsOf other = t.claimsOf other ∧
      (t.reset blockNumber networkID).tokensOf other = t.tokensOf other ∧
      (t.reset blockNumber networkID).exitRootsOf other =
        t.exitRootsOf other := by
  have stays : ∀ {blockID : Nat}, t.OwnBlock blockID other →
      blockID ∉ t.goneIDs blockNumber networkID := fun own =>
    own.not_mem_goneIDs separated.chained.blockIDs different
  refine ⟨?_, ?_, ?_, ?_, ?_⟩
  · apply filter_stays
    rintro row _ rfl
    simp [different]
  · apply filter_stays
    rintro row stored rfl
    rw [Bool.not_eq_true', decide_eq_false_iff_not]
    exact stays (separated.chained.dated row stored)
  · apply filter_stays
    rintro row stored rfl
    rw [decide_eq_true_eq]
    exact stays (separated.owned.claim row stored)
  · apply filter_stays
    rintro row stored rfl
    rw [decide_eq_true_eq]
    exact stays (separated.owned.token row stored)
  · apply filter_stays
    rintro row stored rfl
    rw [decide_eq_true_eq]
    rcases separated.owned.exitRoot row stored with trusted | own
    · rw [trusted]
      exact separated.owned.zero_not_mem_goneIDs blockNumber networkID
    · exact stays own

theorem Separated.rollupExit_reset (separated : t.Separated)
    (notL1 : networkID ≠ 0) :
    (t.reset blockNumber networkID).rollupExit = t.rollupExit := by
  apply filter_eq_self.mpr
  intro row stored
  rw [decide_eq_true_eq]
  exact (separated.rollupExit row stored).not_mem_goneIDs
    separated.chained.blockIDs notL1.symm

theorem Separated.reset (separated : t.Separated)
    (blockNumber networkID : Nat) :
    (t.reset blockNumber networkID).Separated where
  chained := separated.chained.reset blockNumber networkID
  owned := separated.owned.reset blockNumber networkID
  rollupExit := by
    intro row stored
    obtain ⟨rowIn, stays⟩ := mem_filter.mp stored
    exact (separated.rollupExit row rowIn).reset (of_decide_eq_true stays)
  exitRootIDs := separated.exitRootIDs.filter _

end Reset

section Changes

theorem depositsOf_setReady_eq (t : Tables H) (ready : Bool)
    (matching : DepositRow H → Bool) (networkID : Nat) :
    (t.setReady ready matching).depositsOf networkID =
      (t.depositsOf networkID).map fun row =>
        if matching row then { row with readyForClaim := ready } else row := by
  rw [depositsOf, setReady, filter_map, depositsOf]
  apply congrArg
  apply filter_congr
  intro row _
  rw [Function.comp_apply]
  split <;> rfl

theorem Separated.setReady (separated : t.Separated) (ready : Bool)
    (matching : DepositRow H → Bool) :
    (t.setReady ready matching).Separated where
  chained := by
    refine separated.chained.of_fewer rfl ?_
    intro row stored
    obtain ⟨old, oldIn, rfl⟩ := mem_setReady.mp stored
    refine ⟨old, oldIn, ?_⟩
    split
    · exact ⟨rfl, rfl, rfl⟩
    · exact ⟨rfl, rfl, rfl⟩
  owned := ⟨separated.owned.positive, separated.owned.claim,
    separated.owned.token, separated.owned.exitRoot⟩
  rollupExit := separated.rollupExit
  exitRootIDs := separated.exitRootIDs

theorem Separated.pushTrusted (separated : t.Separated)
    {row : ExitRootRow H} (trusted : row.blockID = 0)
    (fresh : ∀ old, old ∈ t.exitRoot → old.id < row.id) :
    { t with exitRoot := t.exitRoot ++ [row] }.Separated where
  chained := separated.chained.congr rfl rfl
  owned := by
    refine ⟨separated.owned.positive, separated.owned.claim,
      separated.owned.token, ?_⟩
    intro entry stored
    rcases Rows.mem_push.mp stored with old | rfl
    · exact separated.owned.exitRoot entry old
    · exact .inl trusted
  rollupExit := separated.rollupExit
  exitRootIDs := by
    rw [pairwise_append]
    refine ⟨separated.exitRootIDs, pairwise_singleton _ _, ?_⟩
    intro old oldIn new newIn
    rw [mem_singleton.mp newIn]
    exact fresh old oldIn

end Changes

end Tables

end BridgeService
