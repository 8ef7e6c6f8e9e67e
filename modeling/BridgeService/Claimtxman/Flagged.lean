import BridgeService.Claimtxman.Status
import BridgeService.Storage.Roots

/-!
# Deposits that a manager marks

A manager marks the deposits up to the one whose root it finds.  So every
deposit that it marks is in the tree under the exit root of the entry that it
handles.
-/

namespace BridgeService

open List

variable {H : Type} [Externals H]

/-- The root of a tree that has the deposit at its position. -/
def DepositRow.InTree (height : Nat) (root : H) (d : DepositRow H) : Prop :=
  ∃ leaves, root = treeRoot height leaves ∧ leaves[d.depositCnt]? = some d.leaf

namespace Tables

/-- The rollup exit tree with the root has, for the network of the deposit, the
root of a tree that has the deposit. -/
def InRollupTree (height : Nat) (t : Tables H) (rollupExitRoot : H)
    (d : DepositRow H) : Prop :=
  ∃ row, row ∈ t.rollupExit ∧ row.root = rollupExitRoot ∧
    row.rollupId = d.networkID ∧ d.InTree height row.leaf

variable {height : Nat} {t t' : Tables H} {d : DepositRow H}

theorem RootAt.inTree {count : Nat} {root : H}
    (tree : t.TreeTables height)
    (rootAt : t.RootAt height d.networkID count root)
    (stored : d ∈ t.deposit) (bound : d.depositCnt ≤ count) :
    d.InTree height root := by
  refine ⟨_, rootAt.2, ?_⟩
  rw [getElem?_take_of_lt (by omega)]
  exact tree.leaf_at stored

variable [DecidableEq H]

theorem TreeTables.rootAt_of_depositCountsByRoot
    (tree : t.TreeTables height)
    (injective : Function.Injective2 (hash : H → H → H))
    (nonzero : ∀ deposit : Deposit H, hashDeposit deposit ≠ hashZero)
    {networkID limit : Nat}
    (fits : (t.leavesOf networkID).length ≤ 2 ^ height) {root : H}
    (answer : t.depositCountsByRoot root networkID = [limit]) :
    t.RootAt height networkID limit root := by
  by_cases found : ∃ count, t.RootAt height networkID count root
  · obtain ⟨count, rootAt⟩ := found
    rw [tree.depositCountsByRoot_eq injective nonzero fits rootAt] at answer
    rw [← head_eq_of_cons_eq answer]
    exact rootAt
  · rw [tree.depositCountsByRoot_nil (not_exists.mp found)] at answer
    contradiction

omit [Externals H] [DecidableEq H] in
private theorem markReady_ok {counts : List Nat}
    {matching : DepositRow H → Bool}
    (marked : Storage.markReady t counts matching = .ok t')
    (stored : d ∈ t'.deposit) :
    d ∈ t.deposit ∨ ∃ old limit, old ∈ t.deposit ∧
      d = { old with readyForClaim := true } ∧ counts = [limit] ∧
      old.depositCnt ≤ limit ∧ matching old = true := by
  rw [Storage.markReady.eq_def] at marked
  split at marked
  · rw [← Except.ok.inj marked] at stored
    exact .inl stored
  · next limit =>
    rw [← Except.ok.inj marked] at stored
    obtain ⟨old, oldIn, same⟩ := mem_setReady.mp stored
    split at same
    · next chosen =>
      simp only [Bool.and_eq_true, decide_eq_true_eq] at chosen
      exact .inr ⟨old, limit, oldIn, same, rfl, chosen.1, chosen.2⟩
    · rw [same]
      exact .inl oldIn
  · contradiction

section

variable (tree : t.TreeTables height)
  (injective : Function.Injective2 (hash : H → H → H))
  (nonzero : ∀ deposit : Deposit H, hashDeposit deposit ≠ hashZero)

include tree injective nonzero

theorem readyL1_marks (fits : (t.leavesOf 0).length ≤ 2 ^ height)
    {exitRoot : H} {networkID : Nat}
    (marked : t.readyL1 exitRoot networkID = .ok t')
    (stored : d ∈ t'.deposit) :
    d ∈ t.deposit ∨ ∃ old, old ∈ t.deposit ∧
      d = { old with readyForClaim := true } ∧ old.networkID = 0 ∧
      old.destNet = networkID ∧ old.InTree height exitRoot := by
  rcases markReady_ok marked stored with old | ⟨old, limit, oldIn, same,
    answer, bound, matching⟩
  · exact .inl old
  · simp only [Bool.and_eq_true, beq_iff_eq] at matching
    have rootAt := tree.rootAt_of_depositCountsByRoot injective nonzero fits
      answer
    rw [← matching.1] at rootAt
    exact .inr ⟨old, oldIn, same, matching.1, matching.2,
      rootAt.inTree tree oldIn bound⟩

theorem readyL2_marks {exitRoot : H} {networkID : Nat} {isDestNetL1 : Bool}
    (fits : (t.leavesOf networkID).length ≤ 2 ^ height)
    (marked : t.readyL2 exitRoot networkID networkID isDestNetL1 = .ok t')
    (stored : d ∈ t'.deposit) :
    d ∈ t.deposit ∨ ∃ old, old ∈ t.deposit ∧
      d = { old with readyForClaim := true } ∧ old.networkID = networkID ∧
      (old.destNet = 0 ↔ isDestNetL1 = true) ∧
      t.InRollupTree height exitRoot old := by
  rw [readyL2.eq_def] at marked
  split at marked
  · rw [← Except.ok.inj marked] at stored
    exact .inl stored
  · next row rows =>
    rcases markReady_ok marked stored with old | ⟨old, limit, oldIn, same,
      answer, bound, matching⟩
    · exact .inl old
    · simp only [Bool.and_eq_true, beq_iff_eq] at matching
      have rootAt := tree.rootAt_of_depositCountsByRoot injective nonzero fits
        answer
      rw [← matching.1] at rootAt
      have found : row ∈ t.rollupExitRows exitRoot networkID := by
        rw [rows]
        exact mem_singleton_self row
      rw [rollupExitRows, mem_filter] at found
      simp only [Bool.and_eq_true, beq_iff_eq] at found
      refine .inr ⟨old, oldIn, same, matching.1, ?_, row, found.1,
        found.2.1, found.2.2.trans matching.1.symm,
        rootAt.inTree tree oldIn bound⟩
      cases isDestNetL1 with
      | true => simpa using matching.2
      | false => simpa using matching.2
  · contradiction

end

end Tables

inductive Marked (height : Nat) (tm : ClaimTxManager)
    (ger : GlobalExitRoot H) (t : Tables H) (d : DepositRow H) : Prop
  | toL1 {rollupExitRoot : H} (l1 : ger.blockID ≠ 0 ∧ ger.networkID = 0)
      (root : ger.exitRoots[1]? = some rollupExitRoot)
      (origin : d.networkID = tm.l2NetworkID) (destination : d.destNet = 0)
      (covered : t.InRollupTree height rollupExitRoot d) :
      Marked height tm ger t d
  | fromL1 {mainnetExitRoot : H}
      (l2 : ¬(ger.blockID ≠ 0 ∧ ger.networkID = 0))
      (root : ger.exitRoots[0]? = some mainnetExitRoot)
      (origin : d.networkID = 0) (destination : d.destNet = tm.l2NetworkID)
      (covered : d.InTree height mainnetExitRoot) :
      Marked height tm ger t d
  | fromL2 {rollupExitRoot : H}
      (l2 : ¬(ger.blockID ≠ 0 ∧ ger.networkID = 0))
      (root : ger.exitRoots[1]? = some rollupExitRoot)
      (origin : d.networkID = tm.l2NetworkID) (destination : d.destNet ≠ 0)
      (covered : t.InRollupTree height rollupExitRoot d) :
      Marked height tm ger t d

theorem StatusUpdated.marks [DecidableEq H] {height : Nat}
    {tm : ClaimTxManager} {ger : GlobalExitRoot H} {t t' : Tables H}
    (tree : t.TreeTables height)
    (injective : Function.Injective2 (hash : H → H → H))
    (nonzero : ∀ deposit : Deposit H, hashDeposit deposit ≠ hashZero)
    (fits : ∀ networkID, (t.leavesOf networkID).length ≤ 2 ^ height)
    (sameID : tm.rollupID = tm.l2NetworkID)
    (updated : StatusUpdated tm ger t t') {d : DepositRow H}
    (stored : d ∈ t'.deposit) :
    d ∈ t.deposit ∨ ∃ old, old ∈ t.deposit ∧
      d = { old with readyForClaim := true } ∧
      Marked height tm ger t old := by
  cases updated with
  | ofL1 l1 root marked =>
    rw [sameID] at marked
    rcases Tables.readyL2_marks tree injective nonzero (fits _) marked
      stored with old | ⟨old, oldIn, same, origin, destination, covered⟩
    · exact .inl old
    · exact .inr ⟨old, oldIn, same,
        .toL1 l1 root origin (destination.mpr rfl) covered⟩
  | @ofL2 mainnetExitRoot rollupExitRoot middle _ l2 root marked root'
      marked' =>
      rw [sameID] at marked'
      have same : t.SameTrees middle ∧ middle.rollupExit = t.rollupExit := by
        let holds : Tables H → Prop := fun other =>
          t.SameTrees other ∧ other.rollupExit = t.rollupExit
        have closed : ∀ other matching, holds other →
            holds (other.setReady true matching) := by
          rintro other matching ⟨trees, rollupExit⟩
          exact ⟨⟨(Tables.entries_setReady _ _ _).trans trees.entries,
            trees.root, trees.rht⟩, rollupExit⟩
        exact markReady_preserves closed ⟨⟨rfl, rfl, rfl⟩, rfl⟩ marked
      obtain ⟨trees, rollupExit⟩ := same
      have tree' := tree.congr trees.entries trees.root trees.rht
      have fits' : (middle.leavesOf tm.l2NetworkID).length ≤ 2 ^ height := by
        rw [Tables.leavesOf_congr trees.entries]
        exact fits _
      have first : ∀ {row : DepositRow H}, row ∈ middle.deposit →
          row ∈ t.deposit ∨ ∃ old, old ∈ t.deposit ∧
            row = { old with readyForClaim := true } ∧
            Marked height tm ger t old := by
        intro row inside
        rcases Tables.readyL1_marks tree injective nonzero (fits 0) marked
          inside with old | ⟨old, oldIn, same, origin, destination, covered⟩
        · exact .inl old
        · exact .inr ⟨old, oldIn, same,
            .fromL1 l2 root origin destination covered⟩
      rcases Tables.readyL2_marks tree' injective nonzero fits' marked'
        stored with old | ⟨row, rowIn, same, origin, destination, covered⟩
      · exact first old
      · have covered : t.InRollupTree height rollupExitRoot row := by
          rw [Tables.InRollupTree, ← rollupExit]
          exact covered
        have notL1 : row.destNet ≠ 0 := by
          intro l1
          exact Bool.false_ne_true (destination.mp l1)
        rcases first rowIn with old | ⟨old, oldIn, rowSame, marked⟩
        · exact .inr ⟨row, old, same, .fromL2 l2 root' origin notL1 covered⟩
        · rw [rowSame] at same
          exact .inr ⟨old, oldIn, same, marked⟩

end BridgeService
