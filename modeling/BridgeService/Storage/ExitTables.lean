import BridgeService.Bridgectrl.Insert
import BridgeService.Lib.Ledger
import BridgeService.Storage.Tables

/-!
# The deposit table and the tables of the exit trees

The deposits form a ledger with one lane for each network.  The tables
`mt.root` and `mt.rht` hold nothing of their own: a deposit owns one root, the
root of its network up to the deposit, and the nodes on the path of its leaf.
Under this invariant the queries that read the trees back answer for the leaf
list of the network.
-/

namespace BridgeService

open PaddedTree Ledger List

variable {H : Type} [Externals H]

def DepositRow.leaf (row : DepositRow H) : H :=
  hashDeposit (row.toDeposit 0)

namespace Tables

def depositEntry (row : DepositRow H) : Entry H :=
  { id := row.id
    lane := row.networkID
    position := row.depositCnt
    value := row.leaf }

def entries (t : Tables H) : List (Entry H) :=
  t.deposit.map depositEntry

def leavesOf (t : Tables H) (networkID : Nat) : List H :=
  values networkID t.entries

def rootRows (height : Nat) (entry : Entry H) (past : List H) :
    List (RootRow H) :=
  [{ root := treeRoot height past
     depositID := entry.id
     network := entry.lane }]

def nodeRow (depositID : Nat) (node : H × H × H) : RhtRow H :=
  { key := node.1
    value := node.2
    depositID := depositID }

def nodeRows (height : Nat) (entry : Entry H) (past : List H) :
    List (RhtRow H) :=
  (List.range height).map fun level =>
    nodeRow entry.id (MerkleTree.pathNode past entry.position level)

/-- The tree tables are derived from the deposit table. -/
structure TreeTables (height : Nat) (t : Tables H) : Prop where
  ledger : WellFormed t.entries
  root_eq : t.root = derived (rootRows height) t.entries
  rht_eq : t.rht = derived (nodeRows height) t.entries

theorem treeTables_empty (height : Nat) :
    TreeTables height (Tables.empty : Tables H) where
  ledger := wellFormed_nil
  root_eq := rfl
  rht_eq := rfl

theorem TreeTables.congr {height : Nat} {t t' : Tables H}
    (tree : TreeTables height t) (entries_eq : t'.entries = t.entries)
    (root_eq : t'.root = t.root) (rht_eq : t'.rht = t.rht) :
    TreeTables height t' where
  ledger := entries_eq ▸ tree.ledger
  root_eq := by rw [root_eq, entries_eq, tree.root_eq]
  rht_eq := by rw [rht_eq, entries_eq, tree.rht_eq]

/-- Tables with the same deposits, up to their status, and the same trees. -/
structure SameTrees (t t' : Tables H) : Prop where
  entries : t'.entries = t.entries
  root : t'.root = t.root
  rht : t'.rht = t.rht

theorem leavesOf_congr {t t' : Tables H} (entries_eq : t'.entries = t.entries)
    (networkID : Nat) : t'.leavesOf networkID = t.leavesOf networkID := by
  rw [leavesOf, leavesOf, entries_eq]

theorem mem_entries {t : Tables H} {entry : Entry H} :
    entry ∈ t.entries ↔ ∃ row, row ∈ t.deposit ∧ depositEntry row = entry := by
  simp [entries]

theorem leavesOf_eq_map (t : Tables H) (networkID : Nat) :
    t.leavesOf networkID =
      (t.depositsOf networkID).map DepositRow.leaf := by
  rw [leavesOf, values, lane, entries, filter_map, map_map]
  rfl

theorem length_leavesOf (t : Tables H) (networkID : Nat) :
    (t.leavesOf networkID).length = (t.depositsOf networkID).length := by
  rw [leavesOf_eq_map, length_map]

theorem TreeTables.counts_eq {height : Nat} {t : Tables H}
    (tree : t.TreeTables height) (networkID : Nat) :
    (t.depositsOf networkID).map DepositRow.depositCnt =
      List.range (t.depositsOf networkID).length := by
  have positions := tree.ledger.consecutive networkID
  rw [lane, entries, filter_map, map_map, length_map]
    at positions
  exact positions

section Changes

variable {height : Nat} {t : Tables H}

theorem entries_setReady (t : Tables H) (ready : Bool)
    (matching : DepositRow H → Bool) :
    (t.setReady ready matching).entries = t.entries := by
  rw [entries, setReady, map_map]
  apply map_congr_left
  intro row _
  rw [Function.comp_apply]
  split <;> rfl

def pushDeposit (t : Tables H) (height : Nat) (row : DepositRow H) :
    Tables H :=
  let past := t.leavesOf row.networkID ++ [row.leaf]
  { t with
    deposit := t.deposit ++ [row]
    root := t.root ++ rootRows height (depositEntry row) past
    rht := t.rht ++ nodeRows height (depositEntry row) past }

theorem entries_pushDeposit (t : Tables H) (height : Nat)
    (row : DepositRow H) :
    (t.pushDeposit height row).entries = t.entries ++ [depositEntry row] := by
  simp [entries, pushDeposit]

theorem leavesOf_pushDeposit (t : Tables H) (height : Nat)
    (row : DepositRow H) (networkID : Nat) :
    (t.pushDeposit height row).leavesOf networkID = t.leavesOf networkID ++
        if row.networkID = networkID then [row.leaf] else [] := by
  rw [leavesOf, entries_pushDeposit, values_push]
  rfl

theorem TreeTables.pushDeposit (tree : TreeTables height t)
    {row : DepositRow H}
    (fresh : ∀ old, old ∈ t.deposit → old.id < row.id)
    (next : row.depositCnt = (t.leavesOf row.networkID).length) :
    TreeTables height (t.pushDeposit height row) where
  ledger := by
    rw [entries_pushDeposit]
    apply tree.ledger.push
    · intro old mem
      obtain ⟨oldRow, oldIn, same⟩ := mem_entries.mp mem
      rw [← same]
      exact fresh oldRow oldIn
    · exact next
  root_eq := by
    rw [entries_pushDeposit, derived_push tree.ledger _ next, ← tree.root_eq]
    rfl
  rht_eq := by
    rw [entries_pushDeposit, derived_push tree.ledger _ next, ← tree.rht_eq]
    rfl

structure CutsAt (t : Tables H) (networkID limit : Nat)
    (gone : DepositRow H → Bool) : Prop where
  gone_iff : ∀ row, row ∈ t.deposit →
    (gone row = true ↔ limit ≤ row.depositCnt ∧ row.networkID = networkID)

variable {networkID limit : Nat} {gone : DepositRow H → Bool}

theorem entries_deleteDeposits (cuts : CutsAt t networkID limit gone) :
    (t.deleteDeposits gone).entries = cut networkID limit t.entries := by
  rw [entries, entries, cut, filter_map]
  congr 1
  apply filter_congr
  intro row mem
  have decided := cuts.gone_iff row mem
  rw [Bool.eq_iff_iff, Bool.not_eq_true', ← Bool.not_eq_true, decided,
    Function.comp_apply, decide_eq_true_eq]
  exact Iff.rfl

theorem TreeTables.deleteDeposits (tree : TreeTables height t)
    (cuts : CutsAt t networkID limit gone) :
    TreeTables height (t.deleteDeposits gone) := by
  have removed_iff : ∀ entry, entry ∈ t.entries →
      (entry.id ∈ (t.deposit.filter gone).map DepositRow.id ↔
        limit ≤ entry.position ∧ entry.lane = networkID) := by
    intro entry mem
    obtain ⟨row, rowIn, same⟩ := mem_entries.mp mem
    subst same
    constructor
    · intro removed
      obtain ⟨other, otherIn, sameId⟩ := mem_map.mp removed
      obtain ⟨otherStored, otherGone⟩ := mem_filter.mp otherIn
      have sameEntry : depositEntry other = depositEntry row :=
        tree.ledger.eq_of_id
          (mem_entries.mpr ⟨other, otherStored, rfl⟩) mem sameId
      rw [← sameEntry]
      exact (cuts.gone_iff other otherStored).mp otherGone
    · intro beyond
      exact mem_map.mpr ⟨row, mem_filter.mpr
        ⟨rowIn, (cuts.gone_iff row rowIn).mpr beyond⟩, rfl⟩
  constructor
  · rw [entries_deleteDeposits cuts]
    exact tree.ledger.cut networkID limit
  · rw [entries_deleteDeposits cuts, ← derived_cut tree.ledger networkID limit
      (rootRows height) RootRow.depositID _ _ removed_iff, ← tree.root_eq]
    · rfl
    · intro entry past row mem
      simp only [rootRows, mem_singleton] at mem
      rw [mem]
  · rw [entries_deleteDeposits cuts, ← derived_cut tree.ledger networkID limit
      (nodeRows height) RhtRow.depositID _ _ removed_iff, ← tree.rht_eq]
    · rfl
    · intro entry past row mem
      obtain ⟨level, _, same⟩ := mem_map.mp mem
      rw [← same]
      rfl

theorem leavesOf_deleteDeposits_same (tree : TreeTables height t)
    (cuts : CutsAt t networkID limit gone) :
    (t.deleteDeposits gone).leavesOf networkID =
      (t.leavesOf networkID).take limit := by
  rw [leavesOf, entries_deleteDeposits cuts, values_cut_same tree.ledger,
    leavesOf]

theorem leavesOf_deleteDeposits_other {other : Nat}
    (cuts : CutsAt t networkID limit gone) (different : other ≠ networkID) :
    (t.deleteDeposits gone).leavesOf other = t.leavesOf other := by
  rw [leavesOf, entries_deleteDeposits cuts, values_cut_other different,
    leavesOf]

omit [Externals H] in
theorem cutsAt_resetDeposits (t : Tables H) (limit networkID : Nat) :
    CutsAt t networkID limit fun row =>
      limit ≤ row.depositCnt && row.networkID == networkID where
  gone_iff := by
    intro row _
    simp

end Changes

section Queries

variable {height : Nat} {t : Tables H}

variable {row : DepositRow H} {index network level : Nat}

theorem TreeTables.leaf_at (tree : TreeTables height t)
    (stored : row ∈ t.deposit) :
    (t.leavesOf row.networkID)[row.depositCnt]? = some row.leaf :=
  tree.ledger.value_at (mem_entries.mpr ⟨row, stored, rfl⟩)

theorem TreeTables.count_lt (tree : TreeTables height t)
    (stored : row ∈ t.deposit) :
    row.depositCnt < (t.leavesOf row.networkID).length :=
  tree.ledger.position_lt (mem_entries.mpr ⟨row, stored, rfl⟩)

theorem TreeTables.exists_deposit (tree : TreeTables height t)
    {networkID : Nat} (inside : index < (t.leavesOf networkID).length) :
    ∃ row, row ∈ t.deposit ∧ row.networkID = networkID ∧
      row.depositCnt = index := by
  obtain ⟨entry, mem, sameLane, samePosition⟩ :=
    tree.ledger.exists_entry inside
  obtain ⟨row, stored, same⟩ := mem_entries.mp mem
  subst same
  exact ⟨row, stored, sameLane, samePosition⟩

def rootRow (height : Nat) (t : Tables H) (entry : Entry H) : RootRow H :=
  { root := treeRoot height (history t.entries entry)
    depositID := entry.id
    network := entry.lane }

section

variable (tree : TreeTables height t)

include tree

theorem TreeTables.root_eq_map :
    t.root = t.entries.map (rootRow height t) := by
  rw [tree.root_eq]
  exact flatMap_pure_eq_map _ _

theorem TreeTables.roots_of_network (networkID : Nat) :
    (t.root.filter fun root => root.network == networkID) =
      (t.depositsOf networkID).map fun row =>
        { root := treeRoot height
            (((t.depositsOf networkID).take (row.depositCnt + 1)).map
              DepositRow.leaf)
          depositID := row.id
          network := networkID } := by
  rw [tree.root_eq_map, filter_map, entries, filter_map,
    map_map, depositsOf]
  apply map_congr_left
  intro row stored
  have onNetwork : row.networkID = networkID :=
    beq_iff_eq.mp (mem_filter.mp stored).2
  subst onNetwork
  simp only [Function.comp_apply, rootRow, history]
  rw [map_take]
  change RootRow.mk (treeRoot height ((t.leavesOf row.networkID).take
    (row.depositCnt + 1))) row.id row.networkID = _
  rw [leavesOf_eq_map]
  rfl

theorem TreeTables.mem_root {row : RootRow H} :
    row ∈ t.root ↔ ∃ entry, entry ∈ t.entries ∧ row =
        { root := treeRoot height (history t.entries entry)
          depositID := entry.id
          network := entry.lane } := by
  rw [tree.root_eq_map, mem_map]
  constructor
  · rintro ⟨entry, mem, rfl⟩
    exact ⟨entry, mem, rfl⟩
  · rintro ⟨entry, mem, rfl⟩
    exact ⟨entry, mem, rfl⟩

theorem TreeTables.root_of_deposit (stored : row ∈ t.deposit)
    {root : RootRow H} (rootStored : root ∈ t.root)
    (owner : row.id = root.depositID) :
    root.network = row.networkID ∧ root.root = treeRoot height
        ((t.leavesOf row.networkID).take (row.depositCnt + 1)) := by
  obtain ⟨entry, mem, rfl⟩ := tree.mem_root.mp rootStored
  have same : depositEntry row = entry :=
    tree.ledger.eq_of_id (mem_entries.mpr ⟨row, stored, rfl⟩) mem owner
  subst same
  exact ⟨rfl, rfl⟩

theorem TreeTables.roots_of_deposit (stored : row ∈ t.deposit) :
    (t.root.filter fun root => root.depositID == row.id) =
      [{ root := treeRoot height
           ((t.leavesOf row.networkID).take (row.depositCnt + 1))
         depositID := row.id
         network := row.networkID }] := by
  have only := tree.ledger.filter_eq_singleton
    (mem_entries.mpr ⟨row, stored, rfl⟩)
  rw [tree.root_eq_map, filter_map]
  change ((t.entries.filter fun entry => entry.id == row.id).map _) = _
  rw [show row.id = (depositEntry row).id from rfl, only]
  rfl

theorem TreeTables.mem_rht {row : RhtRow H} :
    row ∈ t.rht ↔ ∃ entry, entry ∈ t.entries ∧ ∃ level, level < height ∧
      row = nodeRow entry.id (MerkleTree.pathNode
        (history t.entries entry) entry.position level) := by
  rw [tree.rht_eq, derived, mem_flatMap]
  simp [nodeRows, eq_comm]

theorem TreeTables.root_selected {entry : Entry H}
    (mem : entry ∈ t.entries) (depositCnt network : Nat) :
    (entry.lane == network && t.deposit.any fun deposit =>
      deposit.id == entry.id && deposit.depositCnt == depositCnt) = true ↔
      entry.lane = network ∧ entry.position = depositCnt := by
  rw [Bool.and_eq_true, beq_iff_eq, any_eq_true]
  constructor
  · rintro ⟨sameLane, row, rowIn, matching⟩
    rw [Bool.and_eq_true, beq_iff_eq, beq_iff_eq] at matching
    have sameEntry : depositEntry row = entry :=
      tree.ledger.eq_of_id (mem_entries.mpr ⟨row, rowIn, rfl⟩) mem
        matching.1
    refine ⟨sameLane, ?_⟩
    rw [← sameEntry]
    exact matching.2
  · rintro ⟨sameLane, samePosition⟩
    obtain ⟨row, rowIn, sameEntry⟩ := mem_entries.mp mem
    refine ⟨sameLane, row, rowIn, ?_⟩
    rw [← sameEntry] at samePosition ⊢
    simp [depositEntry] at samePosition ⊢
    exact samePosition

theorem TreeTables.getRoot_eq {depositCnt : Nat}
    (inside : depositCnt < (t.leavesOf network).length) :
    t.getRoot depositCnt network =
      .ok (treeRoot height ((t.leavesOf network).take (depositCnt + 1))) := by
  obtain ⟨entry, mem, sameLane, samePosition⟩ :=
    tree.ledger.exists_entry inside
  cases search : t.root.find? (fun row =>
      row.network == network && t.deposit.any fun deposit =>
        deposit.id == row.depositID && deposit.depositCnt == depositCnt) with
  | none =>
    have rejected := find?_eq_none.mp search _
      (tree.mem_root.mpr ⟨entry, mem, rfl⟩)
    exact (rejected ((tree.root_selected mem depositCnt network).mpr
      ⟨sameLane, samePosition⟩)).elim
  | some row =>
    obtain ⟨found, foundIn, rowEq⟩ :=
      tree.mem_root.mp (mem_of_find?_eq_some search)
    have selected := find?_some search
    rw [rowEq] at selected
    have foundAt := (tree.root_selected foundIn depositCnt network).mp selected
    have sameEntry : found = entry :=
      tree.ledger.eq_of_position foundIn mem
        (foundAt.1.trans sameLane.symm) (foundAt.2.trans samePosition.symm)
    simp only [getRoot, search, rowEq, sameEntry, history, sameLane,
      samePosition]
    rfl

theorem TreeTables.getLastComputedRoot_eq
    (some : 0 < (t.leavesOf network).length) :
    t.getLastComputedRoot network =
      .ok (treeRoot height (t.leavesOf network)) := by
  obtain ⟨entry, mem, sameLane, samePosition⟩ :=
    tree.ledger.exists_entry (show (t.leavesOf network).length - 1 <
      (values network t.entries).length from Nat.sub_lt some Nat.one_pos)
  have rows : (t.root.filter fun row => row.network == network) =
      (lane network t.entries).map (rootRow height t) := by
    rw [tree.root_eq_map, filter_map]
    rfl
  have distinct : (((lane network t.entries).map (rootRow height t)).map
      RootRow.depositID).Nodup := by
    rw [map_map]
    exact tree.ledger.ids_nodup.sublist (filter_sublist.map _)
  have largest : ∀ other,
      other ∈ (lane network t.entries).map (rootRow height t) →
        other.depositID ≤ (rootRow height t entry).depositID := by
    intro other inRows
    obtain ⟨found, inLane, rfl⟩ := mem_map.mp inRows
    obtain ⟨foundIn, foundLane⟩ := mem_lane.mp inLane
    apply (tree.ledger.id_le_iff foundIn mem
      (foundLane.trans sameLane.symm)).mpr
    have bound := tree.ledger.position_lt foundIn
    rw [foundLane] at bound
    rw [samePosition]
    exact Nat.le_sub_one_of_lt bound
  have first := Rows.reverse_orderBy_eq_cons distinct
    (mem_map.mpr ⟨entry, mem_lane.mpr ⟨mem, sameLane⟩, rfl⟩)
    largest
  have whole : history t.entries entry = t.leavesOf network := by
    rw [history, samePosition, Nat.sub_add_cancel some, sameLane]
    exact take_length
  rw [getLastComputedRoot, rows, first]
  exact congrArg (fun leaves => Except.ok (treeRoot height leaves)) whole

theorem TreeTables.getRoot_notFound {depositCnt : Nat}
    (outside : (t.leavesOf network).length ≤ depositCnt) :
    t.getRoot depositCnt network = .error .storageNotFound := by
  have search : t.root.find? (fun row =>
      row.network == network && t.deposit.any fun deposit =>
        deposit.id == row.depositID && deposit.depositCnt == depositCnt) =
      none := by
    rw [find?_eq_none]
    intro row rowIn selected
    obtain ⟨found, foundIn, rowEq⟩ := tree.mem_root.mp rowIn
    rw [rowEq] at selected
    obtain ⟨sameLane, samePosition⟩ :=
      (tree.root_selected foundIn depositCnt network).mp selected
    have bound := tree.ledger.position_lt foundIn
    rw [sameLane, samePosition] at bound
    exact absurd bound (Nat.not_lt.mpr outside)
  simp only [getRoot, search]

theorem TreeTables.hash_value {row : RhtRow H} (stored : row ∈ t.rht) :
    hash row.value.1 row.value.2 = row.key := by
  obtain ⟨entry, _, level, _, rowEq⟩ := tree.mem_rht.mp stored
  rw [rowEq]
  exact (treeNode_succ _ _ _).symm

theorem TreeTables.hash_get [DecidableEq H] {key : H} {value : H × H}
    (read : t.get key = .ok value) : hash value.1 value.2 = key := by
  rw [get] at read
  cases search : t.rht.find? (fun row => row.key == key) with
  | none =>
    simp [search] at read
  | some row =>
    rw [search] at read
    have same : row.key = key := by simpa using find?_some search
    rw [← Except.ok.inj read,
      tree.hash_value (mem_of_find?_eq_some search), same]

end

theorem treeNode_take_congr (leaves : List H) {first second position : Nat}
    (agree : ∀ index, index / 2 ^ level = position →
      (index < first ↔ index < second)) :
    treeNode (leaves.take first) level position =
      treeNode (leaves.take second) level position := by
  apply node_congr
  intro index below
  simp only [padded_take, agree index below]

theorem TreeTables.ancestor_stored (tree : TreeTables height t) {last : Nat}
    (inside : last < (t.leavesOf network).length) (older : index ≤ last)
    (below : level < height) :
    ∃ row, row ∈ t.rht ∧ (row.key, row.value) = MerkleTree.pathNode
        ((t.leavesOf network).take (last + 1)) index level := by
  have positive := Nat.two_pow_pos (level + 1)
  have reach := Nat.lt_mul_div_succ index positive
  rw [Nat.mul_comm] at reach
  have owner : ∃ writer, index ≤ writer ∧ writer ≤ last ∧
      writer / 2 ^ (level + 1) = index / 2 ^ (level + 1) ∧
      ∀ other, other / 2 ^ (level + 1) = index / 2 ^ (level + 1) →
        (other < writer + 1 ↔ other < last + 1) := by
    refine ⟨min last ((index / 2 ^ (level + 1) + 1) * 2 ^ (level + 1) - 1),
      by omega, by omega, ?_, ?_⟩
    · apply Nat.le_antisymm
      · apply Nat.le_of_lt_succ
        apply (Nat.div_lt_iff_lt_mul positive).mpr
        rw [Nat.succ_eq_add_one]
        omega
      · exact Nat.div_le_div_right (by omega)
    · intro other same
      have otherReach := Nat.lt_mul_div_succ other positive
      rw [same, Nat.mul_comm] at otherReach
      omega
  obtain ⟨writer, _, writerOld, samePosition, agree⟩ := owner
  obtain ⟨entry, mem, sameLane, entryAt⟩ :=
    tree.ledger.exists_entry
      (show writer < (values network t.entries).length from
        Nat.lt_of_le_of_lt writerOld inside)
  refine ⟨_, tree.mem_rht.mpr ⟨entry, mem, level, below, rfl⟩, ?_⟩
  have past : history t.entries entry =
      (t.leavesOf network).take (writer + 1) := by
    rw [history, sameLane, entryAt]
    rfl
  rw [past, entryAt]
  change MerkleTree.pathNode ((t.leavesOf network).take (writer + 1)) writer
    level = _
  have child : ∀ position, position / 2 = index / 2 ^ (level + 1) →
      treeNode ((t.leavesOf network).take (writer + 1)) level position =
        treeNode ((t.leavesOf network).take (last + 1)) level position := by
    intro position parent
    apply treeNode_take_congr
    intro other below
    apply agree
    rw [div_two_pow_succ, below, parent]
  rw [MerkleTree.pathNode, MerkleTree.pathNode, samePosition,
    treeNode_take_congr (t.leavesOf network) agree,
    child (2 * (index / 2 ^ (level + 1))) (by omega),
    child (2 * (index / 2 ^ (level + 1)) + 1) (by omega)]

theorem root_take_injective
    (injective : Function.Injective2 (hash : H → H → H)) {leaves : List H}
    (nonzero : ∀ leaf, leaf ∈ leaves → leaf ≠ hashZero)
    (fits : leaves.length ≤ 2 ^ height) {first second : Nat}
    (firstInside : first < leaves.length)
    (secondInside : second < leaves.length)
    (same : treeRoot height (leaves.take (first + 1)) =
      treeRoot height (leaves.take (second + 1))) : first = second := by
  have full : ∀ count leaf, leaf ∈ leaves.take count → leaf ≠ hashZero :=
    fun _ leaf inside => nonzero leaf (mem_of_mem_take inside)
  have lengths := congrArg List.length (eq_of_root_eq injective
    (full (first + 1)) (full (second + 1)) (by simp; omega) (by simp; omega)
    same)
  simp only [length_take] at lengths
  omega

variable [DecidableEq H]

theorem TreeTables.get_eq (tree : TreeTables height t)
    (injective : Function.Injective2 (hash : H → H → H)) {last : Nat}
    (inside : last < (t.leavesOf network).length) (older : index ≤ last)
    (below : level < height) :
    t.get (treeNode ((t.leavesOf network).take (last + 1)) (level + 1)
        (index / 2 ^ (level + 1))) =
      .ok (MerkleTree.pathNode ((t.leavesOf network).take (last + 1)) index
        level).2 := by
  obtain ⟨row, stored, same⟩ := tree.ancestor_stored inside older below
  have keyEq : row.key =
      treeNode ((t.leavesOf network).take (last + 1)) (level + 1)
        (index / 2 ^ (level + 1)) := congrArg Prod.fst same
  rw [← keyEq, ← congrArg Prod.snd same]
  cases search : t.rht.find? (fun other => other.key == row.key) with
  | none =>
    have rejected := find?_eq_none.mp search row stored
    simp at rejected
  | some other =>
    have otherKey : other.key = row.key := by
      simpa using find?_some search
    have hashes : hash other.value.1 other.value.2 =
        hash row.value.1 row.value.2 := by
      rw [tree.hash_value (mem_of_find?_eq_some search),
        tree.hash_value stored, otherKey]
    have values : other.value = row.value :=
      Prod.ext (injective hashes).1 (injective hashes).2
    simp only [get, search, values]

omit [DecidableEq H] in
theorem TreeTables.getLastDepositCount_empty (tree : TreeTables height t)
    (empty : t.leavesOf network = []) :
    t.getLastDepositCount network = .error .storageNotFound := by
  have none : t.root.filter (fun row => row.network == network) = [] := by
    rw [filter_eq_nil_iff]
    intro row rowIn
    obtain ⟨entry, mem, rowEq⟩ := tree.mem_root.mp rowIn
    have inside := tree.ledger.position_lt mem
    intro onNetwork
    have sameLane : entry.lane = network := by
      simpa [rowEq] using onNetwork
    rw [sameLane] at inside
    change entry.position < (t.leavesOf network).length at inside
    rw [empty] at inside
    simp at inside
  simp only [getLastDepositCount, none]
  rfl

omit [DecidableEq H] in
theorem TreeTables.getLastDepositCount_eq (tree : TreeTables height t)
    (nonempty : t.leavesOf network ≠ []) :
    t.getLastDepositCount network =
      .ok ((t.leavesOf network).length - 1) := by
  have positive : 0 < (t.leavesOf network).length :=
    length_pos_iff.mpr nonempty
  obtain ⟨first, firstIn, firstLane, _⟩ := tree.ledger.exists_entry positive
  cases largest : ((t.root.filter fun row => row.network == network).map
      RootRow.depositID).max? with
  | none =>
    rw [max?_eq_none_iff, map_eq_nil_iff,
      filter_eq_nil_iff] at largest
    have rejected := largest _ (tree.mem_root.mpr ⟨first, firstIn, rfl⟩)
    simp [firstLane] at rejected
  | some id =>
    obtain ⟨idIn, bound⟩ := max?_eq_some_iff.mp largest
    obtain ⟨row, rowIn, rowId⟩ := mem_map.mp idIn
    obtain ⟨stored, onNetwork⟩ := mem_filter.mp rowIn
    obtain ⟨entry, mem, rowEq⟩ := tree.mem_root.mp stored
    have sameLane : entry.lane = network := by
      simpa [rowEq] using onNetwork
    have entryId : entry.id = id := by simpa [rowEq] using rowId
    have last := tree.ledger.position_of_largest mem (by
      intro other otherIn otherLane
      rw [entryId]
      apply bound
      apply mem_map.mpr
      refine ⟨_, mem_filter.mpr
        ⟨tree.mem_root.mpr ⟨other, otherIn, rfl⟩, ?_⟩, rfl⟩
      simp [otherLane, sameLane])
    have count : ((t.deposit.filter fun row => row.id == id).map
        DepositRow.depositCnt).max? = some entry.position := by
      obtain ⟨deposit, depositIn, depositEq⟩ := mem_entries.mp mem
      apply max?_eq_some_iff.mpr
      constructor
      · apply mem_map.mpr
        refine ⟨deposit, mem_filter.mpr ⟨depositIn, ?_⟩, ?_⟩
        · rw [beq_iff_eq, ← entryId, ← depositEq]
          rfl
        · rw [← depositEq]
          rfl
      · intro other otherIn
        obtain ⟨otherRow, rowKept, rowCount⟩ := mem_map.mp otherIn
        obtain ⟨rowStored, rowMatches⟩ := mem_filter.mp rowKept
        have sameEntry : depositEntry otherRow = entry :=
          tree.ledger.eq_of_id (mem_entries.mpr ⟨otherRow, rowStored, rfl⟩)
            mem ((beq_iff_eq.mp rowMatches).trans entryId.symm)
        rw [← rowCount, ← sameEntry]
        exact le_rfl
    rw [sameLane] at last
    change entry.position + 1 = (t.leavesOf network).length at last
    simp only [getLastDepositCount, largest, count, ← last, Nat.add_sub_cancel]

end Queries

end Tables

end BridgeService
