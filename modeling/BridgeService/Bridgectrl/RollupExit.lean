import BridgeService.Bridgectrl.BuildRoot
import BridgeService.Storage.Tables

/-!
# Versions of the rollup exit tree

The table `mt.rollup_exit` holds whole versions of the rollup exit tree: the
leaves of one version are consecutive rows with one root and one block.  A new
leaf is put in its place in the latest version, and the result is stored as a
new version unless its root is already there.
-/

namespace BridgeService

open PaddedTree List

variable {H : Type}

section Leaves

variable [Externals H]

/-- Put a leaf in the place of its rollup, after empty leaves for the rollups
before it. -/
def putLeaf (rollupId : Nat) (leaf : H) (leaves : List H) : List H :=
  (leaves ++ List.replicate (rollupId - leaves.length) hashZero).set
    (rollupId - 1) leaf

/-- The last rollup of the tree has a leaf. -/
def Complete (leaves : List H) : Prop :=
  ∃ leaf, leaves.getLast? = some leaf ∧ leaf ≠ hashZero

variable {rollupId : Nat} {leaf : H} {leaves : List H}

theorem length_putLeaf :
    (putLeaf rollupId leaf leaves).length = max leaves.length rollupId := by
  simp only [putLeaf, length_set, length_append,
    length_replicate]
  omega

theorem getElem?_putLeaf (positive : 0 < rollupId) (index : Nat) :
    (putLeaf rollupId leaf leaves)[index]? =
      if index + 1 = rollupId then some leaf
      else if index < leaves.length then leaves[index]?
      else if index < rollupId then some hashZero
      else none := by
  rw [putLeaf, getElem?_set]
  by_cases here : index + 1 = rollupId
  · rw [if_pos (by omega), if_pos (by simp; omega), if_pos here]
  · rw [if_neg (by omega), if_neg here]
    by_cases old : index < leaves.length
    · rw [if_pos old, getElem?_append_left old]
    · rw [if_neg old, getElem?_append_right (by omega),
        getElem?_replicate]
      by_cases inside : index < rollupId
      · rw [if_pos inside, if_pos (by omega)]
      · rw [if_neg inside, if_neg (by omega)]

theorem complete_putLeaf (positive : 0 < rollupId) (nonzero : leaf ≠ hashZero)
    (complete : leaves = [] ∨ Complete leaves) :
    Complete (putLeaf rollupId leaf leaves) := by
  rw [Complete, getLast?_eq_getElem?, length_putLeaf,
    getElem?_putLeaf positive]
  by_cases last : leaves.length ≤ rollupId
  · rw [if_pos (by omega)]
    exact ⟨leaf, rfl, nonzero⟩
  · rw [if_neg (by omega), if_pos (by omega)]
    rcases complete with empty | ⟨old, found, oldNonzero⟩
    · simp [empty] at last
    · rw [getLast?_eq_getElem?] at found
      refine ⟨old, ?_, oldNonzero⟩
      rw [← found]
      congr 1
      omega

theorem Complete.ne_nil (complete : Complete leaves) : leaves ≠ [] := by
  obtain ⟨leaf, found, _⟩ := complete
  intro empty
  simp [empty] at found

theorem Complete.eq_of_root_eq {height : Nat}
    (injective : Function.Injective2 (hash : H → H → H))
    {first second : List H} (firstComplete : Complete first)
    (secondComplete : Complete second)
    (firstFits : first.length ≤ 2 ^ height)
    (secondFits : second.length ≤ 2 ^ height)
    (same : treeRoot height first = treeRoot height second) :
    first = second := by
  have agree := padded_eq_of_root_eq injective same
  have bound : ∀ {shorter longer : List H}, Complete longer →
      longer.length ≤ 2 ^ height →
      (∀ index, index < 2 ^ height →
        padded hashZero shorter index = padded hashZero longer index) →
      longer.length ≤ shorter.length := by
    intro shorter longer complete fits equal
    obtain ⟨last, found, nonzero⟩ := complete
    rw [getLast?_eq_getElem?] at found
    obtain ⟨inside, here⟩ := List.getElem?_eq_some_iff.mp found
    by_contra less
    have lastEq := equal (longer.length - 1) (by omega)
    rw [padded_of_length_le (by omega), padded_of_lt inside, here] at lastEq
    exact nonzero lastEq.symm
  have length : first.length = second.length :=
    Nat.le_antisymm
      (bound firstComplete firstFits fun index inside =>
        (agree index inside).symm)
      (bound secondComplete secondFits agree)
  apply ext_getElem length
  intro index firstInside secondInside
  have leafEq := agree index (by omega)
  rw [padded_of_lt firstInside, padded_of_lt secondInside] at leafEq
  exact leafEq

end Leaves

section Rows

def nextRollupLeaves [Externals H] (rollupLeaf : RollupExitLeaf H)
    (stored : List (RollupExitLeaf H)) : List H :=
  ((stored ++ MerkleTree.emptyRollupLeaves rollupLeaf stored.length).set
    (rollupLeaf.rollupId - 1) rollupLeaf).map RollupExitLeaf.leaf

def snapshotRows (first : Nat) (root : H) (blockID : Nat)
    (leaves : List H) : List (RollupExitLeaf H) :=
  leaves.zipIdx.map fun (leaf, i) =>
    { id := first + i + 1
      blockID := blockID
      leaf := leaf
      rollupId := i + 1
      root := root }

theorem mem_snapshotRows {first : Nat} {root : H} {blockID : Nat}
    {leaves : List H} {row : RollupExitLeaf H} :
    row ∈ snapshotRows first root blockID leaves ↔
      ∃ i leaf, leaves[i]? = some leaf ∧ row =
          { id := first + i + 1
            blockID := blockID
            leaf := leaf
            rollupId := i + 1
            root := root } := by
  simp only [snapshotRows, mem_map, Prod.exists]
  constructor
  · rintro ⟨leaf, i, inside, rfl⟩
    refine ⟨i, leaf, ?_, rfl⟩
    simpa using mem_zipIdx_iff_getElem?.mp inside
  · rintro ⟨i, leaf, found, rfl⟩
    exact ⟨leaf, i, mem_zipIdx_iff_getElem?.mpr found, rfl⟩

theorem nextRollupLeaves_eq [Externals H] (rollupLeaf : RollupExitLeaf H)
    (stored : List (RollupExitLeaf H)) :
    nextRollupLeaves rollupLeaf stored =
      putLeaf rollupLeaf.rollupId rollupLeaf.leaf
        (stored.map RollupExitLeaf.leaf) := by
  rw [nextRollupLeaves, putLeaf, map_set, map_append,
    MerkleTree.emptyRollupLeaves, map_map, length_map]
  congr 2
  apply ext_getElem
  · simp
  · intro index _ _
    simp

variable {first : Nat} {root : H} {blockID : Nat} {leaves : List H}

theorem snapshotRows_leaves :
    (snapshotRows first root blockID leaves).map RollupExitLeaf.leaf =
      leaves := by
  rw [snapshotRows, map_map]
  exact zipIdx_map_fst 0 leaves

theorem snapshotRows_rollupIds :
    (snapshotRows first root blockID leaves).map RollupExitLeaf.rollupId =
      List.range' 1 leaves.length := by
  apply ext_getElem?
  intro index
  rw [snapshotRows, map_map, getElem?_map, getElem?_zipIdx]
  by_cases inside : index < leaves.length
  · rw [getElem?_eq_getElem inside, getElem?_range' inside]
    simp [Nat.add_comm]
  · rw [getElem?_eq_none (by omega), getElem?_eq_none (by simp; omega)]
    rfl

theorem snapshotRows_ordered :
    Rows.orderBy RollupExitLeaf.rollupId
        (snapshotRows first root blockID leaves) =
      snapshotRows first root blockID leaves := by
  apply Rows.orderBy_eq_self
  rw [← pairwise_map (f := RollupExitLeaf.rollupId),
    snapshotRows_rollupIds]
  exact pairwise_le_range'

end Rows

inductive RollupLeafAdded [DecidableEq H] [Externals H] (height : Nat)
    (rollupLeaf : RollupExitLeaf H) (t : Tables H) : Tables H → Prop
  | known {leaves : List H} {root : H}
      (next : nextRollupLeaves rollupLeaf t.getLatestRollupExitLeaves = leaves)
      (rooted : MerkleTree.buildMTRoot height leaves = .ok root)
      (stored : t.isRollupExitRoot root = true) :
      RollupLeafAdded height rollupLeaf t t
  | new {leaves : List H} {root : H} (first : Nat)
      (next : nextRollupLeaves rollupLeaf t.getLatestRollupExitLeaves = leaves)
      (rooted : MerkleTree.buildMTRoot height leaves = .ok root)
      (unknown : t.isRollupExitRoot root = false)
      (fresh : ∀ row, row ∈ t.rollupExit → row.id ≤ first) :
      RollupLeafAdded height rollupLeaf t
        { t with
          rollupExit := t.rollupExit ++
            snapshotRows first root rollupLeaf.blockID leaves }

structure Version (H : Type) where
  first : Nat
  blockID : Nat
  leaves : List H

variable [Externals H]

def Version.root (height : Nat) (version : Version H) : H :=
  treeRoot height version.leaves

def Version.rows (height : Nat) (version : Version H) :
    List (RollupExitLeaf H) :=
  snapshotRows version.first (version.root height) version.blockID
    version.leaves

/-- A table that holds whole versions, none of them twice, with growing ids
and numbers of rollups. -/
structure Versions (height : Nat) (rows : List (RollupExitLeaf H))
    (versions : List (Version H)) : Prop where
  rows_eq : rows = versions.flatMap (Version.rows height)
  newer : versions.Pairwise fun early late =>
    early.first + early.leaves.length ≤ late.first
  growing : versions.Pairwise fun early late =>
    early.leaves.length ≤ late.leaves.length
  distinct : versions.Pairwise fun early late =>
    early.root height ≠ late.root height
  complete : ∀ version, version ∈ versions →
    Complete version.leaves ∧ version.leaves.length ≤ 2 ^ height

theorem versions_nil (height : Nat) :
    Versions height ([] : List (RollupExitLeaf H)) [] :=
  ⟨rfl, .nil, .nil, .nil, nofun⟩

section Queries

variable {height : Nat} {rows : List (RollupExitLeaf H)}
  {versions : List (Version H)} {t : Tables H}

variable {version : Version H}

theorem Version.mem_rows {row : RollupExitLeaf H} :
    row ∈ version.rows height ↔ ∃ i leaf, version.leaves[i]? = some leaf ∧
        row =
          { id := version.first + i + 1
            blockID := version.blockID
            leaf := leaf
            rollupId := i + 1
            root := version.root height } :=
  mem_snapshotRows

theorem Versions.mem_rows (valid : Versions height rows versions)
    {row : RollupExitLeaf H} :
    row ∈ rows ↔ ∃ version, version ∈ versions ∧
      row ∈ version.rows height := by
  rw [valid.rows_eq, mem_flatMap]

theorem Versions.newest_eq {last : Version H}
    (valid : Versions height rows (versions ++ [last])) :
    Rows.newest RollupExitLeaf.rollupId RollupExitLeaf.id rows =
      last.rows height := by
  have newer := (pairwise_append.mp valid.newer).2.2
  have growing := (pairwise_append.mp valid.growing).2.2
  rw [valid.rows_eq, flatMap_append, flatMap_singleton]
  apply Rows.newest_append
  · intro old oldIn row rowIn
    obtain ⟨version, versionIn, oldIn⟩ := mem_flatMap.mp oldIn
    obtain ⟨i, _, found, rfl⟩ := Version.mem_rows.mp oldIn
    obtain ⟨j, _, _, rfl⟩ := Version.mem_rows.mp rowIn
    obtain ⟨inside, _⟩ := List.getElem?_eq_some_iff.mp found
    have bound := newer version versionIn last mem_cons_self
    simp only
    omega
  · intro old oldIn
    obtain ⟨version, versionIn, oldIn⟩ := mem_flatMap.mp oldIn
    obtain ⟨i, _, found, rfl⟩ := Version.mem_rows.mp oldIn
    obtain ⟨inside, _⟩ := List.getElem?_eq_some_iff.mp found
    have bound := growing version versionIn last mem_cons_self
    exact ⟨_, Version.mem_rows.mpr
      ⟨i, _, getElem?_eq_getElem (by omega), rfl⟩, rfl⟩
  · rw [Version.rows, snapshotRows_rollupIds]
    exact nodup_range'

def latestLeaves (versions : List (Version H)) : List H :=
  (versions.getLast?.map Version.leaves).getD []

theorem Versions.getLatestRollupExitLeaves
    (valid : Versions height t.rollupExit versions) :
    t.getLatestRollupExitLeaves.map RollupExitLeaf.leaf =
        latestLeaves versions ∧
      t.getLatestRollupExitLeaves.map RollupExitLeaf.rollupId =
        List.range' 1 (latestLeaves versions).length := by
  rcases eq_nil_or_concat versions with rfl | ⟨earlier, last, rfl⟩
  · have empty : t.rollupExit = [] := valid.rows_eq
    rw [Tables.getLatestRollupExitLeaves, empty]
    exact ⟨rfl, rfl⟩
  · rw [concat_eq_append] at valid ⊢
    rw [Tables.getLatestRollupExitLeaves, valid.newest_eq, Version.rows,
      snapshotRows_ordered, snapshotRows_leaves, snapshotRows_rollupIds,
      latestLeaves, getLast?_concat]
    exact ⟨rfl, rfl⟩

variable [DecidableEq H]

theorem Versions.isRollupExitRoot_iff
    (valid : Versions height t.rollupExit versions) {root : H} :
    t.isRollupExitRoot root = true ↔
      ∃ version, version ∈ versions ∧ version.root height = root := by
  rw [Tables.isRollupExitRoot, any_eq_true]
  constructor
  · rintro ⟨row, stored, same⟩
    obtain ⟨version, versionIn, rowIn⟩ := valid.mem_rows.mp stored
    obtain ⟨_, _, _, rfl⟩ := Version.mem_rows.mp rowIn
    exact ⟨version, versionIn, by simpa using same⟩
  · rintro ⟨version, versionIn, rfl⟩
    have nonempty := (valid.complete version versionIn).1.ne_nil
    have inside := length_pos_iff.mpr nonempty
    exact ⟨_, valid.mem_rows.mpr ⟨version, versionIn, Version.mem_rows.mpr
      ⟨0, _, getElem?_eq_getElem inside, rfl⟩⟩, by simp⟩

theorem Versions.filter_root (valid : Versions height t.rollupExit versions)
    (mem : version ∈ versions) :
    (t.rollupExit.filter fun row => row.root == version.root height) =
      version.rows height := by
  have roots : (versions.map (Version.root height)).Nodup :=
    pairwise_map.mpr valid.distinct
  have only : (versions.filter fun other =>
      other.root height == version.root height) = [version] :=
    Rows.filter_key roots mem
  have agree : ∀ other, other ∈ versions → ∀ row,
      row ∈ other.rows height →
      (row.root == version.root height) =
        (other.root height == version.root height) := by
    intro other _ row rowIn
    obtain ⟨_, _, _, rfl⟩ := Version.mem_rows.mp rowIn
    rfl
  rw [valid.rows_eq, Rows.filter_flatMap agree, only, flatMap_singleton]

omit [DecidableEq H] in
theorem Versions.eq_of_root {rows : List (RollupExitLeaf H)}
    (valid : Versions height rows versions) {first second : Version H}
    (firstIn : first ∈ versions) (secondIn : second ∈ versions)
    (same : first.root height = second.root height) : first = second := by
  have roots : (versions.map (Version.root height)).Nodup :=
    pairwise_map.mpr valid.distinct
  exact inj_on_of_nodup_map roots firstIn secondIn same

section

variable (valid : Versions height t.rollupExit versions)

include valid

theorem Versions.getRollupExitLeavesByRoot_unknown {root : H}
    (unknown : ∀ version, version ∈ versions →
      version.root height ≠ root) : t.getRollupExitLeavesByRoot root = [] := by
  have none : (t.rollupExit.filter fun row => row.root == root) = [] := by
    apply filter_eq_nil_iff.mpr
    intro row stored
    obtain ⟨version, versionIn, rowIn⟩ := valid.mem_rows.mp stored
    obtain ⟨_, _, _, rfl⟩ := Version.mem_rows.mp rowIn
    simpa using unknown version versionIn
  rw [Tables.getRollupExitLeavesByRoot, none]
  rfl

theorem Versions.getRollupExitLeavesByRoot (mem : version ∈ versions) :
    t.getRollupExitLeavesByRoot (version.root height) =
      version.rows height := by
  rw [Tables.getRollupExitLeavesByRoot, valid.filter_root mem,
    Version.rows, snapshotRows_ordered]

theorem Versions.rollupExitRows (mem : version ∈ versions)
    {index : Nat} {leaf : H} (found : version.leaves[index]? = some leaf) :
    ∃ row, t.rollupExitRows (version.root height) (index + 1) = [row] ∧
      row.leaf = leaf := by
  have ids : ((version.rows height).map RollupExitLeaf.rollupId).Nodup := by
    rw [Version.rows, snapshotRows_rollupIds]
    exact nodup_range'
  let row : RollupExitLeaf H :=
    { id := version.first + index + 1
      blockID := version.blockID
      leaf := leaf
      rollupId := index + 1
      root := version.root height }
  have stored : row ∈ version.rows height :=
    Version.mem_rows.mpr ⟨index, leaf, found, rfl⟩
  have only := Rows.filter_key ids stored
  refine ⟨row, ?_, rfl⟩
  rw [← only, ← valid.filter_root mem, filter_filter,
    Tables.rollupExitRows]
  apply filter_congr
  intro row _
  exact Bool.and_comm _ _

theorem Versions.length_rollupExitRows (root : H) (rollupID : Nat) :
    (t.rollupExitRows root rollupID).length ≤ 1 := by
  cases rows : t.rollupExitRows root rollupID with
  | nil => exact Nat.zero_le 1
  | cons row rest =>
    have stored : row ∈ t.rollupExitRows root rollupID := by
      rw [rows]
      exact mem_cons_self
    obtain ⟨inTable, here⟩ := mem_filter.mp stored
    obtain ⟨version, mem, rowIn⟩ := valid.mem_rows.mp inTable
    obtain ⟨index, leaf, found, rfl⟩ := Version.mem_rows.mp rowIn
    simp only [Bool.and_eq_true, beq_iff_eq] at here
    obtain ⟨rfl, rfl⟩ := here
    obtain ⟨only, single, _⟩ := valid.rollupExitRows mem found
    rw [← rows, single]
    exact Nat.le_refl 1

end

end Queries

section Changes

variable {height : Nat} {versions : List (Version H)}

/-- The versions after a leaf has been put in its place: the same if the
result is already stored, else with the result as the last one. -/
inductive VersionAdded (height : Nat) (rollupLeaf : RollupExitLeaf H)
    (versions : List (Version H)) : List (Version H) → Prop
  | known (version : Version H) (mem : version ∈ versions)
      (same : version.root height = treeRoot height
        (putLeaf rollupLeaf.rollupId rollupLeaf.leaf
          (latestLeaves versions))) :
      VersionAdded height rollupLeaf versions versions
  | new (first : Nat)
      (unknown : ∀ version, version ∈ versions →
        version.root height ≠ treeRoot height
          (putLeaf rollupLeaf.rollupId rollupLeaf.leaf
            (latestLeaves versions))) :
      VersionAdded height rollupLeaf versions
        (versions ++
          [{ first := first
             blockID := rollupLeaf.blockID
             leaves := putLeaf rollupLeaf.rollupId rollupLeaf.leaf
               (latestLeaves versions) }])

section

variable {rows : List (RollupExitLeaf H)}
  (valid : Versions height rows versions)

include valid

theorem Versions.latest_complete :
    latestLeaves versions = [] ∨ Complete (latestLeaves versions) := by
  rcases eq_nil_or_concat versions with rfl | ⟨earlier, last, rfl⟩
  · exact .inl rfl
  · rw [concat_eq_append] at valid ⊢
    rw [latestLeaves, getLast?_concat]
    exact .inr (valid.complete last
      (mem_append_right _ mem_cons_self)).1

theorem Versions.latest_fits :
    (latestLeaves versions).length ≤ 2 ^ height := by
  rcases eq_nil_or_concat versions with rfl | ⟨earlier, last, rfl⟩
  · exact Nat.zero_le _
  · rw [concat_eq_append] at valid ⊢
    rw [latestLeaves, getLast?_concat]
    exact (valid.complete last (mem_append_right _ mem_cons_self)).2

theorem Versions.length_le_latest {version : Version H}
    (mem : version ∈ versions) :
    version.leaves.length ≤ (latestLeaves versions).length := by
  rcases eq_nil_or_concat versions with rfl | ⟨earlier, last, rfl⟩
  · contradiction
  · rw [concat_eq_append] at valid mem ⊢
    rw [latestLeaves, getLast?_concat]
    rcases Rows.mem_push.mp mem with old | rfl
    · exact (pairwise_append.mp valid.growing).2.2 version old last
        mem_cons_self
    · exact le_rfl

private theorem Versions.push {version : Version H}
    (newer : ∀ row, row ∈ rows → row.id ≤ version.first)
    (growing : (latestLeaves versions).length ≤ version.leaves.length)
    (unknown : ∀ old, old ∈ versions → old.root height ≠ version.root height)
    (complete : Complete version.leaves)
    (fits : version.leaves.length ≤ 2 ^ height) :
    Versions height (rows ++ version.rows height)
      (versions ++ [version]) := by
  have append : ∀ {relation : Version H → Version H → Prop},
      versions.Pairwise relation →
      (∀ old, old ∈ versions → relation old version) →
      (versions ++ [version]).Pairwise relation := by
    intro relation pairs last
    rw [pairwise_append]
    refine ⟨pairs, pairwise_singleton _ _, ?_⟩
    intro old oldIn new newIn
    rw [mem_singleton.mp newIn]
    exact last old oldIn
  constructor
  · rw [flatMap_append, flatMap_singleton, ← valid.rows_eq]
  · apply append valid.newer
    intro old oldIn
    have nonempty := length_pos_iff.mpr
      (valid.complete old oldIn).1.ne_nil
    have inside : old.leaves.length - 1 < old.leaves.length := by omega
    have bound := newer _ (valid.mem_rows.mpr ⟨old, oldIn,
      Version.mem_rows.mpr ⟨_, _, getElem?_eq_getElem inside, rfl⟩⟩)
    simp only at bound
    omega
  · apply append valid.growing
    intro old oldIn
    exact (valid.length_le_latest oldIn).trans growing
  · exact append valid.distinct unknown
  · intro other otherIn
    rcases Rows.mem_push.mp otherIn with old | rfl
    · exact valid.complete other old
    · exact ⟨complete, fits⟩

end

theorem RollupLeafAdded.versionAdded [DecidableEq H]
    {rollupLeaf : RollupExitLeaf H} {t t' : Tables H} (small : height ≤ 64)
    (valid : Versions height t.rollupExit versions)
    (positive : 0 < rollupLeaf.rollupId)
    (nonzero : rollupLeaf.leaf ≠ hashZero)
    (added : RollupLeafAdded height rollupLeaf t t') :
    ∃ versions', VersionAdded height rollupLeaf versions versions' ∧
      Versions height t'.rollupExit versions' := by
  have latest := valid.getLatestRollupExitLeaves.1
  cases added with
  | known next rooted stored =>
    rw [nextRollupLeaves_eq, latest] at next
    subst next
    obtain ⟨_, _, rfl⟩ := MerkleTree.buildMTRoot_ok small rooted
    obtain ⟨version, mem, same⟩ := valid.isRollupExitRoot_iff.mp stored
    exact ⟨versions, .known version mem same, valid⟩
  | new first next rooted unknown fresh =>
    rw [nextRollupLeaves_eq, latest] at next
    subst next
    obtain ⟨_, fits, rfl⟩ := MerkleTree.buildMTRoot_ok small rooted
    have unknown : ∀ version, version ∈ versions →
        version.root height ≠ treeRoot height
          (putLeaf rollupLeaf.rollupId rollupLeaf.leaf
            (latestLeaves versions)) := by
      intro version mem same
      have stored := valid.isRollupExitRoot_iff.mpr ⟨version, mem, same⟩
      simp [stored] at unknown
    let version : Version H :=
      { first := first
        blockID := rollupLeaf.blockID
        leaves := putLeaf rollupLeaf.rollupId rollupLeaf.leaf
          (latestLeaves versions) }
    have pushed : Versions height (t.rollupExit ++ version.rows height)
        (versions ++ [version]) := by
      apply valid.push
      · exact fresh
      · simp only [version, length_putLeaf]
        omega
      · exact unknown
      · exact complete_putLeaf positive nonzero valid.latest_complete
      · exact fits
    exact ⟨_, .new first unknown, pushed⟩

theorem Versions.deleteBlocks {t : Tables H}
    (valid : Versions height t.rollupExit versions)
    (gone : BlockRow H → Bool) :
    Versions height (t.deleteBlocks gone).rollupExit
      (versions.filter fun version =>
        version.blockID ∉ (t.block.filter gone).map BlockRow.id) where
  rows_eq := by
    change t.rollupExit.filter (fun row =>
      row.blockID ∉ (t.block.filter gone).map BlockRow.id) = _
    rw [valid.rows_eq]
    apply Rows.filter_flatMap
    intro version _ row rowIn
    obtain ⟨_, _, _, rfl⟩ := Version.mem_rows.mp rowIn
    rfl
  newer := valid.newer.filter _
  growing := valid.growing.filter _
  distinct := valid.distinct.filter _
  complete := fun version mem =>
    valid.complete version (mem_filter.mp mem).1

end Changes

end BridgeService
