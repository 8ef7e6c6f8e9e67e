import BridgeService.Storage.ExitTables

/-!
# Stored roots

The roots of a network that are stored are the roots after each deposit of the
network that is still stored.  With an injective hash and nonzero leaves a
stored root belongs to one deposit.
-/

namespace BridgeService

open Ledger PaddedTree List

variable {H : Type} [Externals H]

namespace Tables

variable {t : Tables H} {height networkID : Nat}

omit [Externals H] in
private theorem prefix_iff_take {leaves all : List H} :
    leaves <+: all ∧ leaves ≠ [] ↔
      ∃ last, last < all.length ∧ leaves = all.take (last + 1) := by
  constructor
  · rintro ⟨start, nonempty⟩
    have positive := length_pos_iff.mpr nonempty
    have bound := start.length_le
    refine ⟨leaves.length - 1, by omega, ?_⟩
    rw [Nat.sub_add_cancel positive]
    exact prefix_iff_eq_take.mp start
  · rintro ⟨last, inside, rfl⟩
    refine ⟨ take_prefix _ _, ?_⟩
    rw [← length_pos_iff, length_take]
    omega

theorem leaf_ne_zero
    (nonzero : ∀ deposit : Deposit H, hashDeposit deposit ≠ hashZero)
    {leaf : H} (inside : leaf ∈ t.leavesOf networkID) : leaf ≠ hashZero := by
  rw [leavesOf_eq_map] at inside
  obtain ⟨row, _, rfl⟩ := mem_map.mp inside
  exact nonzero _

theorem TreeTables.roots_nodup (tree : t.TreeTables height)
    (injective : Function.Injective2 (hash : H → H → H))
    (nonzero : ∀ deposit : Deposit H, hashDeposit deposit ≠ hashZero)
    (fits : (t.leavesOf networkID).length ≤ 2 ^ height) :
    ((t.root.filter fun root => root.network == networkID).map
      RootRow.root).Nodup := by
  have rows : (t.root.filter fun root => root.network == networkID) =
      (lane networkID t.entries).map (rootRow height t) := by
    rw [tree.root_eq_map, filter_map]
    rfl
  have positions : ((lane networkID t.entries).map
      Entry.position).Nodup := by
    rw [tree.ledger.consecutive networkID]
    exact nodup_range
  have leaves : ∀ leaf, leaf ∈ t.leavesOf networkID → leaf ≠ hashZero := by
    intro leaf inside
    rw [leavesOf_eq_map] at inside
    obtain ⟨row, _, rfl⟩ := mem_map.mp inside
    exact nonzero _
  rw [rows, map_map]
  apply List.Nodup.map_on _ positions.of_map
  intro first firstIn second secondIn same
  obtain ⟨firstStored, firstLane⟩ := mem_lane.mp firstIn
  obtain ⟨secondStored, secondLane⟩ := mem_lane.mp secondIn
  have firstInside := tree.ledger.position_lt firstStored
  have secondInside := tree.ledger.position_lt secondStored
  simp only [Function.comp_apply, rootRow, history, firstLane, secondLane]
    at same
  rw [firstLane] at firstInside
  rw [secondLane] at secondInside
  exact tree.ledger.eq_of_position firstStored secondStored
    (firstLane.trans secondLane.symm)
    (root_take_injective injective leaves fits firstInside secondInside same)

/-- The root of the exit tree of a network after the deposit with a count. -/
def RootAt (height : Nat) (t : Tables H) (networkID count : Nat) (root : H) :
    Prop :=
  count < (t.leavesOf networkID).length ∧
    root = treeRoot height ((t.leavesOf networkID).take (count + 1))

instance [DecidableEq H] (count : Nat) (root : H) :
    Decidable (t.RootAt height networkID count root) :=
  inferInstanceAs (Decidable (_ ∧ _))

variable {root : H}

theorem RootAt.congr {t' : Tables H} {count : Nat}
    (rootAt : t.RootAt height networkID count root)
    (leaves : t'.leavesOf networkID = t.leavesOf networkID) :
    t'.RootAt height networkID count root := by
  rw [RootAt, leaves]
  exact rootAt

theorem RootAt.unique (injective : Function.Injective2 (hash : H → H → H))
    (nonzero : ∀ deposit : Deposit H, hashDeposit deposit ≠ hashZero)
    (fits : (t.leavesOf networkID).length ≤ 2 ^ height) {first second : Nat}
    (firstAt : t.RootAt height networkID first root)
    (secondAt : t.RootAt height networkID second root) : first = second :=
  root_take_injective injective (fun _ => leaf_ne_zero nonzero) fits
    firstAt.1 secondAt.1 (firstAt.2.symm.trans secondAt.2)

variable [DecidableEq H]

theorem TreeTables.checkIfRootExists_iff (tree : t.TreeTables height) :
    t.checkIfRootExists root networkID = true ↔
      ∃ count, t.RootAt height networkID count root := by
  rw [checkIfRootExists, any_eq_true]
  constructor
  · rintro ⟨row, stored, matching⟩
    simp only [Bool.and_eq_true, beq_iff_eq] at matching
    obtain ⟨entry, inside, rfl⟩ := tree.mem_root.mp stored
    obtain ⟨same, onNetwork⟩ := matching
    dsimp only at same onNetwork
    refine ⟨entry.position, ?_, ?_⟩
    · rw [← onNetwork]
      exact tree.ledger.position_lt inside
    · rw [← same, history, onNetwork]
      rfl
  · rintro ⟨last, inside, rfl⟩
    obtain ⟨entry, mem, sameLane, entryAt⟩ :=
      tree.ledger.exists_entry inside
    refine ⟨_, tree.mem_root.mpr ⟨entry, mem, rfl⟩, ?_⟩
    simp only [Bool.and_eq_true, beq_iff_eq]
    refine ⟨?_, sameLane⟩
    rw [history, sameLane, entryAt]
    rfl

theorem TreeTables.checkIfRootExists_root_iff (tree : t.TreeTables height)
    (injective : Function.Injective2 (hash : H → H → H))
    {leaves : List H}
    (nonzero : ∀ leaf, leaf ∈ leaves → leaf ≠ hashZero)
    (stored : ∀ leaf, leaf ∈ t.leavesOf networkID → leaf ≠ hashZero)
    (fits : leaves.length ≤ 2 ^ height)
    (capacity : (t.leavesOf networkID).length ≤ 2 ^ height) :
    t.checkIfRootExists (treeRoot height leaves) networkID = true ↔
      leaves <+: t.leavesOf networkID ∧ leaves ≠ [] := by
  rw [tree.checkIfRootExists_iff, prefix_iff_take]
  constructor
  · rintro ⟨last, inside, same⟩
    refine ⟨last, inside, ?_⟩
    refine eq_of_root_eq injective nonzero (fun leaf taken => ?_) fits ?_
      same
    · exact stored leaf (mem_of_mem_take taken)
    · rw [length_take]
      omega
  · rintro ⟨last, inside, same⟩
    exact ⟨last, inside, congrArg _ same⟩

theorem TreeTables.depositCountsByRoot_eq (tree : t.TreeTables height)
    (injective : Function.Injective2 (hash : H → H → H))
    (nonzero : ∀ deposit : Deposit H, hashDeposit deposit ≠ hashZero)
    (fits : (t.leavesOf networkID).length ≤ 2 ^ height) {count : Nat}
    (rootAt : t.RootAt height networkID count root) :
    t.depositCountsByRoot root networkID = [count] := by
  obtain ⟨row, stored, rfl, rfl⟩ := tree.exists_deposit rootAt.1
  let own : RootRow H :=
    { root := treeRoot height
        ((t.leavesOf row.networkID).take (row.depositCnt + 1))
      depositID := row.id
      network := row.networkID }
  have owned : own ∈
      t.root.filter fun other => other.network == row.networkID := by
    have found : own ∈
        t.root.filter fun other => other.depositID == row.id := by
      rw [tree.roots_of_deposit stored]
      exact mem_singleton_self own
    exact mem_filter.mpr ⟨(mem_filter.mp found).1, by simp [own]⟩
  have ids : (t.deposit.map DepositRow.id).Nodup := by
    have distinct := tree.ledger.ids_nodup
    rw [entries, map_map] at distinct
    exact distinct
  have one := Rows.filter_key (tree.roots_nodup injective nonzero fits) owned
  have deposit := Rows.filter_key ids stored
  rw [filter_filter] at one
  rw [rootAt.2, depositCountsByRoot, one]
  simp [own, deposit]

theorem TreeTables.depositCountsByRoot_nil (tree : t.TreeTables height)
    (missing : ∀ count, ¬t.RootAt height networkID count root) :
    t.depositCountsByRoot root networkID = [] := by
  have absent : ¬t.checkIfRootExists root networkID = true := by
    intro found
    obtain ⟨count, rootAt⟩ := tree.checkIfRootExists_iff.mp found
    exact missing count rootAt
  have none : (t.root.filter fun row =>
      row.root == root && row.network == networkID) = [] := by
    simpa [checkIfRootExists] using absent
  rw [depositCountsByRoot, none]
  rfl

end Tables

end BridgeService
