import BridgeService.Storage.Claims

/-!
# Pages of the deposits to claim

`getPendingDepositsToClaim` counts the deposits with one query and reads a page
of them, in the order of their counts, with another one.  Deposits of different
networks can have the same count, and each query chooses the order of these.
-/

namespace BridgeService.Tables

open Rows

variable {H : Type} (t : Tables H) (addressFilter : Address)
  (destNetwork leafType : Nat) (fromNetwork : Int)

def pendingRows : List (Deposit H) :=
  (t.pendingDeposits addressFilter destNetwork leafType fromNetwork).flatMap
    fun row =>
      (t.block.filter fun block => block.id == row.blockID).map
        fun block => row.toDeposit block.blockNum

def PendingPage (limit offset : Nat) (page : List (Deposit H)) : Prop :=
  ∃ ordered, Ordered Deposit.depositCount
      (t.pendingRows addressFilter destNetwork leafType fromNetwork) ordered ∧
    page = if 0 < limit then (ordered.drop offset).take limit else ordered

theorem getPendingDepositsToClaim_page (limit offset : Nat) :
    t.PendingPage addressFilter destNetwork leafType fromNetwork limit offset
      (t.getPendingDepositsToClaim addressFilter destNetwork leafType limit
        offset fromNetwork).1 := by
  refine ⟨_, ⟨(orderBy_perm _).flatMap_right _, ?_⟩, rfl⟩
  apply List.pairwise_flatMap.mpr
  constructor
  · intro row _
    simp [List.pairwise_map, DepositRow.toDeposit, List.pairwise_of_forall]
  · apply (orderBy_pairwise _).imp
    intro first second below
    simp only [List.forall_mem_map]
    exact fun _ _ _ _ => below

variable {t addressFilter destNetwork leafType fromNetwork}

private theorem map_id_pendingRows
    (blockKeys : (t.block.map BlockRow.id).Nodup)
    (references : ∀ row, row ∈ t.deposit →
      ∃ block, block ∈ t.block ∧ block.id = row.blockID) :
    (t.pendingRows addressFilter destNetwork leafType fromNetwork).map
        Deposit.id =
      (t.pendingDeposits addressFilter destNetwork leafType fromNetwork).map
        DepositRow.id := by
  rw [pendingRows, List.map_flatMap, ← List.flatMap_pure_eq_map]
  apply List.flatMap_congr
  intro row inside
  obtain ⟨block, stored, same⟩ := references row (List.mem_of_mem_filter inside)
  rw [← same, filter_key blockKeys stored]
  rfl

/-- The pages of the pending deposits hold every one of them once, and as many
as the query counts, exactly if no page ends between two deposits with the same
count. -/
theorem pending_pages_partition_iff {size count : Nat}
    (blockKeys : (t.block.map BlockRow.id).Nodup)
    (depositKeys : (t.deposit.map DepositRow.id).Nodup)
    (references : ∀ row, row ∈ t.deposit →
      ∃ block, block ∈ t.block ∧ block.id = row.blockID)
    (positive : 1 ≤ size)
    (enough : (t.getPendingDepositsToClaim addressFilter destNetwork leafType
      size 0 fromNetwork).2 ≤ count * size) :
    (∀ pages, (∀ number, t.PendingPage addressFilter destNetwork leafType
          fromNetwork size (number * size) (pages number)) →
        ((List.range count).flatMap pages).Perm
            (t.pendingRows addressFilter destNetwork leafType fromNetwork) ∧
          ((List.range count).flatMap pages).length =
            (t.getPendingDepositsToClaim addressFilter destNetwork leafType
              size 0 fromNetwork).2) ↔
      EndsApart Deposit.depositCount
        (t.pendingRows addressFilter destNetwork leafType fromNetwork)
        size := by
  have ids := @map_id_pendingRows _ t addressFilter destNetwork leafType
    fromNetwork blockKeys references
  have length := congrArg List.length ids
  rw [List.length_map, List.length_map] at length
  have distinct : (t.pendingRows addressFilter destNetwork leafType
      fromNetwork).Nodup := by
    apply List.Nodup.of_map Deposit.id
    rw [ids]
    exact depositKeys.sublist (List.filter_sublist.map _)
  have total : (t.getPendingDepositsToClaim addressFilter destNetwork leafType
      size 0 fromNetwork).2 = (t.pendingRows addressFilter destNetwork leafType
        fromNetwork).length := length.symm
  rw [total] at enough ⊢
  rw [← paged_perm_iff distinct positive enough]
  simp only [Paged, PendingPage, if_pos (show 0 < size from positive)]
  constructor
  · intro exact pages paged
    exact (exact pages paged).1
  · intro exact pages paged
    exact ⟨exact pages paged, (exact pages paged).length_eq⟩

section Samples

def waitingTables : Tables Digest :=
  { claimedTables with claim := [] }

/-- Two pages of one deposit both hold the deposit of network 1. -/
theorem deposit_on_two_pages :
    ∃ pages : Nat → List (Deposit Digest),
      (∀ number, waitingTables.PendingPage 0 2 0 (-1) 1 (number * 1)
        (pages number)) ∧
      ((List.range 2).flatMap pages).map Deposit.networkID = [1, 1] ∧
      (waitingTables.pendingRows 0 2 0 (-1)).map Deposit.networkID =
        [0, 1] := by
  let rows := waitingTables.pendingRows 0 2 0 (-1)
  have ordered : Ordered Deposit.depositCount rows rows :=
    ⟨.refl _, by decide⟩
  have reversed : Ordered Deposit.depositCount rows rows.reverse :=
    ⟨List.reverse_perm _, by decide⟩
  refine ⟨fun
    | 0 => rows.reverse.take 1
    | number => (rows.drop (number * 1)).take 1, ?_, by decide, by decide⟩
  intro number
  cases number with
  | zero => exact ⟨_, reversed, rfl⟩
  | succ number => exact ⟨_, ordered, rfl⟩

theorem deposits_on_one_page :
    ((List.range 1).flatMap fun number =>
        (waitingTables.getPendingDepositsToClaim 0 2 0 2 (number * 2)
          (-1)).1).Perm (waitingTables.pendingRows 0 2 0 (-1)) := by
  refine ((pending_pages_partition_iff (by decide) (by decide) (by decide)
    (by decide) (by decide)).mpr ?_ _ fun number =>
      getPendingDepositsToClaim_page ..).1
  intro number before first second after order ends
  have length : _ = 2 := order.perm.length_eq
  rw [List.length_append, List.length_cons, List.length_cons] at length
  omega

end Samples

end BridgeService.Tables
