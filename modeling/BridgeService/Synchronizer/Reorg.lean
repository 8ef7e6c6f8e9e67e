import BridgeService.Bridgectrl.Recovery
import BridgeService.Synchronizer.SyncRun

/-!
# Reorganisations and replay

A reorganisation deletes the rows of the removed blocks.  Rows of earlier blocks
that an event of a removed block deleted or changed do not come back.  What a
reset keeps of a network is therefore followed through the removed blocks: most
events have no effect on it, and the others only take something away.
-/

namespace BridgeService

open ErrorState

variable {H : Type}

section States

/-- An entry of the exit roots table without its exit roots, which are filled
in later. -/
def ExitRootRow.withoutRoots (row : ExitRootRow H) : ExitRootRow H :=
  { row with exitRoots := [] }

def ExitRootRow.forbid [DecidableEq H] (ger : H) (row : ExitRootRow H) :
    ExitRootRow H :=
  if row.globalExitRoot = ger then { row with allowed := false } else row

structure NetworkState (H : Type) where
  deposits : List (DepositRow H)
  claims : List (ClaimRow H)
  exitRoots : List (ExitRootRow H)

def Tables.networkState (t : Tables H) (networkID : Nat) : NetworkState H :=
  { deposits := t.depositsOf networkID
    claims := t.claim.filter fun row => row.networkID = networkID
    exitRoots := (t.exitRoot.filter fun row =>
      row.networkID = networkID).map ExitRootRow.withoutRoots }

namespace NetworkState

variable [DecidableEq H]

/-- What an event of a later block takes away. -/
def after (state : NetworkState H) : Event H → NetworkState H
  | .backwardLET backward =>
    { state with
      deposits := state.deposits.filter fun row =>
        row.depositCnt < backward.newDepositCount }
  | .unsetClaim unset =>
    { state with
      claims := state.claims.filter fun row =>
        row.globalIndex ≠ toString unset.globalIndex }
  | .removeL2GER ger =>
    { state with
      exitRoots := state.exitRoots.map
        (ExitRootRow.forbid ger.globalExitRoot) }
  | _ => state

def size (state : NetworkState H) : Nat :=
  state.deposits.length + state.claims.length +
    state.exitRoots.countP ExitRootRow.allowed

private theorem countP_forbid (rows : List (ExitRootRow H)) (ger : H) :
    (rows.map (ExitRootRow.forbid ger)).countP ExitRootRow.allowed ≤
        rows.countP ExitRootRow.allowed ∧
      ((rows.map (ExitRootRow.forbid ger)).countP ExitRootRow.allowed =
        rows.countP ExitRootRow.allowed →
        rows.map (ExitRootRow.forbid ger) = rows) := by
  induction rows with
  | nil => exact ⟨le_rfl, fun _ => rfl⟩
  | cons row rest induction =>
    obtain ⟨fewer, equal⟩ := induction
    rw [List.map_cons, List.countP_cons, List.countP_cons]
    by_cases removed : row.globalExitRoot = ger
    · cases allowed : row.allowed with
      | true =>
        have gone : (row.forbid ger).allowed = false := by
          rw [ExitRootRow.forbid, if_pos removed]
        rw [gone]
        simp only [Bool.false_eq_true, if_false, if_true]
        exact ⟨by omega, fun same => by omega⟩
      | false =>
        have kept : row.forbid ger = row := by
          rw [ExitRootRow.forbid, if_pos removed, ← allowed]
        rw [kept, allowed]
        exact ⟨by omega, fun same => by rw [equal (by omega)]⟩
    · have kept : row.forbid ger = row := by
        rw [ExitRootRow.forbid, if_neg removed]
      rw [kept]
      exact ⟨by omega, fun same => by rw [equal (by omega)]⟩

theorem size_after (state : NetworkState H) (event : Event H) :
    (state.after event).size ≤ state.size ∧
      ((state.after event).size = state.size →
        state.after event = state) := by
  cases event with
  | backwardLET backward =>
    have fewer := List.length_filter_le (fun row : DepositRow H =>
      decide (row.depositCnt < backward.newDepositCount)) state.deposits
    refine ⟨by simp only [after, size]; omega, fun same => ?_⟩
    have all : (state.deposits.filter fun row =>
        decide (row.depositCnt < backward.newDepositCount)) =
        state.deposits := by
      apply List.filter_sublist.eq_of_length
      simp only [after, size] at same
      omega
    simp only [after, all]
  | unsetClaim unset =>
    have fewer := List.length_filter_le (fun row : ClaimRow H =>
      decide (row.globalIndex ≠ toString unset.globalIndex)) state.claims
    refine ⟨by simp only [after, size]; omega, fun same => ?_⟩
    have all : (state.claims.filter fun row =>
        decide (row.globalIndex ≠ toString unset.globalIndex)) =
        state.claims := by
      apply List.filter_sublist.eq_of_length
      simp only [after, size] at same
      omega
    simp only [after, all]
  | removeL2GER ger =>
    obtain ⟨fewer, equal⟩ := countP_forbid state.exitRoots ger.globalExitRoot
    refine ⟨by simp only [after, size]; omega, fun same => ?_⟩
    have all := equal (by simp only [after, size] at same; omega)
    simp only [after, all]
  | _ => exact ⟨le_rfl, fun _ => rfl⟩

private theorem size_foldl (events : List (Event H))
    (state : NetworkState H) :
    (events.foldl after state).size ≤ state.size := by
  induction events generalizing state with
  | nil => exact le_rfl
  | cons event rest induction =>
    exact (induction (state.after event)).trans (size_after state event).1

theorem size_foldl_eq_iff (events : List (Event H))
    (state : NetworkState H) :
    (events.foldl after state).size = state.size ↔
      ∀ event, event ∈ events → state.after event = state := by
  induction events with
  | nil => simp
  | cons event rest induction =>
    rw [List.forall_mem_cons, ← induction, List.foldl_cons]
    constructor
    · intro same
      have kept : state.after event = state := by
        apply (size_after state event).2
        apply Nat.le_antisymm (size_after state event).1
        have bound := size_foldl rest (state.after event)
        rw [same] at bound
        exact bound
      rw [kept] at same
      exact ⟨kept, same⟩
    · rintro ⟨kept, same⟩
      rw [kept, same]

theorem foldl_eq_self {events : List (Event H)} {state : NetworkState H}
    (spared : ∀ event, event ∈ events → state.after event = state) :
    events.foldl after state = state := by
  induction events with
  | nil => rfl
  | cons event rest induction =>
    rw [List.forall_mem_cons] at spared
    rw [List.foldl_cons, spared.1, induction spared.2]

end NetworkState

end States

section Kept

def Tables.keptState (t : Tables H) (gone : List Nat) (networkID : Nat) :
    NetworkState H :=
  { deposits := (t.depositsOf networkID).filter fun row =>
      row.blockID ∉ gone
    claims := (t.claim.filter fun row =>
      row.networkID = networkID).filter fun row => row.blockID ∉ gone
    exitRoots := ((t.exitRoot.map ExitRootRow.withoutRoots).filter
      fun row => row.networkID = networkID).filter fun row =>
        row.blockID ∉ gone }

theorem Tables.networkState_reset (t : Tables H)
    (blockNumber networkID : Nat) :
    (t.reset blockNumber networkID).networkState networkID =
      t.keptState (t.goneIDs blockNumber networkID) networkID := by
  have swap : ∀ {α : Type} (rows : List α) (first second : α → Bool),
      (rows.filter first).filter second =
        (rows.filter second).filter first := by
    intro α rows first second
    rw [List.filter_filter, List.filter_filter]
    apply List.filter_congr
    intro row _
    exact Bool.and_comm _ _
  have deposits : (t.reset blockNumber networkID).depositsOf networkID =
      (t.depositsOf networkID).filter fun row =>
        row.blockID ∉ t.goneIDs blockNumber networkID := by
    change (t.deposit.filter fun row =>
      !decide (row.blockID ∈ t.goneIDs blockNumber networkID)).filter _ = _
    rw [swap]
    apply List.filter_congr
    intro row _
    rw [decide_not]
  have claims : (t.reset blockNumber networkID).claim =
      t.claim.filter fun row =>
        row.blockID ∉ t.goneIDs blockNumber networkID := rfl
  have exitRoots : (t.reset blockNumber networkID).exitRoot =
      t.exitRoot.filter fun row =>
        row.blockID ∉ t.goneIDs blockNumber networkID := rfl
  rw [networkState, keptState, deposits, claims, exitRoots, swap t.claim,
    swap t.exitRoot, List.filter_map, List.filter_map]
  rfl

variable [DecidableEq H] [Externals H] {ctx : BlockContext H}
  {t t' : Tables H} {gone : List Nat}

omit [Externals H] in
private theorem withoutRoots_completeL2 (ger : GlobalExitRoot H)
    (t : Tables H) :
    (ctx.completeL2 ger t).exitRoot.map ExitRootRow.withoutRoots =
      t.exitRoot.map ExitRootRow.withoutRoots := by
  rw [BlockContext.completeL2_eq, List.map_map]
  apply List.map_congr_left
  intro row _
  rw [Function.comp_apply, BlockContext.fill]
  split <;> rfl

omit [DecidableEq H] [Externals H] in
private theorem filter_append_gone {α : Type} (rows : List α) (row : α)
    (keep : α → Bool) (lost : keep row = false) :
    (rows ++ [row]).filter keep = rows.filter keep := by
  rw [List.filter_append, List.filter_singleton, lost]
  simp

omit [DecidableEq H] in
theorem DepositsPushed.keptState {height networkID : Nat}
    {deposits : List (Deposit H)}
    (pushed : DepositsPushed height deposits t t')
    (here : ∀ made, made ∈ deposits → made.blockID ∈ gone) :
    t'.keptState gone networkID = t.keptState gone networkID := by
  induction pushed with
  | nil => rfl
  | @cons made rest t t' id fresh next others induction =>
    rw [induction fun other inside =>
      here other (List.mem_cons_of_mem _ inside)]
    have lost := here made List.mem_cons_self
    simp only [Tables.keptState, Tables.depositsOf, Tables.pushDeposit,
      NetworkState.mk.injEq, and_true, List.filter_filter]
    apply filter_append_gone
    simp [Storage.depositRow, lost]

omit [DecidableEq H] [Externals H] in
theorem Tables.depositsOf_setReady {ready : Bool}
    {matching : DepositRow H → Bool} {networkID : Nat}
    (others : ∀ row, row ∈ t.deposit → matching row = true →
      row.networkID ≠ networkID) :
    (t.setReady ready matching).depositsOf networkID =
      t.depositsOf networkID := by
  have same : ∀ rows : List (DepositRow H),
      (∀ row, row ∈ rows → matching row = true → row.networkID ≠ networkID) →
      (rows.map fun row => if matching row then
        { row with readyForClaim := ready } else row).filter
          (fun row => decide (row.networkID = networkID)) =
        rows.filter fun row => decide (row.networkID = networkID) := by
    intro rows others
    induction rows with
    | nil => rfl
    | cons row rest induction =>
      have tail := induction fun other inside =>
        others other (List.mem_cons_of_mem _ inside)
      rw [List.map_cons, List.filter_cons, List.filter_cons, tail]
      by_cases matched : matching row = true
      · have other := others row List.mem_cons_self matched
        simp [matched, other]
      · simp [matched]
  exact same t.deposit others

omit [Externals H] in
private theorem kept_removed (rows : List (ExitRootRow H)) (ger : H)
    (networkID : Nat) :
    (((rows.map fun row =>
      if Storage.isEntryOf ger networkID row then
        { row with allowed := false }
      else
        row).map ExitRootRow.withoutRoots).filter
          fun row => decide (row.networkID = networkID)).filter
            (fun row => decide (row.blockID ∉ gone)) =
      (((rows.map ExitRootRow.withoutRoots).filter
        fun row => decide (row.networkID = networkID)).filter
          fun row => decide (row.blockID ∉ gone)).map
            (ExitRootRow.forbid ger) := by
  simp only [List.filter_filter]
  induction rows with
  | nil => rfl
  | cons row rest induction =>
    simp only [List.map_cons]
    by_cases kept : row.networkID = networkID ∧ row.blockID ∉ gone
    · obtain ⟨onNetwork, stays⟩ := kept
      rw [List.filter_cons_of_pos, List.filter_cons_of_pos, induction,
        List.map_cons]
      · congr 1
        by_cases removed : row.globalExitRoot = ger
        · simp [Storage.isEntryOf, ExitRootRow.forbid,
            ExitRootRow.withoutRoots, removed, onNetwork]
        · simp [Storage.isEntryOf, ExitRootRow.forbid,
            ExitRootRow.withoutRoots, removed]
      · simp [ExitRootRow.withoutRoots, onNetwork, stays]
      · split
        · simp [ExitRootRow.withoutRoots, onNetwork, stays]
        · simp [ExitRootRow.withoutRoots, onNetwork, stays]
    · have lost : ∀ other : ExitRootRow H,
          other.networkID = row.networkID → other.blockID = row.blockID →
          ¬(decide (other.blockID ∉ gone) &&
            decide (other.networkID = networkID)) = true := by
        intro other sameNetwork sameBlock both
        rw [Bool.and_eq_true, decide_eq_true_eq, decide_eq_true_eq,
          sameNetwork, sameBlock] at both
        exact kept ⟨both.2, both.1⟩
      rw [List.filter_cons_of_neg, List.filter_cons_of_neg, induction]
      · exact lost row.withoutRoots rfl rfl
      · split
        · exact lost _ rfl rfl
        · exact lost row.withoutRoots rfl rfl

theorem Applies.keptState {event : Event H}
    (applies : Applies ctx t event t') (notL1 : ctx.networkID ≠ 0)
    (here : ctx.blockID ∈ gone) :
    t'.keptState gone ctx.networkID =
      (t.keptState gone ctx.networkID).after event := by
  have exitRootLost : ∀ (id : Nat) (ger : H) (exitRoots : List H)
      (t : Tables H),
      (ctx.pushExitRoot id ger exitRoots t).keptState gone ctx.networkID =
        t.keptState gone ctx.networkID := by
    intro id ger exitRoots t
    simp only [Tables.keptState, Tables.depositsOf,
      BlockContext.pushExitRoot, NetworkState.mk.injEq, true_and,
      List.filter_filter, List.map_append, List.map_cons, List.map_nil]
    apply filter_append_gone
    simp [ExitRootRow.withoutRoots, here]
  have claimLost : ∀ row : ClaimRow H, row.blockID = ctx.blockID →
      { t with claim := t.claim ++ [row] }.keptState gone ctx.networkID =
        t.keptState gone ctx.networkID := by
    intro row same
    simp only [Tables.keptState, Tables.depositsOf, NetworkState.mk.injEq,
      true_and, and_true, List.filter_filter]
    apply filter_append_gone
    simp [same, here]
  cases applies with
  | @globalExitRootL1 ger id two fresh =>
    rw [exitRootLost, Tables.keptState, withoutRoots_completeL2,
      BlockContext.completeL2_eq]
    rfl
  | globalExitRootL2 id none exitRoots known fresh =>
    rw [exitRootLost]
    rfl
  | @removeL2GER ger low high found =>
    rw [Tables.keptState, Tables.depositsOf_setReady]
    · simp only [Tables.setReady, kept_removed]
      rfl
    · intro row _ matching
      simp only [Bool.and_eq_true, beq_iff_eq] at matching
      rw [matching.1.2]
      exact Ne.symm notL1
  | deposit pushed =>
    apply pushed.keptState
    intro made inside
    rw [List.mem_singleton.mp inside]
    exact here
  | claim => exact claimLost _ rfl
  | token row sameBlock onNetwork => rfl
  | verifyBatchIgnored zero => rfl
  | verifyBatch nonzero positive known added =>
    cases added with
    | known => rfl
    | new => rfl
  | @backwardLET backward notL1 previous enough reached =>
    simp only [Tables.keptState, NetworkState.after, Tables.depositsOf,
      Tables.resetDeposits, Tables.deleteDeposits, NetworkState.mk.injEq,
      and_true, List.filter_filter]
    apply List.filter_congr
    intro row _
    have below : (!decide (backward.newDepositCount ≤ row.depositCnt)) =
        decide (row.depositCnt < backward.newDepositCount) := by
      rw [← decide_not]
      simp only [Nat.not_le]
    by_cases onNetwork : row.networkID = ctx.networkID
    · simp [onNetwork, below, Bool.and_comm]
    · simp [onNetwork]
  | @unsetClaim unset =>
    simp only [Tables.keptState, NetworkState.after, Tables.depositsOf,
      NetworkState.mk.injEq, true_and, and_true, List.filter_filter]
    apply List.filter_congr
    intro row _
    by_cases onNetwork : row.networkID = ctx.networkID
    · simp [onNetwork, Bool.and_comm, beq_eq_decide]
    · simp [onNetwork]
  | @setClaim set deposit => exact claimLost (ctx.setClaimRow set deposit) rfl
  | forwardLET previous pushed reached =>
    apply pushed.keptState
    intro made inside
    rw [(forwardDeposits_here _ inside).1]
    exact here

end Kept

end BridgeService
