import BridgeService.Bridgectrl.Runs
import BridgeService.Claimtxman.Status
import BridgeService.Lib.SideBySide
import BridgeService.Synchronizer.Faultless

/-!
# Order of status updates

A status update looks up the deposit that its exit root belongs to and marks
the deposits up to it.  What it looks up does not depend on the marks.  So the
marks after several updates are those of the single updates taken together,
in whatever order and how often the updates are made.
-/

namespace BridgeService

open ErrorState List

variable {H : Type}

/-- Deposits have distinct ids and one root each, the roots of a network are
distinct, and a rollup has one leaf under a rollup exit root. -/
structure Tables.RootsDistinct (t : Tables H) : Prop where
  ids : (t.deposit.map DepositRow.id).Nodup
  owners : (t.root.map RootRow.depositID).Nodup
  roots : (t.root.map fun row => (row.root, row.network)).Nodup
  leaves : (t.rollupExit.map fun row => (row.root, row.rollupId)).Nodup

inductive StatusCall (H : Type)
  | l1 (exitRoot : H) (destinationNetwork : Nat)
  | l2 (exitRoot : H) (rollupID networkID : Nat) (isDestNetL1 : Bool)
deriving DecidableEq

/-- The root of a network belongs to a deposit with this count or a larger
one. -/
def Tables.Reaches (t : Tables H) (root : H) (network count : Nat) : Prop :=
  ∃ row ∈ t.root, row.root = root ∧ row.network = network ∧
    ∃ deposit ∈ t.deposit, deposit.id = row.depositID ∧
      count ≤ deposit.depositCnt

variable [DecidableEq H]

instance (t : Tables H) (root : H) (network count : Nat) :
    Decidable (t.Reaches root network count) :=
  inferInstanceAs (Decidable (∃ row ∈ t.root, _ ∧ _ ∧ ∃ deposit ∈ _, _))

namespace StatusCall

def run (dbTx : Querier) : StatusCall H → Service H Unit
  | .l1 exitRoot destinationNetwork =>
    Storage.updateL1DepositsStatus exitRoot destinationNetwork dbTx
  | .l2 exitRoot rollupID networkID isDestNetL1 =>
    Storage.updateL2DepositsStatus exitRoot rollupID networkID isDestNetL1 dbTx

def runAll : List (StatusCall H) → Service H Unit
  | [] => pure ()
  | call :: rest => do
    call.run .tx
    runAll rest

omit [DecidableEq H] in
/-- The deposit is of the network whose root the call names, not after the
deposit that the root belongs to, and has the destination that the call asks
for. -/
def Marks (t : Tables H) (deposit : DepositRow H) : StatusCall H → Prop
  | .l1 exitRoot destinationNetwork =>
    deposit.networkID = 0 ∧ deposit.destNet = destinationNetwork ∧
      t.Reaches exitRoot 0 deposit.depositCnt
  | .l2 exitRoot rollupID networkID isDestNetL1 =>
    deposit.networkID = networkID ∧
      (deposit.destNet = 0 ↔ isDestNetL1 = true) ∧
      ∃ row ∈ t.rollupExit, row.root = exitRoot ∧ row.rollupId = rollupID ∧
        t.Reaches row.leaf networkID deposit.depositCnt

instance (t : Tables H) (deposit : DepositRow H) :
    (call : StatusCall H) → Decidable (call.Marks t deposit)
  | .l1 _ _ => inferInstanceAs (Decidable (_ ∧ _ ∧ t.Reaches _ _ _))
  | .l2 _ _ _ _ => inferInstanceAs
    (Decidable (_ ∧ _ ∧ ∃ row ∈ t.rollupExit, _ ∧ _ ∧ t.Reaches _ _ _))

/-- The subqueries of the call return at most one row. -/
def Single (t : Tables H) : StatusCall H → Prop
  | .l1 exitRoot _ => (t.depositCountsByRoot exitRoot 0).length ≤ 1
  | .l2 exitRoot rollupID networkID _ =>
    (t.rollupExitRows exitRoot rollupID).length ≤ 1 ∧
      ∀ row ∈ t.rollupExitRows exitRoot rollupID,
        (t.depositCountsByRoot row.leaf networkID).length ≤ 1

end StatusCall

namespace Tables

/-- The tables in which the deposits that one of the calls marks are ready. -/
def marked (t : Tables H) (calls : List (StatusCall H)) : Tables H :=
  t.setReady true fun deposit => ∃ call ∈ calls, call.Marks t deposit

variable {t : Tables H}

theorem mem_depositCountsByRoot {root : H} {network count : Nat} :
    (∃ limit ∈ t.depositCountsByRoot root network, count ≤ limit) ↔
      t.Reaches root network count := by
  simp only [depositCountsByRoot, mem_flatMap, mem_filter, mem_map,
    Bool.and_eq_true, beq_iff_eq, Reaches]
  grind

theorem RootsDistinct.rollupExitRows (distinct : t.RootsDistinct) (root : H)
    (rollupID : Nat) : (t.rollupExitRows root rollupID).length ≤ 1 := by
  apply Rows.length_filter_le_one distinct.leaves
  intro row kept
  simp only [Bool.and_eq_true, beq_iff_eq] at kept
  exact congrArg₂ Prod.mk kept.1 kept.2

theorem RootsDistinct.depositCounts (distinct : t.RootsDistinct) (root : H)
    (network : Nat) : (t.depositCountsByRoot root network).length ≤ 1 := by
  have single : (t.root.filter fun row =>
      row.root == root && row.network == network).length ≤ 1 := by
    apply Rows.length_filter_le_one distinct.roots
    intro row kept
    simp only [Bool.and_eq_true, beq_iff_eq] at kept
    exact congrArg₂ Prod.mk kept.1 kept.2
  rw [depositCountsByRoot]
  match rows : t.root.filter fun row =>
      row.root == root && row.network == network with
  | [] =>
    rw [rows]
    exact Nat.zero_le 1
  | [row] =>
    rw [rows, flatMap_singleton, length_map]
    apply Rows.length_filter_le_one distinct.ids
    intro deposit kept
    exact beq_iff_eq.mp kept
  | _ :: _ :: _ => simp [rows] at single

theorem RootsDistinct.single (distinct : t.RootsDistinct) :
    (call : StatusCall H) → call.Single t
  | .l1 _ _ => distinct.depositCounts _ _
  | .l2 _ _ _ _ =>
    ⟨distinct.rollupExitRows _ _, fun _ _ => distinct.depositCounts _ _⟩

omit [DecidableEq H] in
private theorem markReady_eq {counts : List Nat} (single : counts.length ≤ 1)
    (matching : DepositRow H → Bool) :
    Storage.markReady t counts matching =
      .ok (t.setReady true fun row =>
        (∃ limit ∈ counts, row.depositCnt ≤ limit) && matching row) := by
  match counts, single with
  | [], _ => simp [Storage.markReady, setReady]
  | [limit], _ => simp [Storage.markReady]

theorem depositCountsByRoot_setReady {matching : DepositRow H → Bool}
    {root : H} {network : Nat} :
    (t.setReady true matching).depositCountsByRoot root network =
      t.depositCountsByRoot root network := by
  simp [depositCountsByRoot, setReady, filter_map, Function.comp_def,
    apply_ite DepositRow.id, apply_ite DepositRow.depositCnt]

theorem reaches_setReady {matching : DepositRow H → Bool} {root : H}
    {network count : Nat} :
    (t.setReady true matching).Reaches root network count ↔
      t.Reaches root network count := by
  rw [← mem_depositCountsByRoot, depositCountsByRoot_setReady,
    mem_depositCountsByRoot]

theorem marks_setReady {matching : DepositRow H → Bool}
    {deposit : DepositRow H} {call : StatusCall H} :
    call.Marks (t.setReady true matching) deposit ↔
      call.Marks t deposit := by
  cases call with
  | l1 exitRoot destinationNetwork =>
    simp only [StatusCall.Marks, reaches_setReady]
  | l2 exitRoot rollupID networkID isDestNetL1 =>
    simp only [StatusCall.Marks, reaches_setReady]
    rfl

end Tables

namespace StatusCall

variable {t : Tables H} {call : StatusCall H}

theorem Single.marked (single : call.Single t)
    (calls : List (StatusCall H)) : call.Single (t.marked calls) := by
  rw [Tables.marked]
  cases call with
  | l1 exitRoot destinationNetwork =>
    rw [Single, Tables.depositCountsByRoot_setReady]
    exact single
  | l2 exitRoot rollupID networkID isDestNetL1 =>
    simp only [Single, Tables.depositCountsByRoot_setReady]
    exact single

def change (t : Tables H) : StatusCall H → Except Err (Tables H)
  | .l1 exitRoot destinationNetwork => t.readyL1 exitRoot destinationNetwork
  | .l2 exitRoot rollupID networkID isDestNetL1 =>
    t.readyL2 exitRoot rollupID networkID isDestNetL1

theorem change_eq (single : call.Single t) :
    call.change t = .ok (t.marked [call]) := by
  cases call with
  | l1 exitRoot destinationNetwork =>
    rw [change, Tables.readyL1, Tables.markReady_eq single, Tables.marked]
    congr 2
    funext deposit
    simp only [Tables.mem_depositCountsByRoot, mem_singleton, exists_eq_left,
      Marks]
    grind
  | l2 exitRoot rollupID networkID isDestNetL1 =>
    obtain ⟨leaves, counts⟩ := single
    have stored : ∀ row, row ∈ t.rollupExitRows exitRoot rollupID ↔
        row ∈ t.rollupExit ∧ row.root = exitRoot ∧
          row.rollupId = rollupID := by
      simp [Tables.rollupExitRows]
    rw [change, Tables.readyL2]
    match rows : t.rollupExitRows exitRoot rollupID with
    | [] =>
      have none : ∀ deposit,
          ¬(l2 exitRoot rollupID networkID isDestNetL1).Marks t deposit := by
        rintro deposit ⟨_, _, row, inTable, here, mine, _⟩
        have found := (stored row).mpr ⟨inTable, here, mine⟩
        simp [rows] at found
      simp [Tables.marked, Tables.setReady, none]
    | [row] =>
      dsimp only
      have single := counts row (by simp [rows])
      rw [Tables.markReady_eq single, Tables.marked]
      congr 2
      funext deposit
      simp only [rows, mem_singleton] at stored
      simp only [Tables.mem_depositCountsByRoot, mem_singleton,
        exists_eq_left, Marks]
      cases isDestNetL1 <;> grind
    | _ :: _ :: _ => simp [rows] at leaves

theorem run_inTx (single : call.Single t) :
    Triple (World.WithinTx fun t' => t' = t) (call.run .tx)
      (fun _ => World.WithinTx fun t' => t' = t.marked [call])
      fun _ _ => False := by
  have changed := change_eq single
  have updated : ∀ {name : StorageCall},
      Triple (World.WithinTx fun t' => t' = t)
        (Storage.update name .tx fun t => call.change t)
        (fun _ => World.WithinTx fun t' => t' = t.marked [call])
        fun _ _ => False := by
    intro name
    apply Storage.update_inTx
    · rintro _ t' rfl ran
      exact Except.ok.inj (ran.symm.trans changed)
    · rintro _ err rfl ran
      exact nomatch ran.symm.trans changed
  cases call with
  | l1 exitRoot destinationNetwork => exact updated
  | l2 exitRoot rollupID networkID isDestNetL1 => exact updated

end StatusCall

namespace Tables

variable {t : Tables H}

@[simp] theorem marked_nil (t : Tables H) : t.marked [] = t := by
  simp [marked, setReady]

theorem marked_marked (t : Tables H) (calls rest : List (StatusCall H)) :
    (t.marked calls).marked rest = t.marked (calls ++ rest) := by
  have blind : ∀ (deposit : DepositRow H) (call : StatusCall H),
      call.Marks t { deposit with readyForClaim := true } ↔
        call.Marks t deposit := by
    intro deposit call
    cases call <;> rfl
  rw [marked, marked, marked]
  simp only [marks_setReady]
  simp only [setReady, map_map]
  congr 1
  apply map_congr_left
  intro deposit _
  by_cases first : ∃ call ∈ calls, call.Marks t deposit
  · simp [first, blind, or_and_right, exists_or]
  · simp [first, or_and_right, exists_or]

theorem marked_congr (t : Tables H) {calls calls' : List (StatusCall H)}
    (same : ∀ call, call ∈ calls' ↔ call ∈ calls) :
    t.marked calls' = t.marked calls := by
  simp only [marked, same]

theorem RootsDistinct.marked (distinct : t.RootsDistinct)
    (calls : List (StatusCall H)) : (t.marked calls).RootsDistinct := by
  refine ⟨?_, distinct.owners, distinct.roots, distinct.leaves⟩
  simpa [Tables.marked, setReady, Function.comp_def,
    apply_ite DepositRow.id] using distinct.ids

end Tables

namespace StatusCall

variable {t : Tables H}

theorem runAll_inTx {calls : List (StatusCall H)}
    (single : ∀ call ∈ calls, call.Single t) :
    Triple (World.WithinTx fun t' => t' = t) (runAll calls)
      (fun _ => World.WithinTx fun t' => t' = t.marked calls)
      fun _ _ => False := by
  induction calls generalizing t with
  | nil =>
    rw [t.marked_nil]
    exact .pure fun _ start => start
  | cons call rest induction =>
    refine .bind (run_inTx (single call mem_cons_self)) fun _ => ?_
    have later := induction fun other inside =>
      (single other (mem_cons_of_mem _ inside)).marked [call]
    rwa [t.marked_marked, singleton_append] at later

end StatusCall

/-- Status updates close the set of ready deposits: the lookups are
single-valued, the updates return, and a deposit ends ready if it was ready
or one of the updates marks it, whatever the order of the updates and however
often each of them is made. -/
theorem status_updates_close {t : Tables H} {w : World H}
    (distinct : t.RootsDistinct) (opened : w.dbTx = some t)
    (faultless : w.Faultless) (calls : List (StatusCall H)) :
    (∀ root network, (t.depositCountsByRoot root network).length ≤ 1) ∧
      (∀ root rollupID, (t.rollupExitRows root rollupID).length ≤ 1) ∧
      ∃ t', t'.RootsDistinct ∧
        (∀ calls', (∀ call, call ∈ calls' ↔ call ∈ calls) →
          ∃ w', StatusCall.runAll calls' w = .ok () w' ∧
            w'.dbTx = some t') ∧
        t' = { t with deposit := t'.deposit } ∧
        Forall₂ (fun deposit deposit' =>
          deposit' =
            { deposit with readyForClaim := deposit'.readyForClaim } ∧
          (deposit'.readyForClaim = true ↔ deposit.readyForClaim = true ∨
            ∃ call ∈ calls, call.Marks t deposit)) t.deposit t'.deposit := by
  refine ⟨distinct.depositCounts, distinct.rollupExitRows, t.marked calls,
    distinct.marked calls, fun calls' same => ?_, rfl, ?_⟩
  · obtain ⟨_, w', ran, _, t', opened', rfl⟩ :=
      (StatusCall.runAll_inTx fun call _ => distinct.single call).exists_ok w
        ⟨faultless, t, opened, rfl⟩ fun _ _ never => never
    rw [t.marked_congr same] at opened'
    exact ⟨w', ran, opened'⟩
  · rw [Tables.marked, Tables.setReady, forall₂_map_right_iff, forall₂_same]
    intro deposit _
    by_cases marked : ∃ call ∈ calls, call.Marks t deposit
    · simp [marked]
    · simp [marked]

section Samples

/-- A deposit of L1 and one of a rollup, with the roots after them. -/
def unmarkedTables : Tables Digest :=
  { Tables.empty with
    deposit := [Storage.depositRow 1 (sampleDeposit 0 0),
      Storage.depositRow 2 (sampleDeposit 1 0)]
    root := [⟨hashZero, 1, 0⟩, ⟨hash hashZero hashZero, 2, 1⟩]
    rollupExit :=
      [{ id := 1
         leaf := hash hashZero hashZero
         rollupId := 1
         root := hashZero
         blockID := 1 }] }

def unmarkedWorld : World Digest :=
  { World.start 2 [] with dbTx := some unmarkedTables }

theorem unmarkedTables_distinct : unmarkedTables.RootsDistinct :=
  ⟨by decide, by decide, by decide, by decide⟩

theorem updates_in_any_order :
    ∃ (w' w'' : World Digest) (t' : Tables Digest),
      StatusCall.runAll [.l1 hashZero 0, .l2 hashZero 1 1 true]
        unmarkedWorld = .ok () w' ∧ w'.dbTx = some t' ∧
      StatusCall.runAll
        [.l2 hashZero 1 1 true, .l1 hashZero 0, .l1 hashZero 0]
        unmarkedWorld = .ok () w'' ∧ w''.dbTx = some t' ∧
      ∀ deposit ∈ t'.deposit, deposit.readyForClaim = true := by
  obtain ⟨_, _, t', _, closes, _, paired⟩ := status_updates_close
    unmarkedTables_distinct (show unmarkedWorld.dbTx = _ from rfl)
    (fun _ _ _ => rfl) [.l1 hashZero 0, .l2 hashZero 1 1 true]
  obtain ⟨w', ran, opened⟩ := closes _ fun _ => Iff.rfl
  obtain ⟨w'', ran', opened'⟩ := closes
    [.l2 hashZero 1 1 true, .l1 hashZero 0, .l1 hashZero 0]
    (by simp [or_comm])
  refine ⟨w', w'', t', ran, opened, ran', opened', ?_⟩
  intro deposit' stored
  obtain ⟨deposit, stored, _, ready⟩ := SideBySide.exists_left paired stored
  have marked : ∀ deposit ∈ unmarkedTables.deposit,
      ∃ call ∈ [StatusCall.l1 hashZero 0, .l2 hashZero 1 1 true],
        call.Marks unmarkedTables deposit := by
    decide
  exact ready.mpr (.inr (marked deposit stored))

end Samples

end BridgeService
