import BridgeService.Synchronizer.Transaction

/-!
# Status of deposits

The claim transaction manager of an L2 network receives global exit roots and
marks deposits as ready for claim.  An entry of L1 marks the deposits of the
network with destination L1.  An entry of the network itself marks the L1
deposits with the network as destination, and the deposits of the network with
any L2 destination.
-/

namespace BridgeService

open ErrorState

variable {H α : Type}

structure ClaimTxManager where
  l2NetworkID : Nat
  rollupID : Nat
deriving DecidableEq

namespace ClaimTxManager

def rollbackState (err : Err) : Service H α := do
  Storage.rollback
  throw err

/-- Roll back when a call fails; a panic is not an error. -/
def orRollbackState (call : Service H α) : Service H α :=
  handle call fun
    | .panic => throw .panic
    | err => rollbackState err

def exitRootAt (ger : GlobalExitRoot H) (index : Nat) : Service H H :=
  match ger.exitRoots[index]? with
  | none => throw .panic
  | some exitRoot => pure exitRoot

def updateDepositsStatus [DecidableEq H] (tm : ClaimTxManager)
    (ger : GlobalExitRoot H) : Service H Unit := do
  Storage.beginDBTransaction
  if ger.blockID ≠ 0 ∧ ger.networkID = 0 then
    let rollupExitRoot ← exitRootAt ger 1
    orRollbackState (Storage.updateL2DepositsStatus rollupExitRoot
      tm.rollupID tm.l2NetworkID true .tx)
  else
    let mainnetExitRoot ← exitRootAt ger 0
    orRollbackState
      (Storage.updateL1DepositsStatus mainnetExitRoot tm.l2NetworkID .tx)
    let rollupExitRoot ← exitRootAt ger 1
    orRollbackState (Storage.updateL2DepositsStatus rollupExitRoot
      tm.rollupID tm.l2NetworkID false .tx)
  orRollbackState Storage.commit

end ClaimTxManager

section Tables

variable [DecidableEq H]

namespace Tables

/-- L1 deposits for a network, up to the deposit with a mainnet exit root. -/
def readyL1 (t : Tables H) (exitRoot : H) (destinationNetwork : Nat) :
    Except Err (Tables H) :=
  Storage.markReady t (t.depositCountsByRoot exitRoot 0) fun row =>
    row.networkID == 0 && row.destNet == destinationNetwork

/-- Deposits of a network, up to the deposit with the exit root that the
network has under a rollup exit root. -/
def readyL2 (t : Tables H) (exitRoot : H) (rollupID networkID : Nat)
    (isDestNetL1 : Bool) : Except Err (Tables H) :=
  match t.rollupExitRows exitRoot rollupID with
  | [] => .ok t
  | [row] =>
    Storage.markReady t (t.depositCountsByRoot row.leaf networkID)
      fun deposit => deposit.networkID == networkID &&
        if isDestNetL1 then deposit.destNet == 0 else deposit.destNet != 0
  | _ => .error .database

end Tables

inductive StatusUpdated (tm : ClaimTxManager) (ger : GlobalExitRoot H)
    (t : Tables H) : Tables H → Prop
  | ofL1 {rollupExitRoot : H} {t' : Tables H}
      (l1 : ger.blockID ≠ 0 ∧ ger.networkID = 0)
      (root : ger.exitRoots[1]? = some rollupExitRoot)
      (marked : t.readyL2 rollupExitRoot tm.rollupID tm.l2NetworkID true =
        .ok t') :
      StatusUpdated tm ger t t'
  | ofL2 {mainnetExitRoot rollupExitRoot : H} {t' t'' : Tables H}
      (l2 : ¬(ger.blockID ≠ 0 ∧ ger.networkID = 0))
      (root : ger.exitRoots[0]? = some mainnetExitRoot)
      (marked : t.readyL1 mainnetExitRoot tm.l2NetworkID = .ok t')
      (root' : ger.exitRoots[1]? = some rollupExitRoot)
      (marked' : t'.readyL2 rollupExitRoot tm.rollupID tm.l2NetworkID false =
        .ok t'') :
      StatusUpdated tm ger t t''

omit [DecidableEq H] in
theorem markReady_preserves {holds : Tables H → Prop}
    (closed : ∀ t matching, holds t → holds (t.setReady true matching))
    {t t' : Tables H} {counts : List Nat} {matching : DepositRow H → Bool}
    (start : holds t)
    (marked : Storage.markReady t counts matching = .ok t') :
    holds t' := by
  rw [Storage.markReady.eq_def] at marked
  split at marked
  · rw [← Except.ok.inj marked]
    exact start
  · rw [← Except.ok.inj marked]
    exact closed t _ start
  · contradiction

theorem StatusUpdated.preserves {holds : Tables H → Prop}
    (closed : ∀ t matching, holds t → holds (t.setReady true matching))
    {tm : ClaimTxManager} {ger : GlobalExitRoot H} {t t' : Tables H}
    (updated : StatusUpdated tm ger t t') (start : holds t) : holds t' := by
  have l2 : ∀ {t t' : Tables H} {exitRoot : H} {isDestNetL1 : Bool},
      holds t →
      t.readyL2 exitRoot tm.rollupID tm.l2NetworkID isDestNetL1 = .ok t' →
      holds t' := by
    intro t t' exitRoot isDestNetL1 start marked
    rw [Tables.readyL2.eq_def] at marked
    split at marked
    · rw [← Except.ok.inj marked]
      exact start
    · exact markReady_preserves closed start marked
    · contradiction
  cases updated with
  | ofL1 l1 root marked => exact l2 start marked
  | ofL2 _ root marked root' marked' =>
    exact l2 (markReady_preserves closed start marked) marked'

end Tables

section Effects

def World.Published (before : World H) (t : Tables H) (w : World H) : Prop :=
  ∃ tick, w =
    { before with
      committed := t
      tick := tick }

private def World.InTx (before : World H) (t : Tables H) (w : World H) :
    Prop :=
  ∃ tick, w =
    { before.opened with
      dbTx := some t
      tick := tick }

variable {before : World H} {t : Tables H}

private theorem update_inTx {call : StorageCall}
    (change : Tables H → Except Err (Tables H)) :
    Triple (before.InTx t) (Storage.update call .tx change)
      (fun _ w => ∃ t', change t = .ok t' ∧ before.InTx t' w)
      (fun _ => before.InTx t) := by
  rintro _ ⟨tick, rfl⟩
  have advanced : before.InTx t
      { before.opened with
        dbTx := some t
        tick := tick + 1 } := ⟨_, rfl⟩
  cases fault : before.fault tick call .tx with
  | true =>
    rw [Storage.update, Storage.exec_faulty fault]
    exact advanced
  | false =>
    rw [Storage.update, Storage.exec_view fault rfl]
    cases changed : change t with
    | error err => exact advanced
    | ok t' => exact ⟨t', rfl, _, rfl⟩

private theorem commit_inTx (idle : before.dbTx = none) :
    Triple (before.InTx t) Storage.commit (fun _ => before.Published t)
      (fun _ => before.InTx t) := by
  rintro _ ⟨tick, rfl⟩
  cases ran : Storage.commit
      { before.opened with
        dbTx := some t
        tick := tick } with
  | ok _ w' =>
    change (if before.fault tick .commit .tx then _ else _) = _ at ran
    split at ran
    · contradiction
    · injection ran with _ same
      refine ⟨tick + 1, ?_⟩
      rw [← same]
      simp [World.opened, World.advance, idle]
  | error err w' =>
    change (if before.fault tick .commit .tx then _ else _) = _ at ran
    split at ran
    · cases ran
      exact ⟨tick + 1, rfl⟩
    · contradiction

private theorem rollback_inTx (idle : before.dbTx = none) (err : Err)
    {after : α → World H → Prop} :
    Triple (before.InTx t) (ClaimTxManager.rollbackState err) after
      (fun _ => before.Published before.committed) := by
  rintro _ ⟨tick, rfl⟩
  have undone : Storage.rollback
      { before.opened with
        dbTx := some t
        tick := tick } =
      if before.fault tick .rollback .tx then
        .error .database { before with tick := tick + 1 }
      else .ok () { before with tick := tick + 1 } := by
    simp [Storage.rollback, World.opened, World.advance, idle]
  rw [ClaimTxManager.rollbackState]
  split at undone
  · rw [bind_of_error undone]
    exact ⟨tick + 1, rfl⟩
  · rw [bind_of_ok undone]
    exact ⟨tick + 1, rfl⟩

/-- Outcome of a failed update: the transaction has been undone, unless the
service panicked. -/
private def World.Undone (before : World H) (err : Err) (w : World H) :
    Prop :=
  err = .panic ∨ before.Published before.committed w

private theorem orRollbackState_triple (idle : before.dbTx = none)
    {call : Service H α}
    {after : α → World H → Prop} {t : Tables H}
    (body : Triple (before.InTx t) call after (fun _ => before.InTx t)) :
    Triple (before.InTx t) (ClaimTxManager.orRollbackState call) after
      before.Undone := by
  apply Triple.handle body
  intro err
  by_cases panicked : err = .panic
  · subst panicked
    exact .throw fun _ _ => .inl rfl
  · have undone : Triple (before.InTx t)
        (ClaimTxManager.rollbackState err : Service H α) after
        before.Undone :=
      (rollback_inTx idle err).onError fun _ _ result => .inr result
    cases err with
    | panic => contradiction
    | _ => exact undone

private theorem exitRootAt_triple {holds : World H → Prop}
    (ger : GlobalExitRoot H) (index : Nat) :
    Triple holds (ClaimTxManager.exitRootAt ger index)
      (fun exitRoot w => holds w ∧ ger.exitRoots[index]? = some exitRoot)
      before.Undone := by
  rw [ClaimTxManager.exitRootAt]
  cases found : ger.exitRoots[index]? with
  | none => exact .throw fun _ _ => .inl rfl
  | some exitRoot => exact .pure fun _ start => ⟨start, rfl⟩

variable [DecidableEq H]

private theorem update_body (idle : before.dbTx = none)
    (tm : ClaimTxManager) (ger : GlobalExitRoot H) :
    Triple (before.InTx before.committed)
      (do
        if ger.blockID ≠ 0 ∧ ger.networkID = 0 then
          let rollupExitRoot ← ClaimTxManager.exitRootAt ger 1
          ClaimTxManager.orRollbackState
            (Storage.updateL2DepositsStatus rollupExitRoot tm.rollupID
              tm.l2NetworkID true .tx)
        else
          let mainnetExitRoot ← ClaimTxManager.exitRootAt ger 0
          ClaimTxManager.orRollbackState
            (Storage.updateL1DepositsStatus mainnetExitRoot tm.l2NetworkID .tx)
          let rollupExitRoot ← ClaimTxManager.exitRootAt ger 1
          ClaimTxManager.orRollbackState
            (Storage.updateL2DepositsStatus rollupExitRoot tm.rollupID
              tm.l2NetworkID false .tx)
        ClaimTxManager.orRollbackState Storage.commit)
      (fun _ w => ∃ t, StatusUpdated tm ger before.committed t ∧
        before.Published t w)
      before.Undone := by
  have marking : ∀ {t : Tables H} {call : StorageCall}
      (change : Tables H → Except Err (Tables H)),
      Triple (before.InTx t)
        (ClaimTxManager.orRollbackState (Storage.update call .tx change))
        (fun _ w => ∃ t', change t = .ok t' ∧ before.InTx t' w)
        before.Undone := fun change =>
    orRollbackState_triple idle (update_inTx change)
  have ending : Triple
      (fun w => ∃ t, StatusUpdated tm ger before.committed t ∧
        before.InTx t w)
      (ClaimTxManager.orRollbackState Storage.commit)
      (fun _ w => ∃ t, StatusUpdated tm ger before.committed t ∧
        before.Published t w)
      before.Undone := by
    rintro w ⟨t, updated, inTx⟩
    refine (orRollbackState_triple idle
      ((commit_inTx idle).post (fun _ _ published => ?_))) w inTx
    exact ⟨t, updated, published⟩
  by_cases l1 : ger.blockID ≠ 0 ∧ ger.networkID = 0
  · simp only [l1, not_false_eq_true, ne_eq, and_self, if_true]
    refine .bind (exitRootAt_triple ger 1) fun rollupExitRoot => ?_
    rintro w ⟨inTx, root⟩
    refine (Triple.bind ((marking _).post (fun _ w result => ?_))
      fun _ => ending) w inTx
    obtain ⟨t', marked, inTx'⟩ := result
    exact ⟨t', .ofL1 l1 root marked, inTx'⟩
  · simp only [l1, if_false]
    refine .bind (exitRootAt_triple ger 0) fun mainnetExitRoot => ?_
    rintro w ⟨inTx, root⟩
    refine (Triple.bind (marking _) fun _ => ?_) w inTx
    rintro w ⟨t', marked, inTx'⟩
    refine (Triple.bind (exitRootAt_triple ger 1)
      fun rollupExitRoot => ?_) w inTx'
    rintro w ⟨inTx', root'⟩
    refine (Triple.bind ((marking _).post (fun _ w result => ?_))
      fun _ => ending) w inTx'
    obtain ⟨t'', marked', inTx''⟩ := result
    exact ⟨t'', .ofL2 l1 root marked root' marked', inTx''⟩

namespace ClaimTxManager

variable {tm : ClaimTxManager} {ger : GlobalExitRoot H} {w : World H}

theorem updateDepositsStatus_ok (idle : before.dbTx = none)
    (ran : tm.updateDepositsStatus ger before = .ok () w) :
    ∃ t, StatusUpdated tm ger before.committed t ∧
      before.Published t w := by
  obtain ⟨_, opened, began, rest⟩ := bind_ok ran
  rw [begin_ok began] at rest
  exact (update_body idle tm ger).ok ⟨_, rfl⟩ rest

theorem updateDepositsStatus_error (idle : before.dbTx = none)
    {err : Err}
    (ran : tm.updateDepositsStatus ger before = .error err w) :
    err = .panic ∨ before.Published before.committed w := by
  rcases bind_error ran with began | ⟨_, opened, began, rest⟩
  · rw [begin_eq] at began
    split at began
    · cases began
      exact .inr ⟨_, rfl⟩
    · contradiction
  · rw [begin_ok began] at rest
    exact (update_body idle tm ger).error ⟨_, rfl⟩ rest

end ClaimTxManager

end Effects

end BridgeService
