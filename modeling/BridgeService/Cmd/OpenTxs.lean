import BridgeService.Claimtxman.GivenUp
import BridgeService.Cmd.Run

/-!
# Open database transactions

A global exit root is handled by three routines that open database
transactions.  Two of their exits leave a transaction open: the claim
transaction manager returns without a rollback if it finds no global exit root
for the first deposit twice, and the goroutine that handles global exit roots
without a claim transaction manager goes on to the next one if the exit roots
are missing.
-/

namespace BridgeService

open Calls ErrorState

variable {H : Type}

/-- Whether a database transaction is open, and how often no global exit root
was found in it. -/
structure OpenTx where
  opened : Bool
  missing : Nat

/-- A transaction is opened only if none is open. -/
def openProtocol (H : Type) : Protocol (claimInterface H) OpenTx where
  start := ⟨false, 0⟩
  ends := fun _ => True
  allowed := fun position call =>
    match (call : ClaimCall H) with
    | .beginDBTransaction => position.opened = false
    | _ => True
  expected := fun _ _ => True
  track := fun position call answer =>
    match (call : ClaimCall H), answer with
    | .beginDBTransaction, .ok _ => ⟨true, 0⟩
    | .commit, _ => ⟨false, 0⟩
    | .rollback, _ => ⟨false, 0⟩
    | .getLatestTrustedGERByDeposit _ _ _, .error .notFound =>
      { position with missing := position.missing + 1 }
    | _, _ => position

namespace ClaimTxSender

/-- The transaction is left open exactly if no global exit root was found
twice. -/
def Settled (result : Except GoErr Unit) (position : OpenTx) : Prop :=
  result = .error .panic ∨ (position.opened = true ↔ position.missing = 2)

private theorem addClaimTx_keeps (tm : ClaimTxSender) (deposit : Deposit H)
    (fromAddr : Address) (toAddr : Option Address) (value : Option Nat)
    (data : Bytes) (ger : H) {position : OpenTx} :
    (tm.addClaimTx deposit fromAddr toAddr value data ger).Follows
      (openProtocol H) (fun _ position' => position' = position)
      position := by
  rw [addClaimTx]
  refine follows_bind (follows_estimateGas (fun _ _ => ⟨trivial, rfl⟩) _ _
    _) ?_
  rintro (err | gas) _ rfl
  · refine follows_ask trivial ?_
    rintro (err | number) _
    · rfl
    · refine follows_ask trivial ?_
      rintro (err | currentL1Block) _
      · rfl
      · change Program.Follows _ _ _ (Program.bind (ite (_ < _) _ _) _)
        split
        · exact ⟨trivial, fun _ _ => rfl⟩
        · rfl
  · refine follows_ask trivial ?_
    rintro (err | nonce) _
    · rfl
    · refine follows_ask trivial fun tempNonce _ => ?_
      refine follows_ask trivial fun _ _ => ?_
      refine follows_ask trivial ?_
      rintro (err | _) _
      · rfl
      · rfl

private theorem open_rules (tm : ClaimTxSender) :
    PendingRules tm (openProtocol H) (fun position => position = ⟨false, 0⟩)
      (fun position => position = ⟨true, 0⟩)
      (fun position => position.opened = true) Settled where
  ends := by
    rintro _ result rfl
    exact .inr ⟨nofun, nofun⟩
  panics := fun _ => .inl rfl
  stores := by
    rintro _ rfl
    rfl
  begins := by
    rintro _ rfl
    exact ⟨rfl, rfl, fun _ => rfl⟩
  reads := by
    intro p call reads opened
    cases call <;> first
      | exact reads.elim
      | exact ⟨trivial, fun _ => opened⟩
  commits := fun _ => ⟨trivial, fun _ => rfl⟩
  rollsBack := fun _ => ⟨trivial, fun _ => rfl⟩
  adds := by
    rintro _ rfl deposit toAddr data ger
    refine (addClaimTx_keeps tm deposit _ _ _ _ _).mono ?_
    rintro result _ rfl
    exact ⟨rfl, fun _ _ => rfl⟩
  trusts := by
    rintro _ rfl deposits first
    have undone : ∀ err position, (rollbackState err : Goroutine H _).Follows
        (openProtocol H) Settled position := by
      intro err position
      refine follows_rollbackState trivial ?_ err
      exact fun _ _ => .inr ⟨nofun, nofun⟩
    rw [trustedGER]
    refine follows_ask trivial ?_
    rintro ((_ | err) | globalExitRoot) _
    · refine follows_ask trivial ?_
      rintro ((_ | err) | globalExitRoot) _
      · exact .inr ⟨fun _ => rfl, fun _ => rfl⟩
      · exact follows_bind (undone _ _) fun _ _ closed => closed
      · rfl
    · exact follows_bind (undone _ _) fun _ _ closed => closed
    · rfl

end ClaimTxSender

section Channel

variable [DecidableEq H]

/-- Errors are only logged. -/
def logged (program : Service H Unit) : Service H Unit :=
  handle program fun
    | .panic => throw .panic
    | _ => pure ()

/-- One iteration of the goroutine that handles the global exit roots of a
network without a claim transaction manager. -/
def monitorChannel (networkID : Nat) (ger : GlobalExitRoot H) :
    Service H Unit :=
  logged do
    Storage.beginDBTransaction
    if ger.exitRoots.length = 0 then pure ()
    else
      if ger.blockID ≠ 0 ∧ ger.networkID = 0 then
        let rollupExitRoot ← ClaimTxManager.exitRootAt ger 1
        ClaimTxManager.orRollbackState (Storage.updateL2DepositsStatus
          rollupExitRoot networkID networkID true .tx)
      else
        let mainnetExitRoot ← ClaimTxManager.exitRootAt ger 0
        ClaimTxManager.orRollbackState
          (Storage.updateL1DepositsStatus mainnetExitRoot networkID .tx)
        let rollupExitRoot ← ClaimTxManager.exitRootAt ger 1
        ClaimTxManager.orRollbackState (Storage.updateL2DepositsStatus
          rollupExitRoot networkID networkID false .tx)
      ClaimTxManager.orRollbackState Storage.commit

variable {w w' : World H} {networkID : Nat} {ger : GlobalExitRoot H}

omit [DecidableEq H] in
private theorem ends_of_logged {program : Service H Unit}
    (ended : (logged program).Ends w w') : program.Ends w w' := by
  rw [Service.Ends, logged, handle] at ended
  cases ran : program w with
  | ok value next =>
    simp only [ran] at ended
    rcases ended with ⟨value, same⟩ | ⟨err, returned, failed⟩
    · exact .inl ⟨value, ran.trans same⟩
    · contradiction
  | error err next =>
    simp only [ran] at ended
    by_cases panicked : err = .panic
    · subst panicked
      rcases ended with ⟨value, same⟩ | ⟨err, returned, failed⟩
      · contradiction
      · exact .inr ⟨err, returned, ran.trans failed⟩
    · have same : next = w' := by
        cases err with
        | panic => contradiction
        | _ =>
          rcases ended with ⟨value, same⟩ | ⟨err, returned, failed⟩
          · injection same
          · contradiction
      exact .inr ⟨err, panicked, same ▸ ran⟩

private theorem monitorChannel_eq (known : ger.exitRoots ≠ []) :
    monitorChannel networkID ger =
      logged (ClaimTxManager.updateDepositsStatus
        { l2NetworkID := networkID
          rollupID := networkID } ger) := by
  simp only [monitorChannel, ClaimTxManager.updateDepositsStatus,
    List.length_eq_zero_iff, known, if_false]

private theorem updateDepositsStatus_openTxs {tm : ClaimTxManager}
    (ended : (tm.updateDepositsStatus ger).Ends w w') :
    w'.openTxs = w.openTxs := by
  cases fault : w.fault w.tick .beginDBTransaction .pool with
  | true =>
    have began : Storage.beginDBTransaction w =
        .error .database w.advance := by
      rw [begin_eq, if_pos fault]
    rw [Service.Ends, ClaimTxManager.updateDepositsStatus,
      bind_of_error began] at ended
    rcases ended with ⟨_, ran⟩ | ⟨err, _, ran⟩
    · contradiction
    · cases ran
      rfl
  | false =>
    -- The transaction that is begun replaces whatever the world holds.
    have began : Storage.beginDBTransaction w = .ok () w.opened := by
      rw [begin_eq, if_neg (by simp [fault])]
    have began' : Storage.beginDBTransaction { w with dbTx := none } =
        .ok () w.opened := by
      rw [begin_eq, if_neg (by simp [fault])]
      rfl
    have same : tm.updateDepositsStatus ger w =
        tm.updateDepositsStatus ger { w with dbTx := none } := by
      rw [ClaimTxManager.updateDepositsStatus, bind_of_ok began,
        bind_of_ok began']
    rw [Service.Ends, same] at ended
    obtain ⟨t, ⟨tick, rfl⟩, _⟩ := updateDepositsStatus_ends rfl ended
    rfl

private theorem monitorChannel_openTxs
    (ended : (monitorChannel networkID ger).Ends w w') :
    w'.openTxs = w.openTxs +
      (decide (ger.exitRoots = [] ∧
        w.fault w.tick .beginDBTransaction .pool = false)).toNat := by
  by_cases known : ger.exitRoots = []
  · rw [Service.Ends, monitorChannel, logged, handle] at ended
    cases fault : w.fault w.tick .beginDBTransaction .pool with
    | true =>
      have began : Storage.beginDBTransaction w =
          .error .database w.advance := by
        rw [begin_eq, if_pos fault]
      rw [bind_of_error began] at ended
      rcases ended with ⟨_, ran⟩ | ⟨err, _, ran⟩
      · injection ran with _ same
        simp [← same, World.advance]
      · contradiction
    | false =>
      have began : Storage.beginDBTransaction w = .ok () w.opened := by
        rw [begin_eq, if_neg (by simp [fault])]
      rw [bind_of_ok began, if_pos (by rw [known]; rfl)] at ended
      rcases ended with ⟨_, ran⟩ | ⟨err, _, ran⟩
      · injection ran with _ same
        simp [← same, World.opened, World.advance, known]
      · contradiction
  · simp only [known, false_and, decide_false, Bool.toNat_false, Nat.add_zero]
    rw [monitorChannel_eq known] at ended
    exact updateDepositsStatus_openTxs (ends_of_logged ended)

/-- The database with the transactions of two of the routines, and the number
of transactions that runs of the claim transaction manager have left open. -/
structure GerHandlers (H : Type) where
  world : World H
  left : Nat

def GerHandlers.openTxs (s : GerHandlers H) : Nat :=
  s.world.openTxs + s.left

/-- One routine handles one message, and whether it meets one of the two
exits. -/
inductive GerHandled (s : GerHandlers H) : Bool → GerHandlers H → Prop
  | pending (tm : ClaimTxSender) (ger : GlobalExitRoot H)
      {result : Except GoErr Unit} {position : OpenTx}
      (returns : Program.Returns (openProtocol H) ⟨false, 0⟩
        (tm.processPendingDeposits ger) result position)
      (returned : result ≠ .error .panic) :
      GerHandled s (position.missing = 2)
        { s with left := s.left + position.opened.toNat }
  | status (tm : ClaimTxManager) (ger : GlobalExitRoot H) {w' : World H}
      (ended : (tm.updateDepositsStatus ger).Ends s.world w') :
      GerHandled s false { s with world := w' }
  | monitor (networkID : Nat) (ger : GlobalExitRoot H) {w' : World H}
      (ended : (monitorChannel networkID ger).Ends s.world w') :
      GerHandled s
        (ger.exitRoots = [] ∧
          s.world.fault s.world.tick .beginDBTransaction .pool = false)
        { s with world := w' }

/-- Any number of messages, and how many of them meet one of the exits. -/
inductive GerMessages (s : GerHandlers H) : Nat → GerHandlers H → Prop
  | none : GerMessages s 0 s
  | next {leaks : Nat} {s' s'' : GerHandlers H} {leak : Bool}
      (before : GerMessages s leaks s') (handled : GerHandled s' leak s'') :
      GerMessages s (leaks + leak.toNat) s''

omit [DecidableEq H] in
private theorem processPendingDeposits_settled (tm : ClaimTxSender)
    (ger : GlobalExitRoot H) :
    (tm.processPendingDeposits ger).Follows (openProtocol H)
      ClaimTxSender.Settled ⟨false, 0⟩ :=
  (ClaimTxSender.open_rules tm).processPendingDeposits ger rfl

private theorem GerHandled.openTxs {s s' : GerHandlers H} {leak : Bool}
    (handled : GerHandled s leak s') :
    s'.openTxs = s.openTxs + leak.toNat := by
  cases handled with
  | pending tm ger returns returned =>
    have settled := ((processPendingDeposits_settled tm ger).returns
      returns).resolve_left returned
    have same : decide (_ = 2) = _ :=
      (Bool.eq_iff_iff.mpr (by rw [settled, decide_eq_true_iff])).symm
    rw [same]
    exact (Nat.add_assoc _ _ _).symm
  | status tm ger ended =>
    exact congrArg (· + s.left) (updateDepositsStatus_openTxs ended)
  | monitor networkID ger ended =>
    have counted := monitorChannel_openTxs ended
    simp only [GerHandlers.openTxs]
    omega

private theorem GerMessages.openTxs {s s' : GerHandlers H} {leaks : Nat}
    (messages : GerMessages s leaks s') :
    s'.openTxs = s.openTxs + leaks := by
  induction messages with
  | none => rfl
  | next before handled induction =>
    rw [handled.openTxs, induction, Nat.add_assoc]

/-- A routine that returns has called `Commit` or `Rollback` on its database
transactions, except in two cases: the claim transaction manager leaves one
open exactly if it finds no global exit root for the first deposit twice, and
the other goroutine exactly if it opens one for an entry without exit roots.
After any number of messages, as many transactions have been left open as
messages met one of these cases. -/
theorem transactions_closed_iff :
    (∀ (tm : ClaimTxSender) (ger : GlobalExitRoot H),
      (tm.processPendingDeposits ger).Follows (openProtocol H)
        ClaimTxSender.Settled ⟨false, 0⟩) ∧
      (∀ (w w' : World H) (tm : ClaimTxManager) (ger : GlobalExitRoot H),
        (tm.updateDepositsStatus ger).Ends w w' → w'.openTxs = w.openTxs) ∧
      (∀ (w w' : World H) (networkID : Nat) (ger : GlobalExitRoot H),
        (monitorChannel networkID ger).Ends w w' →
          (w'.openTxs = w.openTxs ↔ ger.exitRoots ≠ [] ∨
            w.fault w.tick .beginDBTransaction .pool = true)) ∧
      ∀ (s s' : GerHandlers H) (leaks : Nat), GerMessages s leaks s' →
        s'.openTxs = s.openTxs + leaks := by
  refine ⟨processPendingDeposits_settled,
    fun _ _ _ _ => updateDepositsStatus_openTxs, ?_,
    fun _ _ _ => GerMessages.openTxs⟩
  intro w w' networkID ger ended
  rw [monitorChannel_openTxs ended]
  by_cases known : ger.exitRoots = [] <;> simp [known]

end Channel

namespace SampleClaims

def entryOfL1 (exitRoots : List Digest) : GlobalExitRoot Digest :=
  { blockID := 1
    blockNumber := 0
    exitRoots := exitRoots
    globalExitRoot := hashZero
    networkID := 0
    id := 0 }

theorem transactions_left_open :
    (∃ w', (monitorChannel 1 (entryOfL1 [])).Ends (World.start 2 [0, 1]) w' ∧
      w'.openTxs = 1) ∧
      ¬(impatient.processPendingDeposits
        (entryOfL1 [hashZero, hashZero])).Follows (openProtocol Digest)
        (fun result position => result = .error .panic ∨
          position.opened = false) ⟨false, 0⟩ := by
  refine ⟨⟨_, .inl ⟨_, rfl⟩, rfl⟩, ?_⟩
  intro closes
  have opened := closes.2 (.ok ()) trivial
  have selected :=
    opened.2 (.ok [(Tables.readyDeposit 2 1).toDeposit 0]) trivial
  have again := selected.2 (.error .notFound) trivial
  rcases again.2 (.error .notFound) trivial with panicked | closed
  · contradiction
  · contradiction

theorem transactions_closed_sample :
    ∃ w', (monitorChannel 1 (entryOfL1 [hashZero, hashZero])).Ends
      (World.start 2 [0, 1]) w' ∧ w'.openTxs = 0 := by
  have returned : returns (monitorChannel 1 (entryOfL1 [hashZero, hashZero]))
      (fun _ _ => true) (World.start 2 [0, 1]) = true := by
    decide +kernel
  obtain ⟨value, w', ran, _⟩ := exists_of_returns returned
  refine ⟨w', .inl ⟨value, ran⟩, ?_⟩
  exact (transactions_closed_iff.2.2.1 _ w' 1 _
    (.inl ⟨value, ran⟩)).mpr (.inl nofun)

end SampleClaims

end BridgeService
