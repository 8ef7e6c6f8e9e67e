import BridgeService.Claimtxman.MonitorTxs
import BridgeService.Claimtxman.PendingRules

/-!
# How the goroutines use nonces

A goroutine takes a nonce in three calls: it asks the node, reads the cache and
adds the new nonce to the cache.  A nonce that was taken is in its hands until
the database transaction ends.  In one database transaction at most one row is
written, with a nonce that is in the hands or that the row had before.

The goroutine that creates claim transactions does nothing else between taking
a nonce and storing it.  The monitor changes only rows that it has read in the
same pass, and every row at most once.
-/

namespace BridgeService

open Calls

variable {H : Type}

inductive NoncePhase
  | idle
  | asked (fromAddr : Address) (nonce : Nat)
  | read (fromAddr : Address) (nonce : Nat)
deriving DecidableEq

structure NoncePosition (H : Type) where
  phase : NoncePhase
  hands : List (Address × Nat)
  written : Bool
  copies : List (MonitoredTx H)

namespace NoncePosition

/-- The goroutine is not taking a nonce and has not written a row; the
goroutine that creates claim transactions, for a sender, also has no nonce in
its hands. -/
structure Ready (creates : Option Address) (position : NoncePosition H) :
    Prop where
  phase : position.phase = .idle
  written : position.written = false
  hands : creates.isSome → position.hands = []

structure Closable (creates : Option Address) (position : NoncePosition H) :
    Prop where
  phase : position.phase = .idle
  stored : creates.isSome → position.hands ≠ [] → position.written = true

theorem Ready.closable {creates : Option Address} {position : NoncePosition H}
    (ready : position.Ready creates) : position.Closable creates :=
  ⟨ready.phase, fun strict hands => absurd (ready.hands strict) hands⟩

def Covers (position : NoncePosition H) (mTx : MonitoredTx H) : Prop :=
  ∃ copy, copy ∈ position.copies ∧ copy.depositID = mTx.depositID ∧
    copy.fromAddr = mTx.fromAddr ∧
    (mTx.nonce = copy.nonce ∨ (mTx.fromAddr, mTx.nonce) ∈ position.hands)

def allowed (creates : Option Address) (position : NoncePosition H) :
    ClaimCall H → Prop
  | .cacheGet fromAddr => ∃ nonce, position.phase = .asked fromAddr nonce
  | .cacheAdd fromAddr nonce => position.phase = .read fromAddr nonce
  | .cacheRemove _ => creates = none ∧ position.Ready creates
  | .getClaimTxsByStatus statuses _ =>
    creates = none ∧ statuses = [.created] ∧ position.Ready creates
  | .nonceAt fromAddr =>
    position.Ready creates ∧ ∀ sender, creates = some sender →
      fromAddr = sender
  | .addClaimTx mTx =>
    creates.isSome ∧ position.phase = .idle ∧ position.written = false ∧
      mTx.status = .created ∧
      position.hands = [(mTx.fromAddr, mTx.nonce)]
  | .updateClaimTx mTx =>
    creates = none ∧ position.Ready creates ∧ position.Covers mTx
  | .commit => position.Closable creates
  | _ => position.Ready creates

def closed (position : NoncePosition H) : NoncePosition H :=
  { position with
    hands := []
    written := false }

def track (position : NoncePosition H) :
    (call : ClaimCall H) → call.Answer → NoncePosition H
  | .nonceAt fromAddr, .ok nonce =>
    { position with phase := .asked fromAddr nonce }
  | .cacheGet fromAddr, tempNonce =>
    match position.phase with
    | .asked _ nonce =>
      { position with
        phase := .read fromAddr (NonceCache.next nonce tempNonce) }
    | _ => position
  | .cacheAdd fromAddr nonce, _ =>
    { position with
      phase := .idle
      hands := (fromAddr, nonce) :: position.hands }
  | .getClaimTxsByStatus _ _, .ok mTxs => { position with copies := mTxs }
  | .addClaimTx _, .ok _ => { position with written := true }
  | .addClaimTx _, .error _ => { position with hands := [] }
  | .updateClaimTx mTx, _ =>
    { position with
      written := true
      copies := position.copies.filter fun copy =>
        copy.depositID ≠ mTx.depositID }
  | .beginDBTransaction, _ => position.closed
  | .commit, _ => position.closed
  | .rollback, _ => position.closed
  | _, _ => position

/-- The rows that are read belong to different deposits. -/
def expected : (call : ClaimCall H) → call.Answer → Prop
  | .getClaimTxsByStatus _ _, .ok mTxs =>
    (mTxs.map MonitoredTx.depositID).Nodup
  | _, _ => True

theorem expected_of_ne {call : ClaimCall H} {answer : call.Answer}
    (other : ∀ statuses rollupID,
      call ≠ .getClaimTxsByStatus statuses rollupID) :
    expected call answer := by
  unfold expected
  split
  · exact absurd rfl (other _ _)
  · trivial

end NoncePosition

open NoncePosition

def nonceProtocol (H : Type) (creates : Option Address) :
    Protocol (claimInterface H) (NoncePosition H) where
  start :=
    { phase := .idle
      hands := []
      written := false
      copies := [] }
  ends := NoncePosition.Ready creates
  allowed := NoncePosition.allowed creates
  expected := NoncePosition.expected
  track := NoncePosition.track

section Nonces

variable {creates : Option Address} {position : NoncePosition H}

theorem follows_getNextNonce (ready : position.Ready creates)
    {fromAddr : Address}
    (own : ∀ sender, creates = some sender → fromAddr = sender) :
    (NonceCache.getNextNonce fromAddr : Goroutine H _).Follows
      (nonceProtocol H creates)
      (fun answer position' =>
        (∃ err, answer = .error err ∧ position' = position) ∨
          ∃ nonce, answer = .ok nonce ∧ position' =
            { position with hands := (fromAddr, nonce) :: position.hands })
      position := by
  rw [NonceCache.getNextNonce]
  refine follows_ask ⟨ready, own⟩ ?_
  rintro (err | nonce) _
  · exact .inl ⟨err, rfl, rfl⟩
  · refine follows_ask ⟨nonce, rfl⟩ fun tempNonce _ => ?_
    refine follows_ask rfl fun _ _ => ?_
    refine .inr ⟨NonceCache.next nonce tempNonce, rfl, ?_⟩
    simp [nonceProtocol, NoncePosition.track, ready.phase]

theorem NoncePosition.Ready.keepsGas (ready : position.Ready creates) :
    KeepsGas (nonceProtocol H creates) position :=
  fun _ _ => ⟨ready, rfl⟩

theorem NoncePosition.Closable.closed (closable : position.Closable creates) :
    position.closed.Ready creates :=
  ⟨closable.phase, rfl, fun _ => rfl⟩

end Nonces

namespace ClaimTxSender

variable {sender : Address} {position : NoncePosition H}

/-- The goroutine that creates claim transactions works by the protocol and has
no nonce in its hands at the end. -/
abbrev Creates {α : Type} (sender : Address) (position : NoncePosition H)
    (program : Goroutine H α) : Prop :=
  program.Follows (nonceProtocol H (some sender))
    (fun _ position' => position'.Ready (some sender)) position

private theorem creates_ignore (tm : ClaimTxSender) (deposit : Deposit H)
    (ready : position.Ready (some sender)) :
    Creates sender position (tm.ignoreAfterXL1Blocks deposit) := by
  rw [ignoreAfterXL1Blocks]
  refine follows_ask ready ?_
  rintro (err | currentL1BlockNumber) _
  · exact ready
  · refine follows_ask ready ?_
    rintro (err | currentL1Block) _
    · exact ready
    · simp only []
      split
      · exact follows_ask ready fun _ _ => ready
      · exact ready

private theorem follows_addClaimTx (tm : ClaimTxSender) (deposit : Deposit H)
    (fromAddr : Address) (toAddr : Option Address) (value : Option Nat)
    (data : Bytes) (ger : H) (ready : position.Ready (some sender))
    (own : fromAddr = sender) :
    (tm.addClaimTx deposit fromAddr toAddr value data ger).Follows
      (nonceProtocol H (some sender))
      (fun result position' => position'.Closable (some sender) ∧
        ∀ err, result = .error err → position'.Ready (some sender))
      position := by
  rw [addClaimTx]
  refine follows_bind (follows_estimateGas ready.keepsGas _ _ _) ?_
  rintro (err | gas) current rfl
  · refine follows_bind (creates_ignore tm deposit ready) ?_
    exact fun _ _ ready => ⟨ready.closable, fun _ _ => ready⟩
  · refine follows_bind (follows_getNextNonce ready (by simpa using own)) ?_
    rintro _ _ (⟨err, rfl, rfl⟩ | ⟨nonce, rfl, rfl⟩)
    · exact ⟨ready.closable, fun _ _ => ready⟩
    · have hands := ready.hands rfl
      refine follows_ask
        ⟨rfl, ready.phase, ready.written, rfl, by simp [hands,
          newMonitoredTx]⟩ ?_
      rintro (err | _) _
      · have dropped : NoncePosition.Ready (some sender)
            { current with hands := [] } :=
          ⟨ready.phase, ready.written, fun _ => rfl⟩
        exact ⟨dropped.closable, fun _ _ => dropped⟩
      · exact ⟨⟨ready.phase, fun _ _ => rfl⟩, nofun⟩

private theorem nonce_rules (tm : ClaimTxSender)
    (own : tm.fromAddr = sender) :
    PendingRules tm (nonceProtocol H (some sender)) (Ready (some sender))
      (Ready (some sender)) (Closable (some sender))
      fun _ => Ready (some sender) where
  ends := fun _ ready => ready
  panics := fun ready => ready
  stores := Ready.closable
  begins := fun ready =>
    ⟨ready, ready.closable.closed, fun _ => ready.closable.closed⟩
  reads := by
    intro p call reads ready
    cases call <;> first
      | exact reads.elim
      | exact ⟨ready, fun _ => ready⟩
  commits := fun closable => ⟨closable, fun _ => closable.closed⟩
  rollsBack := by
    rintro p (ready | ready)
    · exact ⟨ready, fun _ => ready.closable.closed⟩
    · exact ⟨ready, fun _ => ready.closable.closed⟩
  adds := fun ready deposit _ _ _ =>
    follows_addClaimTx tm deposit _ _ _ _ _ ready own
  trusts := by
    intro p ready deposits first
    rw [trustedGER]
    refine follows_ask ready ?_
    rintro ((_ | err) | globalExitRoot) _
    · refine follows_ask ready ?_
      rintro ((_ | err) | globalExitRoot) _
      · exact ready
      · exact follows_bind (follows_rollbackState ready (fun _ _ =>
          ready.closable.closed) _) fun _ _ closed => closed
      · exact ready.closable
    · exact follows_bind (follows_rollbackState ready (fun _ _ =>
          ready.closable.closed) _) fun _ _ closed => closed
    · exact ready.closable

theorem creates_processPendingDeposits (tm : ClaimTxSender)
    (ger : GlobalExitRoot H) (ready : position.Ready (some sender))
    (own : tm.fromAddr = sender) :
    Creates sender position (tm.processPendingDeposits ger) :=
  (nonce_rules tm own).processPendingDeposits ger ready

end ClaimTxSender

end BridgeService
