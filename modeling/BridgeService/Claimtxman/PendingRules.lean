import BridgeService.Claimtxman.PendingDeposits

/-!
# Protocols of the goroutine that creates claim transactions

The goroutine opens a database transaction to select deposits, and one for
every claim that it creates.  Rules say what a protocol requires of these
transactions, and a protocol with such rules is followed by the goroutine.
-/

namespace BridgeService

open Calls

variable {H α L : Type} {protocol : Protocol (claimInterface H) L}
  {position : L}

theorem follows_ask {call : ClaimCall H} {rest : call.Answer → Goroutine H α}
    {post : α → L → Prop} (allowed : protocol.allowed position call)
    (next : ∀ answer, protocol.expected call answer →
      (rest answer).Follows protocol post
        (protocol.track position call answer)) :
    (call.ask >>= rest).Follows protocol post position :=
  ⟨allowed, next⟩

theorem follows_bind {β : Type} {program : Goroutine H α}
    {rest : α → Goroutine H β} {middle : α → L → Prop}
    {post : β → L → Prop} (first : program.Follows protocol middle position)
    (next : ∀ value position, middle value position →
      (rest value).Follows protocol post position) :
    (program >>= rest).Follows protocol post position :=
  Program.follows_bind.mpr (first.mono next)

/-- Calls that estimate the gas may be made in a position and keep it. -/
def KeepsGas (protocol : Protocol (claimInterface H) L) (position : L) : Prop :=
  ∀ tx answer, protocol.allowed position (.estimateGas tx) ∧
    protocol.track position (.estimateGas tx) answer = position

private theorem follows_estimateGasAgain (keeps : KeepsGas protocol position)
    (ends : String → Bool) (tx : CallMsg) (left : Nat)
    (answer : Except String Nat) :
    (estimateGasAgain ends tx left answer).Follows protocol
      (fun _ position' => position' = position) position := by
  induction left generalizing answer with
  | zero => rfl
  | succ left induction =>
    cases answer with
    | ok gas => rfl
    | error err =>
      rw [estimateGasAgain]
      split
      · rfl
      · refine follows_ask (keeps tx (.ok 0)).1 fun answer _ => ?_
        rw [(keeps tx answer).2]
        exact induction answer

theorem follows_estimateGas (keeps : KeepsGas protocol position)
    (ends : String → Bool) (retryNumber : Int) (tx : CallMsg) :
    (estimateGasWithRetries ends retryNumber tx).Follows protocol
      (fun _ position' => position' = position) position := by
  rw [estimateGasWithRetries]
  refine follows_ask (keeps tx (.ok 0)).1 fun answer _ => ?_
  rw [(keeps tx answer).2]
  exact follows_estimateGasAgain keeps ends tx _ answer

namespace ClaimTxSender

theorem follows_rollbackState {post : Except GoErr Unit → L → Prop}
    (allowed : protocol.allowed position .rollback)
    (next : ∀ result answer, post result
      (protocol.track position .rollback answer)) (err : GoErr) :
    (rollbackState err : Goroutine H _).Follows protocol post position := by
  refine follows_ask allowed ?_
  rintro (rollbackErr | _) _
  · exact next _ _
  · exact next _ _

/-- Calls that only read, apart from the search for a global exit root. -/
def Reads : ClaimCall H → Prop
  | .getDepositsFromOtherL2ToClaim _ => True
  | .getPendingDepositsToClaim _ _ _ => True
  | .getClaimProofForCompressed _ _ _ => True
  | .buildSendClaim _ _ _ _ => True
  | _ => False

def Chosen (stored : L → Prop) (ended : Except GoErr Unit → L → Prop) :
    Selected H → L → Prop
  | .ended result => ended result
  | .deposits _ _ => stored

/-- Positions without a database transaction, with one, with one that may be
committed, and in which the goroutine may end. -/
structure PendingRules (tm : ClaimTxSender)
    (protocol : Protocol (claimInterface H) L) (idle opened stored : L → Prop)
    (ended : Except GoErr Unit → L → Prop) : Prop where
  ends : ∀ {p} result, idle p → ended result p
  panics : ∀ {p}, opened p → ended (.error .panic) p
  stores : ∀ {p}, opened p → stored p
  begins : ∀ {p}, idle p → protocol.allowed p .beginDBTransaction ∧
    opened (protocol.track p .beginDBTransaction (.ok ())) ∧
    ∀ err, idle (protocol.track p .beginDBTransaction (.error err))
  reads : ∀ {p} (call : ClaimCall H), Reads call → opened p →
    protocol.allowed p call ∧ ∀ answer, opened (protocol.track p call answer)
  commits : ∀ {p}, stored p → protocol.allowed p .commit ∧
    ∀ answer, idle (protocol.track p .commit answer)
  rollsBack : ∀ {p}, opened p ∨ idle p → protocol.allowed p .rollback ∧
    ∀ answer, idle (protocol.track p .rollback answer)
  adds : ∀ {p}, opened p → ∀ deposit toAddr data ger,
    (tm.addClaimTx deposit tm.fromAddr toAddr none data ger).Follows protocol
      (fun result p' => stored p' ∧ ∀ err, result = .error err → opened p') p
  trusts : ∀ {p}, opened p → ∀ deposits first,
    (trustedGER deposits first).Follows protocol (Chosen stored ended) p

namespace PendingRules

variable {tm : ClaimTxSender} {idle opened stored : L → Prop}
  {ended : Except GoErr Unit → L → Prop}
  (rules : PendingRules tm protocol idle opened stored ended)

include rules

theorem rollbackState (start : opened position ∨ idle position)
    (err : GoErr) :
    (rollbackState err : Goroutine H _).Follows protocol (fun _ => idle)
      position := by
  obtain ⟨allowed, next⟩ := rules.rollsBack start
  exact follows_rollbackState allowed (fun _ answer => next answer) err

theorem rollback_chosen (start : opened position) (err : GoErr) :
    (ClaimTxSender.rollbackState err >>= fun result =>
      (pure (.ended result) : Goroutine H (Selected H))).Follows protocol
      (Chosen stored ended) position :=
  follows_bind (rules.rollbackState (.inl start) err)
    fun result _ => rules.ends result

private theorem read {call : ClaimCall H}
    {rest : call.Answer → Goroutine H α} {post : α → L → Prop}
    (reads : Reads call) (start : opened position)
    (next : ∀ answer p, opened p → (rest answer).Follows protocol post p) :
    (call.ask >>= rest).Follows protocol post position := by
  obtain ⟨allowed, still⟩ := rules.reads call reads start
  exact follows_ask allowed fun answer _ => next answer _ (still answer)

private theorem createClaimTx (globalExitRoot : H) (deposit : Deposit H)
    (start : opened position) :
    (tm.createClaimTx globalExitRoot deposit).Follows protocol
      (fun result p => ended result p ∧ ∀ value, result = .ok value → idle p)
      position := by
  have undone : ∀ {p} err, opened p ∨ idle p →
      (ClaimTxSender.rollbackState err : Goroutine H _).Follows protocol
        (fun result p => ended result p ∧
          ∀ value, result = .ok value → idle p) p :=
    fun err start => (rules.rollbackState start err).mono
      fun result _ here => ⟨rules.ends result here, fun _ _ => here⟩
  rw [ClaimTxSender.createClaimTx]
  refine rules.read trivial start ?_
  rintro (err | claimProof) p start
  · exact undone _ (.inl start)
  · simp only []
    split
    · exact ⟨rules.panics start, nofun⟩
    · refine rules.read trivial start ?_
      rintro (err | tx) p start
      · exact undone _ (.inl start)
      · refine follows_bind (rules.adds start deposit _ _ _) ?_
        rintro (err | _) p ⟨held, failed⟩
        · exact undone _ (.inl (failed err rfl))
        · obtain ⟨allowed, closed⟩ := rules.commits held
          refine follows_ask allowed ?_
          rintro (err | _) _
          · exact undone _ (.inr (closed _))
          · exact ⟨rules.ends _ (closed _), fun _ _ => closed _⟩

private theorem createClaimTxs (globalExitRoot : H)
    (deposits : List (Deposit H)) (start : idle position) :
    (tm.createClaimTxs globalExitRoot deposits).Follows protocol ended
      position := by
  induction deposits generalizing position with
  | nil => exact rules.ends _ start
  | cons deposit rest induction =>
    rw [ClaimTxSender.createClaimTxs]
    split
    · exact induction start
    · split
      · exact induction start
      · obtain ⟨allowed, opened, failed⟩ := rules.begins start
        refine follows_ask allowed ?_
        rintro (err | _) _
        · exact rules.ends _ (failed err)
        · refine follows_bind
            (rules.createClaimTx globalExitRoot deposit opened) ?_
          rintro (err | value) p ⟨here, done⟩
          · exact here
          · exact induction (done value rfl)

private theorem selectMessages (globalExitRoot : H)
    (deposits : List (Deposit H)) (addresses : List Address)
    (start : opened position) :
    (tm.selectMessages globalExitRoot deposits addresses).Follows protocol
      (Chosen stored ended) position := by
  induction addresses generalizing deposits position with
  | nil => exact rules.stores start
  | cons addr rest induction =>
    rw [ClaimTxSender.selectMessages]
    refine rules.read trivial start ?_
    rintro (err | msgDeposits) p start
    · exact rules.rollback_chosen start _
    · exact induction _ start

private theorem selectDeposits (ger : GlobalExitRoot H)
    (start : opened position) :
    (tm.selectDeposits ger).Follows protocol (Chosen stored ended)
      position := by
  rw [ClaimTxSender.selectDeposits]
  split
  · rw [selectL2Deposits]
    split
    · exact rules.panics start
    · split
      · refine rules.read trivial start ?_
        rintro (err | _ | ⟨first, rest⟩) p start
        · exact rules.rollback_chosen start _
        · exact rules.stores start
        · exact rules.trusts start _ first
      · exact rules.stores start
  · rw [selectL1Deposits]
    split
    · exact rules.panics start
    · refine rules.read trivial start ?_
      rintro (err | deposits) p start
      · exact rules.rollback_chosen start _
      · exact rules.selectMessages _ deposits _ start

theorem processPendingDeposits (ger : GlobalExitRoot H)
    (start : idle position) :
    (tm.processPendingDeposits ger).Follows protocol ended position := by
  rw [ClaimTxSender.processPendingDeposits]
  obtain ⟨allowed, opened, failed⟩ := rules.begins start
  refine follows_ask allowed ?_
  rintro (err | _) _
  · exact rules.ends _ (failed err)
  · refine follows_bind (rules.selectDeposits ger opened) ?_
    rintro (result | ⟨deposits, globalExitRoot⟩) p chosen
    · exact chosen
    · obtain ⟨allowed, closed⟩ := rules.commits chosen
      refine follows_ask allowed ?_
      rintro (err | _) _
      · exact (rules.rollbackState (.inr (closed _)) _).mono
          fun result _ => rules.ends result
      · exact rules.createClaimTxs globalExitRoot deposits (closed _)

end PendingRules

end ClaimTxSender

end BridgeService
