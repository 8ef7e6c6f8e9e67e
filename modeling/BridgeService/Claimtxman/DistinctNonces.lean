import BridgeService.Claimtxman.NonceGaps
import BridgeService.Claimtxman.SharedNonces

/-!
# Nonces that are not shared

Claim transactions are created and monitored side by side.  Every transaction
that waits to be sent has a nonce of its own, as long as the cache is not
cleared while such transactions hold nonces, the two goroutines do not take a
nonce of one sender at the same time, and the cache has room.  A nonce error of
one transaction clears the cache for all the others, so the transaction gets a
nonce that another one has already.
-/

namespace BridgeService

open Calls NoncePosition List

variable {H : Type}

/-- A nonce that is not used up is only taken while the other goroutine has
read no such small nonce for the same sender from the cache; a sender is only
evicted from the cache or removed when its nonces are used up; the largest
nonce is not used up. -/
def KeepsNonces (config : ClaimConfig H) (worker : ClaimWorker) :
    (call : ClaimCall H) → call.Answer → Prop
  | .cacheGet fromAddr, _ => ∀ nonce last,
      (config.positions worker).phase = .asked fromAddr nonce →
      config.shared.nonceCache.value fromAddr = some last → nonce ≤ last →
        last + 1 < 2 ^ 64
  | .cacheAdd fromAddr nonce, _ =>
    (∀ other taken, other ≠ worker →
      (config.positions other).phase = .read fromAddr taken →
      config.shared.account fromAddr ≤ nonce → nonce < taken) ∧
    ∀ other, other ≠ fromAddr →
      (config.shared.nonceCache.add fromAddr nonce).value other ≠
        config.shared.nonceCache.value other →
      ∀ holder taken,
        HoldsNonce config.shared config.positions other holder taken →
          taken < config.shared.account other
  | .cacheRemove fromAddr, _ =>
    config.shared.nonceCache.value fromAddr ≠ none → ∀ holder nonce,
      HoldsNonce config.shared config.positions fromAddr holder nonce →
        nonce < config.shared.account fromAddr
  | _, _ => True

theorem NoncesKept.step {config : ClaimConfig H} {worker : ClaimWorker}
    {sender : Address} {call : ClaimCall H} {answer : call.Answer}
    {shared' : ClaimShared H} {position' : NoncePosition H}
    (kept : NoncesKept config.shared config.positions)
    (step : NonceStep (creator sender worker) worker config.shared
      (config.positions worker) call answer shared' position')
    (keeps : KeepsNonces config worker call answer) :
    NoncesKept shared' (Function.update config.positions worker position') := by
  cases step with
  | quiet =>
    rw [Function.update_eq_self]
    exact kept
  | opened changes nothing ready => exact kept.close nothing
  | aborted ready => exact kept.abort rfl (fun _ => id) (fun _ => id)
  | rolledBack ready => exact kept.close (.inl rfl)
  | commitFailed closable => exact kept.close (.inl rfl)
  | committed closable written => exact kept.commit written
  | listed perm monitors ready =>
    exact kept.list (creator_eq_none monitors) ready.written perm
  | asked ready own => exact kept.ask
  | read asked size same =>
    exact kept.read_cache size same fun last => keeps _ last asked
  | added read => exact kept.add_cache read keeps.1 keeps.2
  | removed monitors ready => exact kept.remove_cache keeps
  | inserted now allowed opened => exact kept.insert now allowed opened
  | insertFailed allowed => exact kept.abort rfl nofun (fun _ => id)
  | updated now allowed opened => exact kept.update now allowed opened
  | updateFailed allowed =>
    apply kept.abort
    · rfl
    · exact fun _ => id
    · exact fun _ mem => (mem_filter.mp mem).1

theorem NoncesKept.initial {shared : ClaimShared H}
    {positions : ClaimWorker → NoncePosition H}
    (empty : shared.store.monitoredTxs = [])
    (cache : shared.nonceCache =
      { size := cacheSize
        entries := [] })
    (closed : ∀ worker, shared.dbTx worker = none)
    (hands : ∀ worker, (positions worker).hands = [])
    (copies : ∀ worker, (positions worker).copies = []) :
    NoncesKept shared positions where
  tickets fromAddr := by
    apply Tickets.Valid.forget
    intro holder nonce holds
    cases holder with
    | row mTx =>
      obtain ⟨stored, _⟩ := holds
      simp [empty] at stored
    | goroutine worker =>
      have taken : (fromAddr, nonce) ∈ (positions worker).hands := holds
      simp [hands] at taken
  tables :=
    { keyed := by simp [empty]
      room := by simp [cache, cacheSize]
      creates := copies _
      copies := by simp [copies]
      changes := by simp [closed] }

/-- Claim transactions of one sender are created, and transactions are
monitored, any number of times and side by side.  The nonces of the accounts
only grow, and other parts of the service change the deposits. -/
def claimSystem (H : Type) [DecidableEq H] (sender : Address) :
    System ClaimWorker (ClaimShared H) (claimInterface H) where
  serves worker shared call answer shared' :=
    ∃ answers, shared.serve answers worker call = (answer, shared')
  starts worker program :=
    match worker with
    | .pendingDeposits => ∃ (tm : ClaimTxSender) (ger : GlobalExitRoot H),
        tm.fromAddr = sender ∧ program = tm.processPendingDeposits ger >>=
          fun _ => pure ()
    | .monitorTxs => ∃ tm : MonitorTxs, program = tm.monitorTxs >>=
        fun _ => pure ()
  moves shared shared' := ∃ account deposit,
    (∀ fromAddr, shared.account fromAddr ≤ account fromAddr) ∧ shared' =
        { shared with
          store := { shared.store with deposit := deposit }
          account := account }

def claimProtocol (H : Type) (sender : Address) (worker : ClaimWorker) :
    Protocol (claimInterface H) (NoncePosition H) :=
  nonceProtocol H (creator sender worker)

private theorem ready_claimProtocol (sender : Address) (worker : ClaimWorker) :
    NoncePosition.Ready (creator sender worker)
      (claimProtocol H sender worker).start :=
  ⟨rfl, rfl, fun _ => rfl⟩

variable [DecidableEq H]

private theorem starts_claimProtocol {sender : Address} (worker : ClaimWorker)
    {program : Goroutine H Unit}
    (starts : (claimSystem H sender).starts worker program) :
    program.Keeps (claimProtocol H sender worker) := by
  cases worker with
  | pendingDeposits =>
    obtain ⟨tm, ger, own, rfl⟩ := starts
    exact follows_bind (tm.creates_processPendingDeposits ger
      (ready_claimProtocol sender .pendingDeposits) own)
      fun _ _ ready => ready
  | monitorTxs =>
    obtain ⟨tm, rfl⟩ := starts
    exact follows_bind (tm.follows_monitorTxs
      (ready_claimProtocol sender .monitorTxs)) fun _ _ ready => ready

omit [DecidableEq H] in
private theorem expected_of_serve {shared : ClaimShared H}
    {worker : ClaimWorker} {answers : CallAnswers H} {call : ClaimCall H}
    (keyed : (shared.store.monitoredTxs.map MonitoredTx.depositID).Nodup) :
    NoncePosition.expected call (shared.serve answers worker call).1 := by
  by_cases listed : ∃ statuses rollupID,
      call = .getClaimTxsByStatus statuses rollupID
  · obtain ⟨statuses, rollupID, rfl⟩ := listed
    rw [ClaimShared.serve, ClaimShared.orFault]
    split
    · trivial
    · exact ClaimStore.nodup_getClaimTxsByStatus answers.listed_perm keyed
  · apply expected_of_ne
    intro statuses rollupID same
    exact listed ⟨statuses, rollupID, same⟩

private theorem nonces_kept {sender : Address} {shared : ClaimShared H}
    {config : ClaimConfig H} (empty : shared.store.monitoredTxs = [])
    (cache : shared.nonceCache =
      { size := cacheSize
        entries := [] })
    (closed : ∀ worker, shared.dbTx worker = none)
    (ran : (claimSystem H sender).Run (claimProtocol H sender) KeepsNonces
      (System.rest (claimProtocol H sender) shared) config) :
    NoncesKept config.shared config.positions := by
  refine System.invariant NoncesKept (fun worker _ =>
    starts_claimProtocol worker) ?_ ?_ ?_ ?_ ?_ (ready_claimProtocol sender)
    ran
  · exact .initial empty cache closed (fun _ => rfl) (fun _ => rfl)
  · rintro shared positions worker call answer shared' kept _ ⟨answers, served⟩
    have expected : NoncePosition.expected call
        (shared.serve answers worker call).1 :=
      expected_of_serve kept.tables.keyed
    rw [served] at expected
    exact expected
  · rintro config worker call answer shared' kept allowed ⟨answers, served⟩
      keeps
    have step := nonceStep_of_serve worker config.shared answers call allowed
    rw [served] at step
    exact kept.step step keeps
  · intro shared positions worker kept ready
    exact kept.restart ready
  · rintro shared shared' positions kept ⟨account, deposit, grows, rfl⟩
    exact kept.move grows

/-- Two transactions of one sender that wait to be sent, with nonces that are
not used up, do not have the same nonce. -/
theorem nonces_not_shared {sender : Address} {shared : ClaimShared H}
    {config : ClaimConfig H} (empty : shared.store.monitoredTxs = [])
    (cache : shared.nonceCache =
      { size := cacheSize
        entries := [] })
    (closed : ∀ worker, shared.dbTx worker = none)
    (ran : (claimSystem H sender).Run (claimProtocol H sender) KeepsNonces
      (System.rest (claimProtocol H sender) shared) config)
    {first second : MonitoredTx H}
    (stored : first ∈ config.shared.store.monitoredTxs)
    (stored' : second ∈ config.shared.store.monitoredTxs)
    (created : first.status = .created) (created' : second.status = .created)
    (sameSender : first.fromAddr = second.fromAddr)
    (unused : config.shared.account first.fromAddr ≤ first.nonce)
    (sameNonce : first.nonce = second.nonce) : first = second := by
  have kept := nonces_kept empty cache closed ran
  have here : HoldsNonce config.shared config.positions first.fromAddr
      (.row first) first.nonce := ⟨stored, created, rfl, rfl⟩
  have there : HoldsNonce config.shared config.positions first.fromAddr
      (.row second) first.nonce :=
    ⟨stored', created', sameSender.symm, sameNonce.symm⟩
  have same := (kept.tickets first.fromAddr).distinct (.row first)
    (.row second) first.nonce here there unused
  injection same

def keepsNonces (config : ClaimConfig H) (worker : ClaimWorker) :
    (call : ClaimCall H) → call.Answer → Bool
  | .cacheGet fromAddr, _ =>
    (config.shared.nonceCache.value fromAddr).all fun last =>
      decide (last + 1 < 2 ^ 64)
  | .cacheAdd fromAddr _, _ =>
    ([ClaimWorker.pendingDeposits, .monitorTxs].all fun other =>
      other == worker || (config.positions other).phase == .idle) &&
    decide ((config.shared.nonceCache.entries.filter fun entry =>
      entry.1 != fromAddr).length < config.shared.nonceCache.size)
  | .cacheRemove fromAddr, _ =>
    (config.shared.store.monitoredTxs.all fun mTx =>
      decide (mTx.nonce < config.shared.account fromAddr)) &&
    [ClaimWorker.pendingDeposits, .monitorTxs].all fun other =>
      (config.positions other).hands.isEmpty
  | _, _ => true

omit [DecidableEq H] in
theorem keepsNonces_sound {config : ClaimConfig H} {worker : ClaimWorker}
    {call : ClaimCall H} {answer : call.Answer}
    (checked : keepsNonces config worker call answer = true) :
    KeepsNonces config worker call answer := by
  cases call with
  | cacheGet fromAddr =>
    intro nonce last _ found _
    rw [keepsNonces, found] at checked
    simpa using checked
  | cacheAdd fromAddr nonce =>
    rw [keepsNonces, Bool.and_eq_true] at checked
    constructor
    · intro other taken different read
      have idle := all_eq_true.mp checked.1 other
        (by cases other <;> simp)
      simp [different, read] at idle
    · intro other different evicted
      exact absurd (Lru.value_add_other different
        (of_decide_eq_true checked.2)) evicted
  | cacheRemove fromAddr =>
    rw [keepsNonces, Bool.and_eq_true] at checked
    intro _ holder nonce holds
    cases holder with
    | row mTx =>
      obtain ⟨stored, _, _, rfl⟩ := holds
      exact of_decide_eq_true (all_eq_true.mp checked.1 mTx stored)
    | goroutine other =>
      have taken : (fromAddr, nonce) ∈ (config.positions other).hands := holds
      have empty := all_eq_true.mp checked.2 other
        (by cases other <;> simp)
      rw [isEmpty_iff.mp empty] at taken
      contradiction
  | _ => trivial

/-! Runs for two deposits, of which the first one has a nonce error. -/

namespace SampleNonces

def claimPlayer :
    Player ClaimWorker (ClaimShared Nat) (CallAnswers Nat) (NoncePosition Nat)
      (claimInterface Nat) where
  system := claimSystem Nat sender
  protocol := claimProtocol Nat sender
  serve answers worker shared call := shared.serve answers worker call
  serves answers _ _ _ := ⟨answers, rfl⟩

abbrev ClaimTurn :=
  Turn ClaimWorker (ClaimShared Nat) (CallAnswers Nat) (claimInterface Nat)

def creating (deposits : List (Deposit Nat)) : List ClaimTurn :=
  .start .pendingDeposits (manager.processPendingDeposits ger >>=
      fun _ => pure ()) ::
    List.replicate (4 + 9 * deposits.length)
      (.call .pendingDeposits (answers deposits))

def monitoring : List ClaimTurn :=
  .start .monitorTxs (MonitorTxs.monitorTxs
      { cfg := manager.cfg
        rollupID := 1 } >>= fun _ => pure ()) ::
    List.replicate 15 (.call .monitorTxs
      { answers [] with sent := .error "nonce too low" })

def useUp (nonce : Nat) : ClaimTurn :=
  .move fun shared =>
    { shared with
      account := fun fromAddr => max (shared.account fromAddr) nonce }

theorem creating_possible (deposits : List (Deposit Nat)) :
    ∀ event, event ∈ creating deposits → claimPlayer.Possible event := by
  intro event mem
  rcases mem_cons.mp mem with rfl | later
  · exact ⟨manager, ger, rfl, rfl⟩
  · rw [eq_of_mem_replicate later]
    trivial

theorem monitoring_possible :
    ∀ event, event ∈ monitoring → claimPlayer.Possible event := by
  intro event mem
  rcases mem_cons.mp mem with rfl | later
  · exact ⟨_, rfl⟩
  · rw [eq_of_mem_replicate later]
    trivial

theorem useUp_possible (nonce : Nat) : claimPlayer.Possible (useUp nonce) := by
  intro shared
  exact ⟨_, shared.store.deposit, fun _ => Nat.le_max_left _ _, rfl⟩

def destinations : List ClaimDeposit :=
  [⟨1, 1⟩, ⟨2, 1⟩]

def nonceRows (config : ClaimConfig Nat) :
    List (Nat × MonitoredTxStatus × Address × Nat × Nat) :=
  config.shared.store.monitoredTxs.map fun mTx =>
    (mTx.depositID, mTx.status, mTx.fromAddr, mTx.nonce,
      config.shared.account mTx.fromAddr)

private theorem row_of_nonceRows {config : ClaimConfig Nat}
    {id nonce account : Nat} {status : MonitoredTxStatus} {fromAddr : Address}
    (here : (id, status, fromAddr, nonce, account) ∈ nonceRows config) :
    ∃ mTx, mTx ∈ config.shared.store.monitoredTxs ∧ mTx.depositID = id ∧
      mTx.status = status ∧ mTx.fromAddr = fromAddr ∧ mTx.nonce = nonce ∧
      config.shared.account mTx.fromAddr = account := by
  obtain ⟨mTx, stored, same⟩ := mem_map.mp here
  simp only [Prod.mk.injEq] at same
  exact ⟨mTx, stored, same⟩

/-- A nonce error of the first transaction gives it the nonce of the second
one. -/
theorem nonce_shared :
    ∃ config, (claimSystem Nat sender).Run (claimProtocol Nat sender)
        (fun _ _ _ _ => True)
        (System.rest (claimProtocol Nat sender) (fresh 5 destinations))
        config ∧
      ∃ first second, first ∈ config.shared.store.monitoredTxs ∧
        second ∈ config.shared.store.monitoredTxs ∧ first ≠ second ∧
        first.status = .created ∧ second.status = .created ∧
        first.fromAddr = second.fromAddr ∧
        config.shared.account first.fromAddr ≤ first.nonce ∧
        first.nonce = second.nonce := by
  have played : (claimPlayer.play (fun _ _ _ _ => true)
      (System.rest (claimProtocol Nat sender) (fresh 5 destinations))
      (creating [deposit 1, deposit 2] ++ useUp 6 :: monitoring)).map
        nonceRows =
          some [(1, .created, 7, 6, 6), (2, .created, 7, 6, 6)] := by
    decide +kernel
  obtain ⟨config, ran, rows⟩ := Player.exists_run
    (fun _ _ _ _ _ => trivial) (by
      intro event mem
      rcases mem_append.mp mem with first | later
      · exact creating_possible _ event first
      · rcases mem_cons.mp later with rfl | pass
        · exact useUp_possible 6
        · exact monitoring_possible event pass) played
  obtain ⟨first, stored, id, created, own, nonce, account⟩ :=
    row_of_nonceRows (rows ▸ mem_cons_self)
  obtain ⟨second, stored', id', created', own', nonce', _⟩ :=
    row_of_nonceRows (rows ▸ mem_cons_of_mem _ mem_cons_self)
  refine ⟨config, ran, first, second, stored, stored', ?_, created, created',
    own.trans own'.symm, ?_, nonce.trans nonce'.symm⟩
  · intro same
    rw [← same, id] at id'
    omega
  · rw [account, nonce]

theorem nonces_not_shared_sample :
    ∃ config, (claimSystem Nat sender).Run (claimProtocol Nat sender)
        KeepsNonces
        (System.rest (claimProtocol Nat sender) (fresh 5 destinations))
        config ∧
      nonceRows config = [(1, .created, 7, 6, 6), (2, .created, 7, 7, 6)] ∧
      ∃ first, first ∈ config.shared.store.monitoredTxs ∧ first.nonce = 6 ∧
        ∀ second, second ∈ config.shared.store.monitoredTxs →
          second.status = .created → first.fromAddr = second.fromAddr →
          first.nonce = second.nonce → first = second := by
  have played : (claimPlayer.play keepsNonces
      (System.rest (claimProtocol Nat sender) (fresh 5 destinations))
      (creating [deposit 1] ++ useUp 6 :: monitoring ++
        creating [deposit 2])).map nonceRows =
          some [(1, .created, 7, 6, 6), (2, .created, 7, 7, 6)] := by
    decide +kernel
  obtain ⟨config, ran, rows⟩ := Player.exists_run
    (fun _ _ _ _ => keepsNonces_sound) (by
      intro event mem
      rcases mem_append.mp mem with before | second
      · rcases mem_append.mp before with first | later
        · exact creating_possible _ event first
        · rcases mem_cons.mp later with rfl | pass
          · exact useUp_possible 6
          · exact monitoring_possible event pass
      · exact creating_possible _ event second) played
  obtain ⟨first, stored, _, created, _, nonce, account⟩ :=
    row_of_nonceRows (rows ▸ mem_cons_self)
  refine ⟨config, ran, rows, first, stored, nonce, ?_⟩
  intro second stored' created' sameSender sameNonce
  exact nonces_not_shared rfl rfl (fun _ => rfl) ran stored stored' created
    created' sameSender (by rw [account, nonce]) sameNonce

end SampleNonces

end BridgeService
