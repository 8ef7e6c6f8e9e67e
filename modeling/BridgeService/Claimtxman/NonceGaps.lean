import BridgeService.Claimtxman.NonceSteps
import Mathlib.Data.List.Range

/-!
# Nonces without gaps

A nonce is taken before its transaction is stored.  If every nonce that is
taken is also stored, the stored nonces are consecutive.  A nonce is lost if
the deposit already has a transaction, or if the insert or the commit fails.
-/

namespace BridgeService

open Calls NoncePosition List

variable {H : Type}

/-- Runs of `processPendingDeposits` of one sender, one after another.  Other
parts of the service may change the deposits. -/
def pendingSystem (H : Type) (sender : Address) :
    System Unit (ClaimShared H) (claimInterface H) where
  serves _ shared call answer shared' :=
    ∃ answers, shared.serve answers .pendingDeposits call = (answer, shared')
  starts _ program := ∃ (tm : ClaimTxSender) (ger : GlobalExitRoot H),
    tm.fromAddr = sender ∧ program = tm.processPendingDeposits ger >>=
      fun _ => pure ()
  moves shared shared' := ∃ deposit, shared' =
    { shared with store := { shared.store with deposit := deposit } }

def pendingProtocol (H : Type) (sender : Address) :
    Unit → Protocol (claimInterface H) (NoncePosition H) :=
  fun _ => nonceProtocol H (some sender)

abbrev PendingConfig (H : Type) :=
  Config Unit (ClaimShared H) (claimInterface H) (NoncePosition H)

/-- A transaction is only added for a deposit that has none, and the insert and
the commit succeed; the largest nonce is not used up. -/
def StoresNonces (config : PendingConfig H) (_ : Unit) :
    (call : ClaimCall H) → call.Answer → Prop
  | .addClaimTx mTx, answer => answer = .ok () ∧
      ∀ row, row ∈ config.shared.store.monitoredTxs →
        row.depositID ≠ mTx.depositID
  | .commit, answer => ∀ changes,
      config.shared.dbTx .pendingDeposits = some changes → changes ≠ [] →
        answer = .ok ()
  | .cacheGet fromAddr, tempNonce => ∀ nonce, tempNonce = some nonce →
      config.shared.account fromAddr ≤ nonce → nonce + 1 < 2 ^ 64
  | _, _ => True

def lastTaken (first taken : Nat) : Option Nat :=
  if taken = 0 then none else some (first + taken - 1)

/-- Taken nonces are consecutive, and all of them are stored or in the
hands. -/
structure NoGaps (sender : Address) (first : Nat) (shared : ClaimShared H)
    (position : NoncePosition H) : Prop where
  account : shared.account sender = first
  size : shared.nonceCache.size = cacheSize
  nonces : shared.store.monitoredTxs.map MonitoredTx.nonce =
    List.range' first shared.store.monitoredTxs.length
  cached : shared.nonceCache.value sender = lastTaken first
    (shared.store.monitoredTxs.length + position.hands.length)
  asked : ∀ fromAddr nonce, position.phase = .asked fromAddr nonce →
    fromAddr = sender ∧ nonce = first ∧ position.hands = [] ∧
      position.written = false
  read : ∀ fromAddr nonce, position.phase = .read fromAddr nonce →
    fromAddr = sender ∧ nonce = first + shared.store.monitoredTxs.length ∧
      position.hands = [] ∧ position.written = false
  hands : position.hands = [] ∨
    position.hands = [(sender, first + shared.store.monitoredTxs.length)]
  written : position.written = true → ∃ mTx now,
    shared.dbTx .pendingDeposits = some [.add mTx now] ∧
      position.hands = [(mTx.fromAddr, mTx.nonce)] ∧
      ∀ row, row ∈ shared.store.monitoredTxs → row.depositID ≠ mTx.depositID
  unwritten : position.written = false → shared.dbTx .pendingDeposits = none ∨
      shared.dbTx .pendingDeposits = some []

namespace NoGaps

variable {sender : Address} {first : Nat} {shared : ClaimShared H}
  {position : NoncePosition H}

private theorem next_lastTaken {taken : Nat}
    (small : ∀ nonce, lastTaken first taken = some nonce →
      first ≤ nonce → nonce + 1 < 2 ^ 64) :
    NonceCache.next first (lastTaken first taken) = first + taken := by
  by_cases none : taken = 0
  · simp [lastTaken, none, NonceCache.next]
  · have last : lastTaken first taken = some (first + taken - 1) := if_neg none
    have bound := small _ last (by omega)
    rw [last, NonceCache.next, if_pos (by omega), Nat.mod_eq_of_lt bound]
    omega

section

variable (gaps : NoGaps sender first shared position)

include gaps

private theorem close (phase : position.phase = .idle)
    (empty : position.hands = []) {changes : Option (List (ClaimWrite H))}
    (nothing : changes = none ∨ changes = some []) :
    NoGaps sender first (shared.setDbTx .pendingDeposits changes)
      position.closed where
  account := gaps.account
  size := gaps.size
  nonces := gaps.nonces
  cached := by
    have cached := gaps.cached
    rw [empty] at cached
    exact cached
  asked _ _ asked := nomatch phase.symm.trans asked
  read _ _ read := nomatch phase.symm.trans read
  hands := .inl rfl
  written := nofun
  unwritten _ := by simpa using nothing

private theorem read_cache {fromAddr : Address} {nonce : Nat}
    {cache : Lru Address Nat}
    (asked : position.phase = .asked fromAddr nonce)
    (size : cache.size = shared.nonceCache.size)
    (same : cache.value = shared.nonceCache.value)
    (small : ∀ nonce, shared.nonceCache.value fromAddr = some nonce →
      shared.account fromAddr ≤ nonce → nonce + 1 < 2 ^ 64) :
    NoGaps sender first { shared with nonceCache := cache }
      { position with
        phase := .read fromAddr (NonceCache.next nonce
          (shared.nonceCache.value fromAddr)) } := by
  obtain ⟨rfl, rfl, empty, unwritten⟩ := gaps.asked _ _ asked
  have cached := gaps.cached
  rw [empty, length_nil, Nat.add_zero] at cached
  constructor
  · exact gaps.account
  · exact size.trans gaps.size
  · exact gaps.nonces
  · rw [← gaps.cached, same]
  · exact nofun
  · intro other nonce read
    injection read with sender taken
    refine ⟨sender.symm, ?_, empty, unwritten⟩
    rw [cached] at taken small
    rw [gaps.account] at small
    rw [← taken]
    exact next_lastTaken small
  · exact gaps.hands
  · exact gaps.written
  · exact gaps.unwritten

private theorem add_cache {fromAddr : Address} {nonce : Nat}
    (read : position.phase = .read fromAddr nonce) :
    NoGaps sender first
      { shared with nonceCache := shared.nonceCache.add fromAddr nonce }
      { position with
        phase := .idle
        hands := (fromAddr, nonce) :: position.hands } := by
  obtain ⟨rfl, taken, empty, unwritten⟩ := gaps.read _ _ read
  constructor
  · exact gaps.account
  · exact gaps.size
  · exact gaps.nonces
  · have room : 0 < shared.nonceCache.size := by
      rw [gaps.size]
      decide
    rw [Lru.value_add_self room, empty, taken, lastTaken]
    simp
  · exact nofun
  · exact nofun
  · rw [empty, taken]
    exact .inr rfl
  · intro written
    have written : position.written = true := written
    simp [unwritten] at written
  · exact gaps.unwritten

private theorem insert {mTx : MonitoredTx H} {changes : List (ClaimWrite H)}
    (now : Nat) (allowed : position.allowed (some sender) (.addClaimTx mTx))
    (opened : shared.dbTx .pendingDeposits = some changes)
    (fresh : ∀ row, row ∈ shared.store.monitoredTxs →
      row.depositID ≠ mTx.depositID) :
    NoGaps sender first
      (shared.setDbTx .pendingDeposits (some (changes ++ [.add mTx now])))
      { position with written := true } := by
  obtain ⟨_, phase, unwritten, _, hands⟩ := allowed
  have empty : changes = [] := by
    rcases gaps.unwritten unwritten with none | nothing
    · simp [none] at opened
    · rw [nothing] at opened
      exact (Option.some.inj opened).symm
  constructor
  · exact gaps.account
  · exact gaps.size
  · exact gaps.nonces
  · exact gaps.cached
  · exact fun _ _ asked => nomatch phase.symm.trans asked
  · exact fun _ _ read => nomatch phase.symm.trans read
  · exact gaps.hands
  · intro _
    exact ⟨mTx, now, by simp [empty], hands, fresh⟩
  · exact nofun

private theorem store (phase : position.phase = .idle)
    (written : position.written = true) {changes : List (ClaimWrite H)}
    (opened : shared.dbTx .pendingDeposits = some changes) :
    NoGaps sender first
      { shared.setDbTx .pendingDeposits none with
        store := changes.foldl ClaimWrite.apply shared.store }
      position.closed := by
  obtain ⟨mTx, now, pending, hands, fresh⟩ := gaps.written written
  rw [pending] at opened
  obtain rfl := Option.some.inj opened
  have taken : mTx.nonce = first + shared.store.monitoredTxs.length := by
    rcases gaps.hands with empty | held
    · simp [empty] at hands
    · rw [held] at hands
      simp at hands
      exact hands.2.symm
  obtain ⟨row, added, nonce⟩ : ∃ row : MonitoredTx H,
      (shared.store.addClaimTx mTx now).monitoredTxs =
        shared.store.monitoredTxs ++ [row] ∧ row.nonce = mTx.nonce := by
    rw [ClaimStore.addClaimTx, if_neg (by simpa using fresh)]
    exact ⟨_, rfl, rfl⟩
  constructor
  · exact gaps.account
  · exact gaps.size
  · simp only [foldl_cons, foldl_nil, ClaimWrite.apply, added,
      map_append, map_cons, map_nil, length_append,
      length_singleton, gaps.nonces, nonce, taken]
    rw [range'_concat, Nat.one_mul]
  · have cached := gaps.cached
    rw [hands] at cached
    simp only [foldl_cons, foldl_nil, ClaimWrite.apply, added,
      length_append, length_singleton]
    exact cached
  · simp [NoncePosition.closed, phase]
  · simp [NoncePosition.closed, phase]
  · exact .inl rfl
  · simp [NoncePosition.closed]
  · exact fun _ => .inl (by simp)

private theorem ask (ready : position.Ready (some sender)) :
    NoGaps sender first shared
      { position with phase := .asked sender (shared.account sender) } where
  account := gaps.account
  size := gaps.size
  nonces := gaps.nonces
  cached := gaps.cached
  asked fromAddr nonce asked := by
    cases asked
    exact ⟨rfl, rfl.trans gaps.account, ready.hands rfl,
      ready.written⟩
  read := nofun
  hands := gaps.hands
  written := gaps.written
  unwritten := gaps.unwritten

private theorem abort (ready : position.Ready (some sender)) :
    NoGaps sender first (shared.setDbTx .pendingDeposits none) position where
  account := gaps.account
  size := gaps.size
  nonces := gaps.nonces
  cached := gaps.cached
  asked := gaps.asked
  read := gaps.read
  hands := gaps.hands
  written written := by
    simp [ready.written] at written
  unwritten _ := .inl (by simp)

private theorem restart (ready : position.Ready (some sender)) :
    NoGaps sender first shared (nonceProtocol H (some sender)).start where
  account := gaps.account
  size := gaps.size
  nonces := gaps.nonces
  cached := by
    have cached := gaps.cached
    rw [ready.hands rfl] at cached
    exact cached
  asked := nofun
  read := nofun
  hands := .inl rfl
  written := nofun
  unwritten _ := gaps.unwritten ready.written

theorem step {config : PendingConfig H} (here : config.shared = shared)
    {call : ClaimCall H} {answer : call.Answer} {shared' : ClaimShared H}
    {position' : NoncePosition H}
    (step : NonceStep (some sender) .pendingDeposits shared position call
      answer shared' position')
    (stores : StoresNonces config () call answer) :
    NoGaps sender first shared' position' := by
  subst here
  cases step with
  | quiet => exact gaps
  | opened changes nothing ready =>
    exact gaps.close ready.phase (ready.hands rfl) nothing
  | aborted ready => exact gaps.abort ready
  | rolledBack ready =>
    exact gaps.close ready.phase (ready.hands rfl) (.inl rfl)
  | commitFailed closable =>
    apply gaps.close closable.phase _ (.inl rfl)
    by_contra held
    obtain ⟨mTx, now, pending, _⟩ := gaps.written (closable.stored rfl held)
    exact nomatch stores _ pending (cons_ne_nil _ _)
  | committed closable opened =>
    cases written : position.written with
    | true => exact gaps.store closable.phase written opened
    | false =>
      have empty : position.hands = [] := by
        by_contra held
        rw [closable.stored rfl held] at written
        contradiction
      rcases gaps.unwritten written with none | nothing
      · simp [none] at opened
      · rw [nothing] at opened
        obtain rfl := Option.some.inj opened
        exact gaps.close closable.phase empty (.inl rfl)
  | listed perm monitors ready => contradiction
  | asked ready own =>
    obtain rfl := own sender rfl
    exact gaps.ask ready
  | read asked size same => exact gaps.read_cache asked size same stores
  | added read => exact gaps.add_cache read
  | removed monitors ready => contradiction
  | inserted now allowed opened =>
    exact gaps.insert now allowed opened stores.2
  | insertFailed allowed => exact nomatch stores.1
  | updated now allowed opened => exact nomatch allowed.1
  | updateFailed allowed => exact nomatch allowed.1

end

theorem initial (account : shared.account sender = first)
    (empty : shared.store.monitoredTxs = [])
    (cache : shared.nonceCache =
      { size := cacheSize
        entries := [] })
    (closed : shared.dbTx .pendingDeposits = none) :
    NoGaps sender first shared (nonceProtocol H (some sender)).start where
  account := account
  size := by rw [cache]
  nonces := by simp [empty]
  cached := by simp [empty, cache, Lru.value, lastTaken, nonceProtocol]
  asked := nofun
  read := nofun
  hands := .inl rfl
  written := nofun
  unwritten _ := .inl closed

end NoGaps

private theorem ready_start (sender : Address) :
    NoncePosition.Ready (some sender)
      (nonceProtocol H (some sender)).start :=
  ⟨rfl, rfl, fun _ => rfl⟩

private theorem starts_keeps {sender : Address} {program : Goroutine H Unit}
    (starts : (pendingSystem H sender).starts () program) :
    program.Keeps (nonceProtocol H (some sender)) := by
  obtain ⟨tm, ger, own, rfl⟩ := starts
  exact follows_bind
    (tm.creates_processPendingDeposits ger (ready_start sender) own)
    fun _ _ ready => ready

/-- If every nonce that is taken is stored, the stored nonces are
consecutive. -/
theorem nonces_without_gaps {sender : Address} {first : Nat}
    {shared : ClaimShared H} {config : PendingConfig H}
    (account : shared.account sender = first)
    (empty : shared.store.monitoredTxs = [])
    (cache : shared.nonceCache =
      { size := cacheSize
        entries := [] })
    (closed : shared.dbTx .pendingDeposits = none)
    (ran : (pendingSystem H sender).Run (pendingProtocol H sender)
      StoresNonces (System.rest (pendingProtocol H sender) shared) config) :
    config.shared.store.monitoredTxs.map MonitoredTx.nonce =
      List.range' first config.shared.store.monitoredTxs.length := by
  have gaps : NoGaps sender first config.shared (config.positions ()) := by
    refine System.invariant
      (fun shared positions => NoGaps sender first shared (positions ()))
      (fun _ _ => starts_keeps) (.initial account empty cache closed)
      ?_ ?_ ?_ ?_ (fun _ => ready_start sender) ran
    · intro shared positions i call answer shared' gaps allowed _
      apply expected_of_ne
      rintro statuses rollupID rfl
      exact nomatch allowed.1
    · rintro config i call answer shared' gaps allowed ⟨answers, served⟩ stores
      have step := nonceStep_of_serve .pendingDeposits config.shared answers
        call allowed
      rw [served] at step
      rw [Function.update_self]
      exact gaps.step rfl step stores
    · intro shared positions i gaps ready
      rw [Function.update_self]
      exact gaps.restart ready
    · rintro shared shared' positions gaps ⟨deposit, rfl⟩
      exact ⟨gaps.account, gaps.size, gaps.nonces, gaps.cached, gaps.asked,
        gaps.read, gaps.hands, gaps.written, gaps.unwritten⟩
  exact gaps.nonces

def storesNonces (config : PendingConfig H) (_ : Unit) :
    (call : ClaimCall H) → call.Answer → Bool
  | .addClaimTx mTx, .ok _ =>
    config.shared.store.monitoredTxs.all fun row =>
      row.depositID != mTx.depositID
  | .addClaimTx _, .error _ => false
  | .commit, .ok _ => true
  | .commit, .error _ =>
    match config.shared.dbTx .pendingDeposits with
    | some (_ :: _) => false
    | _ => true
  | .cacheGet _, some nonce => decide (nonce + 1 < 2 ^ 64)
  | _, _ => true

theorem storesNonces_sound {config : PendingConfig H} {i : Unit}
    {call : ClaimCall H} {answer : call.Answer}
    (checked : storesNonces config i call answer = true) :
    StoresNonces config i call answer := by
  cases call with
  | addClaimTx mTx =>
    cases answer with
    | error err => contradiction
    | ok done => exact ⟨rfl, by simpa [storesNonces] using checked⟩
  | commit =>
    cases answer with
    | error err =>
      intro changes opened some
      simp only [storesNonces, opened] at checked
      cases changes with
      | nil => exact absurd rfl some
      | cons change rest => contradiction
    | ok done => exact fun _ _ _ => rfl
  | cacheGet fromAddr =>
    rintro nonce rfl _
    simpa [storesNonces] using checked
  | _ => trivial

/-! Runs for two deposits of another L2. -/

namespace SampleNonces

def sender : Address := 7

def manager : ClaimTxSender :=
  { l2NetworkID := 1
    rollupID := 1
    cfg :=
      { retryNumber := 1
        ignoreDepositAfterXL1Blocks := 100
        areClaimsBetweenL2sEnabled := true
        authorizedClaimMessageAddresses := [] }
    fromAddr := sender }

def ger : GlobalExitRoot Nat :=
  { blockID := 1
    blockNumber := 1
    exitRoots := [3, 4]
    globalExitRoot := 5
    networkID := 0
    id := 1 }

def deposit (id : Nat) : Deposit Nat :=
  { id := id
    leafType := 0
    originalNetwork := 0
    originalAddress := 0
    amount := 1
    destinationNetwork := 1
    destinationAddress := 0
    depositCount := id
    blockID := 1
    blockNumber := 1
    networkID := 2
    txHash := 0
    metadata := []
    readyForClaim := true }

theorem listed_self (rows : List (MonitoredTx Nat)) : (id rows).Perm rows :=
  .refl rows

def answers (deposits : List (Deposit Nat)) : CallAnswers Nat :=
  { fault := none
    now := 0
    listed := id
    listed_perm := listed_self
    deposits := deposits
    deposit := .ok (deposit 1)
    trustedGER := .ok 5
    claimProof := .ok
      { globalExitRoot := ger
        merkleProof := List.replicate 32 0
        rollupMerkleProof := List.replicate 32 0 }
    l1Block := .ok 0
    claim := .ok
      { toAddr := none
        data := [] }
    gas := .ok 1
    mined := .ok none
    found := .error .notFound
    gasPrice := .ok 1
    signed := .ok 9
    sent := .ok ()
    claimed := .ok false }

def fresh (nonce : Nat) (deposits : List ClaimDeposit) : ClaimShared Nat :=
  { store := .empty deposits
    dbTx := fun _ => none
    nonceCache :=
      { size := cacheSize
        entries := [] }
    account := fun _ => nonce }

def pendingPlayer :
    Player Unit (ClaimShared Nat) (CallAnswers Nat) (NoncePosition Nat)
      (claimInterface Nat) where
  system := pendingSystem Nat sender
  protocol := pendingProtocol Nat sender
  serve answers _ shared call := shared.serve answers .pendingDeposits call
  serves answers _ _ _ := ⟨answers, rfl⟩

def pendingRun (deposits : List (Deposit Nat)) :
    List (Turn Unit (ClaimShared Nat) (CallAnswers Nat)
      (claimInterface Nat)) :=
  .start () (manager.processPendingDeposits ger >>= fun _ => pure ()) ::
    List.replicate (4 + 9 * deposits.length) (.call () (answers deposits))

theorem pendingRun_possible (deposits : List (Deposit Nat)) :
    ∀ event, event ∈ pendingRun deposits → pendingPlayer.Possible event := by
  intro event mem
  rcases mem_cons.mp mem with rfl | later
  · exact ⟨manager, ger, rfl, rfl⟩
  · rw [eq_of_mem_replicate later]
    trivial

/-- A deposit that is selected again takes a nonce that is not stored. -/
theorem nonce_skipped :
    ∃ config, (pendingSystem Nat sender).Run (pendingProtocol Nat sender)
        (fun _ _ _ _ => True)
        (System.rest (pendingProtocol Nat sender) (fresh 5 [])) config ∧
      config.shared.store.monitoredTxs.map MonitoredTx.nonce = [5, 7] := by
  have played : (pendingPlayer.play (fun _ _ _ _ => true)
      (System.rest (pendingProtocol Nat sender) (fresh 5 []))
      (pendingRun [deposit 1] ++ pendingRun [deposit 1, deposit 2])).map
        (fun config => config.shared.store.monitoredTxs.map
          MonitoredTx.nonce) = some [5, 7] := by
    decide +kernel
  refine Player.exists_run (fun _ _ _ _ _ => trivial) ?_ played
  intro event mem
  rcases mem_append.mp mem with first | second
  · exact pendingRun_possible _ event first
  · exact pendingRun_possible _ event second

theorem nonces_without_gaps_sample :
    ∃ config, (pendingSystem Nat sender).Run (pendingProtocol Nat sender)
        StoresNonces
        (System.rest (pendingProtocol Nat sender) (fresh 5 [])) config ∧
      config.shared.store.monitoredTxs.length = 2 ∧
      config.shared.store.monitoredTxs.map MonitoredTx.nonce =
        List.range' 5 config.shared.store.monitoredTxs.length := by
  have played : (pendingPlayer.play storesNonces
      (System.rest (pendingProtocol Nat sender) (fresh 5 []))
      (pendingRun [deposit 1, deposit 2])).map
        (fun config => config.shared.store.monitoredTxs.length) =
          some 2 := by
    decide +kernel
  obtain ⟨config, ran, two⟩ := Player.exists_run
    (fun _ _ _ _ => storesNonces_sound) (pendingRun_possible _) played
  exact ⟨config, ran, two, nonces_without_gaps rfl rfl rfl rfl ran⟩

end SampleNonces

end BridgeService
