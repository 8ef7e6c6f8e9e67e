import BridgeService.Synchronizer.SyncCalls

/-!
# The progress that is reported

While a network is not synced, the synchronizer stores how many blocks remain
and which part of the blocks that were missing at its start has been read.  The
head is asked for again and again, but the number of missing blocks is fixed at
the start, so the report is right as long as the head does not run away from
the synchronizer.  When the head is found inside a range, the network is
reported as synced before the range is read.
-/

namespace BridgeService.BlockSync

open ChainView ErrorState Rows List

variable {H : Type}

structure SyncStatus where
  percentage : Nat
  remainingBlocks : Nat
  synced : Bool
deriving DecidableEq

/-- A status, with the upper end of the last range that was read and the last
known block at the time it is stored. -/
structure StoredStatus where
  status : SyncStatus
  bound : Nat
  lastKnownBlock : Nat
deriving DecidableEq

def bigIntUint64 (number : Int) : Nat :=
  number.natAbs % 2 ^ 64

def subUint64 (first second : Nat) : Nat :=
  (first + 2 ^ 64 - second) % 2 ^ 64

def syncedStatus : SyncStatus :=
  { percentage := 100
    remainingBlocks := 0
    synced := true }

def syncingStatus (initialRemainingBlocks lastKnownBlock toBlock : Nat) :
    SyncStatus :=
  let remainingBlocks : Int := lastKnownBlock - toBlock
  let percentage : Int :=
    (initialRemainingBlocks - remainingBlocks) * 100 / initialRemainingBlocks
  { percentage := bigIntUint64 percentage % 2 ^ 32
    remainingBlocks := bigIntUint64 remainingBlocks
    synced := false }

section Loop

variable [DecidableEq H] [Externals H]

def startNumbers (cfg : Config) (env : Environment H) : Sync H (Nat × Nat) := do
  let lastBlockSynced := (← getLastBlock env).getD (genesisBlock cfg)
  let header ← latestHeader env
  pure (header, lastBlockSynced.blockNumber)

/-- Operands of the unsigned subtractions of a step.  In `syncBlocks` all
differences are big integers. -/
def unsignedSubtractions (cfg : Config) (env : Environment H)
    (s : SyncState H) : List (Nat × Nat) :=
  match s.phase with
  | .stopped =>
    match startNumbers cfg env s with
    | .ok numbers _ => [numbers]
    | .error _ _ => []
  | _ => []

def startStatuses (cfg : Config) (env : Environment H) (s : SyncState H) :
    List StoredStatus :=
  match startNumbers cfg env s with
  | .ok (header, lastBlockSynced) s =>
    if env.fault s.tick then []
    else
      [{ status :=
           { percentage := 0
             remainingBlocks := subUint64 header lastBlockSynced
             synced := false }
         bound := lastBlockSynced
         lastKnownBlock := header }]
  | .error _ _ => []

def refreshStatuses (env : Environment H) (w : Window H) (s : SyncState H) :
    List StoredStatus :=
  if w.toBlock > w.lastKnownBlock then
    match latestHeader env s with
    | .ok lastKnownBlock s =>
      if w.toBlock > lastKnownBlock ∧ ¬s.synced then
        [{ status := syncedStatus
           bound := s.bound
           lastKnownBlock := lastKnownBlock }]
      else []
    | .error _ _ => []
  else []

/-- The part of an iteration of `syncBlocks` between the head and the next
range; the window is the one with which the iteration ends. -/
def readRange (cfg : Config) (env : Environment H) (w : Window H) :
    Sync H (Progress H) :=
  if w.fromBlock > w.toBlock then pure (.done w.lastBlockSynced)
  else do
    let blocks ← getRollupInfoByBlockRange env w.fromBlock w.toBlock
    let blocks ← addGenesisBlock cfg w.fromBlock blocks
    match ← checkReceived cfg env w.lastBlockSynced blocks with
    | .reorged block => pure (.done block)
    | .blocks blocks => do
        processBlockRange env blocks
        let lastBlockSynced ← lastProcessed cfg env w blocks
        pure (.next { w with lastBlockSynced := lastBlockSynced })

theorem syncRange_eq (cfg : Config) (env : Environment H) (w : Window H) :
    syncRange cfg env w = (do
      let w ← refreshHead cfg env w
      match ← readRange cfg env w with
      | .next w => nextWindow cfg w
      | ended => pure ended) := by
  rw [syncRange]
  congr 1
  funext w
  rw [readRange]
  split
  · rfl
  · simp only [bind_assoc]
    congr 1
    funext answer
    congr 1
    funext new
    congr 1
    funext received
    cases received with
    | reorged block => rfl
    | blocks new => simp only [bind_assoc, pure_bind]

def nextStatuses (w : Window H) (s : SyncState H) : List StoredStatus :=
  if w.lastKnownBlock ≤ w.toBlock then
    if s.synced then []
    else
      [{ status := syncedStatus
         bound := s.bound
         lastKnownBlock := w.lastKnownBlock }]
  else if s.synced ∨ s.initialRemainingBlocks = 0 then []
  else
    [{ status := syncingStatus s.initialRemainingBlocks w.lastKnownBlock
         w.toBlock
       bound := s.bound
       lastKnownBlock := w.lastKnownBlock }]

def rangeStatuses (cfg : Config) (env : Environment H) (w : Window H)
    (s : SyncState H) : List StoredStatus :=
  refreshStatuses env w s ++
    match refreshHead cfg env w s with
    | .ok w s =>
      match readRange cfg env w s with
      | .ok (.next w) s => nextStatuses w s
      | _ => []
    | .error _ _ => []

/-- Whether an iteration of `syncBlocks` reads its range and comes to the next
one. -/
def readsRange (cfg : Config) (env : Environment H) (w : Window H)
    (s : SyncState H) : Bool :=
  match refreshHead cfg env w s with
  | .ok w s =>
    match readRange cfg env w s with
    | .ok (.next _) _ => true
    | _ => false
  | .error _ _ => false

def statuses (cfg : Config) (env : Environment H) (s : SyncState H) :
    List StoredStatus :=
  match s.phase with
  | .stopped => startStatuses cfg env s
  | .syncing window => rangeStatuses cfg env window s
  | .waiting => []
  | .called => []

/-- State after a number of steps of a synchronizer that finds some blocks in
its storage. -/
def runFrom (cfg : Config) (env : Environment H)
    (blocks : List (BlockRef H)) : Nat → SyncState H
  | 0 => { initial cfg with blocks := blocks }
  | steps + 1 => step cfg env (runFrom cfg env blocks steps)

end Loop

def headKnown (env : Environment H) (w : Window H) (s : SyncState H) : Nat :=
  if w.toBlock > w.lastKnownBlock then (env.view s.tick).head
  else w.lastKnownBlock

/-- The head does not run away from the synchronizer: if it is told at the
start, it is not below the last block; after a range that was read no more
blocks are missing than at the start; and it is not found inside a range that
is still to be read. -/
def HeadFits [DecidableEq H] [Externals H] (cfg : Config)
    (env : Environment H) (s : SyncState H) : Prop :=
  match s.phase with
  | .stopped =>
    env.fault s.tick = false → env.fault (s.tick + 1) = false →
      (resumeBlock cfg s.blocks).blockNumber ≤ (env.view (s.tick + 1)).head
  | .syncing w =>
    s.synced = false →
      if headKnown env w s < w.toBlock then
        env.fault s.tick = false → headKnown env w s ≤ s.bound
      else
        readsRange cfg env w s = true →
          headKnown env w s ≤ w.toBlock + s.initialRemainingBlocks
  | .waiting => True
  | .called => True

instance [DecidableEq H] [Externals H] (cfg : Config) (env : Environment H)
    (s : SyncState H) : Decidable (HeadFits cfg env s) :=
  match shape : s.phase with
  | .stopped => decidable_of_iff
      (env.fault s.tick = false → env.fault (s.tick + 1) = false →
        (resumeBlock cfg s.blocks).blockNumber ≤ (env.view (s.tick + 1)).head)
      (by simp [HeadFits, shape])
  | .syncing w => decidable_of_iff
      (s.synced = false →
        if headKnown env w s < w.toBlock then
          env.fault s.tick = false → headKnown env w s ≤ s.bound
        else
          readsRange cfg env w s = true →
            headKnown env w s ≤ w.toBlock + s.initialRemainingBlocks)
      (by simp [HeadFits, shape])
  | .waiting => isTrue (by simp [HeadFits, shape])
  | .called => isTrue (by simp [HeadFits, shape])

/-- A percentage, and the number of blocks between the end of the last range
that was read and the head. -/
def StoredStatus.Right (stored : StoredStatus) : Prop :=
  stored.status.percentage ≤ 100 ∧
    stored.status.remainingBlocks = stored.lastKnownBlock - stored.bound

section Arithmetic

theorem syncingStatus_right
    {initialRemainingBlocks lastKnownBlock toBlock : Nat}
    (missing : initialRemainingBlocks ≠ 0)
    (below : toBlock ≤ lastKnownBlock)
    (fits : lastKnownBlock ≤ toBlock + initialRemainingBlocks)
    (number : lastKnownBlock < 2 ^ 64) :
    (syncingStatus initialRemainingBlocks lastKnownBlock toBlock).percentage ≤
        100 ∧
      (syncingStatus initialRemainingBlocks lastKnownBlock
        toBlock).remainingBlocks = lastKnownBlock - toBlock := by
  have positive : (0 : Int) < initialRemainingBlocks := by omega
  have lower : (0 : Int) ≤
      (initialRemainingBlocks - (lastKnownBlock - toBlock)) * 100 /
        initialRemainingBlocks := by
    apply Int.ediv_nonneg
    · omega
    · omega
  have upper : (initialRemainingBlocks - (lastKnownBlock - toBlock)) * 100 /
      initialRemainingBlocks ≤ (100 : Int) := by
    apply Int.ediv_le_of_le_mul positive
    omega
  simp only [syncingStatus, bigIntUint64]
  constructor
  · omega
  · omega

end Arithmetic

section Steps

variable {cfg : Config} {env : Environment H} {s s' : SyncState H}
  {w w' : Window H}

theorem headKnown_lt (number : w.lastKnownBlock < 2 ^ 64) :
    headKnown env w s < 2 ^ 64 := by
  have head := env.numbers s.tick
  rw [headKnown]
  split
  · omega
  · exact number

theorem refreshHead_ok (ran : refreshHead cfg env w s = .ok w' s') :
    w'.lastKnownBlock = headKnown env w s ∧
      (headKnown env w s < w.toBlock ∧ w'.toBlock = headKnown env w s ∧
          s'.synced = true ∨
        w.toBlock ≤ headKnown env w s ∧ w'.toBlock = w.toBlock ∧
          s'.synced = s.synced ∧
          s'.initialRemainingBlocks = s.initialRemainingBlocks) := by
  rw [refreshHead] at ran
  rw [headKnown]
  split at ran
  · next beyond =>
    rw [if_pos beyond]
    obtain ⟨head, between, asked, ran⟩ := bind_ok ran
    obtain ⟨rfl, rfl⟩ := latestHeader_ok asked
    split at ran
    · next inside =>
      obtain ⟨_, _, ⟨⟩, ran⟩ := bind_ok ran
      obtain ⟨_, _, ⟨⟩, done⟩ := bind_ok ran
      cases done
      exact ⟨rfl, .inl ⟨inside, rfl, rfl⟩⟩
    · next above =>
      cases ran
      exact ⟨rfl, .inr ⟨Nat.not_lt.mp above, rfl, rfl, rfl⟩⟩
  · next within =>
    rw [if_neg within]
    cases ran
    exact ⟨rfl, .inr ⟨Nat.not_lt.mp within, rfl, rfl, rfl⟩⟩

theorem lastProcessed_ok {new : List (BlockRef H)} {block : BlockRef H}
    (ran : lastProcessed cfg env w new s = .ok block s') : s.Later s' := by
  rw [lastProcessed] at ran
  split at ran
  · obtain ⟨rfl, _, _⟩ := headerByNumber_ok ran
    exact s.later_advance
  · cases ran
    exact .refl s

variable {result : Progress H} {stored : StoredStatus}

theorem nextWindow_ok (ran : nextWindow cfg w s = .ok result s') :
    (∀ next, result = .next next → next.lastKnownBlock = w.lastKnownBlock) ∧
      (result = .panic → s.synced = false ∧
        w.toBlock < w.lastKnownBlock ∧ s.initialRemainingBlocks = 0) := by
  obtain ⟨_, _, ⟨⟩, ran⟩ := bind_ok ran
  split at ran
  · cases ran
    exact ⟨by simp, by simp⟩
  · next missing =>
    split at ran
    · dsimp only at ran
      split at ran
      · next zero =>
        cases ran
        refine ⟨by simp, fun _ => ?_⟩
        exact ⟨by simpa using zero.1, Nat.not_le.mp missing, zero.2⟩
      · cases ran
        refine ⟨?_, by simp⟩
        intro next same
        injection same with same
        rw [← same]
    · cases ran
      refine ⟨?_, by simp⟩
      intro next same
      injection same with same
      rw [← same]

variable [DecidableEq H] [Externals H]

theorem readRange_ok (ran : readRange cfg env w s = .ok result s') :
    (∃ block, result = .done block) ∨
      ∃ block, result = .next { w with lastBlockSynced := block } ∧
        s'.synced = s.synced ∧
        s'.initialRemainingBlocks = s.initialRemainingBlocks ∧
        s'.bound = w.toBlock := by
  rw [readRange] at ran
  split at ran
  · cases ran
    exact .inl ⟨_, rfl⟩
  · obtain ⟨answer, between, asked, ran⟩ := bind_ok ran
    obtain ⟨rfl, _⟩ := getRollupInfoByBlockRange_ok asked
    obtain ⟨new, first, added, ran⟩ := bind_ok ran
    obtain rfl := addGenesisBlock_state added
    obtain ⟨received, second, checked, ran⟩ := bind_ok ran
    cases received with
    | reorged block =>
      cases ran
      exact .inl ⟨_, rfl⟩
    | blocks received =>
      obtain ⟨_, third, processed, ran⟩ := bind_ok ran
      obtain rfl := processBlockRange_ok processed
      obtain ⟨block, fourth, last, done⟩ := bind_ok ran
      obtain ⟨tick, _, rfl⟩ := lastProcessed_ok last
      injection done with sameValue sameState
      subst sameState
      obtain ⟨_, _, rfl⟩ :=
        checkReceived_moves.ok (.refl _) checked received rfl
      exact .inr ⟨block, sameValue.symm, rfl, rfl, rfl⟩

theorem syncRange_ok (ran : syncRange cfg env w s = .ok result s') :
    (∀ next, result = .next next → next.lastKnownBlock = headKnown env w s) ∧
      (result = .panic → s.synced = false ∧
        w.toBlock < headKnown env w s ∧ s.initialRemainingBlocks = 0 ∧
        readsRange cfg env w s = true) := by
  rw [syncRange_eq] at ran
  obtain ⟨refreshed, between, asked, ran⟩ := bind_ok ran
  obtain ⟨known, found⟩ := refreshHead_ok asked
  obtain ⟨answer, after, read, ran⟩ := bind_ok ran
  rcases readRange_ok read with ⟨block, rfl⟩ | ⟨block, rfl, same, count, _⟩
  · cases ran
    exact ⟨by simp, by simp⟩
  · obtain ⟨kept, panics⟩ := nextWindow_ok ran
    refine ⟨fun next shape => (kept next shape).trans known, ?_⟩
    intro died
    obtain ⟨unsynced, missing, zero⟩ := panics died
    rw [same] at unsynced
    rw [count] at zero
    dsimp only at missing
    rw [known] at missing
    rcases found with ⟨_, _, synced⟩ | ⟨_, upper, before, counter⟩
    · simp [unsynced] at synced
    · refine ⟨before ▸ unsynced, upper ▸ missing, counter ▸ zero, ?_⟩
      simp only [readsRange, asked, read]

def HeadNumber (s : SyncState H) : Prop :=
  ∀ window, s.phase = .syncing window → window.lastKnownBlock < 2 ^ 64

omit [DecidableEq H] in
theorem conclude_headNumber
    {result : EStateM.Result SyncErr (SyncState H) (Progress H)}
    (number : ∀ window s, result = .ok (.next window) s →
      window.lastKnownBlock < 2 ^ 64) :
    HeadNumber (conclude cfg env result) := by
  intro window running
  unfold conclude at running
  split at running
  · cases running
    exact number _ _ rfl
  · contradiction
  · contradiction
  · split at running
    · contradiction
    · contradiction

omit [DecidableEq H] in
theorem conclude_alive
    {result : EStateM.Result SyncErr (SyncState H) (Progress H)}
    (alive : ∀ s, result ≠ .ok .panic s) :
    (conclude cfg env result).outcome ≠ .panicked := by
  unfold conclude
  split
  · simp
  · simp
  · exact (alive _ rfl).elim
  · split
    · simp
    · simp

theorem step_headNumber (number : HeadNumber s) :
    HeadNumber (step cfg env s) := by
  rw [step]
  split
  · next stopped =>
    split
    · simp [HeadNumber]
    · next failed =>
      obtain ⟨_, _, rfl⟩ := startSync_error failed
      simp [HeadNumber, stopped]
  · apply conclude_headNumber
    intro window after ran
    rcases openRange_ok ran with ⟨_, same⟩ | ⟨same, _⟩
    · contradiction
    · cases same
      have head := env.numbers s.tick
      dsimp only
      omega
  · next window running =>
    apply conclude_headNumber
    intro next after ran
    rw [(syncRange_ok ran).1 next rfl]
    exact headKnown_lt (number window running)
  · split
    · next checked =>
      intro window running
      cases checkLatestBlock_ok checked with
      | synced => contradiction
      | reached => contradiction
      | above => contradiction
      | reset => contradiction
    · simp [HeadNumber]

theorem step_alive (fits : HeadFits cfg env s)
    (alive : s.outcome ≠ .panicked) :
    (step cfg env s).outcome ≠ .panicked := by
  rw [step]
  split
  · split
    · simp
    · next failed =>
      obtain ⟨_, _, rfl⟩ := startSync_error failed
      exact alive
  · apply conclude_alive
    intro after ran
    rcases openRange_ok ran with ⟨_, same⟩ | ⟨same, _⟩
    · contradiction
    · contradiction
  · next window running =>
    apply conclude_alive
    intro after ran
    obtain ⟨unsynced, missing, zero, reads⟩ := (syncRange_ok ran).2 rfl
    rw [HeadFits, running] at fits
    have bounded := fits unsynced
    rw [if_neg (by omega), zero] at bounded
    have small := bounded reads
    omega
  · split
    · next checked =>
      cases checkLatestBlock_ok checked with
      | synced => exact alive
      | reached => exact alive
      | above => exact alive
      | reset => exact alive
    · next failed =>
      obtain ⟨_, _, rfl⟩ := checkLatestBlock_error failed
      exact alive

omit [DecidableEq H] in
theorem startNumbers_ok {numbers : Nat × Nat}
    (ran : startNumbers cfg env s = .ok numbers s') :
    numbers = ((env.view (s.tick + 1)).head,
        (resumeBlock cfg s.blocks).blockNumber) ∧
      env.fault s.tick = false ∧ env.fault (s.tick + 1) = false := by
  obtain ⟨block, first, asked, ran⟩ := bind_ok ran
  obtain ⟨_, answered, _⟩ := request_ok asked
  obtain ⟨rfl, rfl⟩ := getLastBlock_ok asked
  obtain ⟨head, second, known, done⟩ := bind_ok ran
  obtain ⟨_, answered', _⟩ := request_ok known
  obtain ⟨rfl, rfl⟩ := latestHeader_ok known
  cases done
  exact ⟨rfl, answered, answered'⟩

omit [DecidableEq H] in
theorem startStatuses_right
    (fits : env.fault s.tick = false → env.fault (s.tick + 1) = false →
      (resumeBlock cfg s.blocks).blockNumber ≤ (env.view (s.tick + 1)).head)
    (mem : stored ∈ startStatuses cfg env s) : stored.Right := by
  rw [startStatuses] at mem
  split at mem
  · next started =>
    obtain ⟨same, answered, answered'⟩ := startNumbers_ok started
    cases same
    have below := fits answered answered'
    split at mem
    · contradiction
    · obtain rfl := mem_singleton.mp mem
      have number := env.numbers (s.tick + 1)
      refine ⟨Nat.zero_le _, ?_⟩
      simp only [subUint64]
      omega
  · contradiction

omit [DecidableEq H] [Externals H] in
theorem refreshStatuses_right
    (fits : s.synced = false → headKnown env w s < w.toBlock →
      env.fault s.tick = false → headKnown env w s ≤ s.bound)
    (mem : stored ∈ refreshStatuses env w s) : stored.Right := by
  rw [refreshStatuses] at mem
  split at mem
  · next beyond =>
    rw [headKnown, if_pos beyond] at fits
    split at mem
    · next asked =>
      obtain ⟨_, answered, _⟩ := request_ok asked
      obtain ⟨rfl, rfl⟩ := latestHeader_ok asked
      split at mem
      · next found =>
        obtain rfl := mem_singleton.mp mem
        have reached := fits
          (by simpa [SyncState.advance] using found.2) found.1 answered
        exact ⟨le_rfl, (Nat.sub_eq_zero_of_le reached).symm⟩
      · contradiction
    · contradiction
  · contradiction

omit [DecidableEq H] [Externals H] in
theorem nextStatuses_right (bound : s.bound = w.toBlock)
    (number : w.lastKnownBlock < 2 ^ 64)
    (fits : s.synced = false →
      w.lastKnownBlock ≤ w.toBlock + s.initialRemainingBlocks)
    (mem : stored ∈ nextStatuses w s) : stored.Right := by
  rw [nextStatuses] at mem
  split at mem
  · next reached =>
    split at mem
    · contradiction
    · obtain rfl := mem_singleton.mp mem
      rw [← bound] at reached
      exact ⟨le_rfl, (Nat.sub_eq_zero_of_le reached).symm⟩
  · next missing =>
    split at mem
    · contradiction
    · next mode =>
      obtain rfl := mem_singleton.mp mem
      rw [not_or] at mode
      rw [StoredStatus.Right, bound]
      exact syncingStatus_right mode.2 (Nat.le_of_not_le missing)
        (fits (by simpa using mode.1)) number

theorem rangeStatuses_right (number : w.lastKnownBlock < 2 ^ 64)
    (fits : s.synced = false →
      if headKnown env w s < w.toBlock then
        env.fault s.tick = false → headKnown env w s ≤ s.bound
      else
        readsRange cfg env w s = true →
          headKnown env w s ≤ w.toBlock + s.initialRemainingBlocks)
    (mem : stored ∈ rangeStatuses cfg env w s) : stored.Right := by
  rw [rangeStatuses] at mem
  rcases mem_append.mp mem with early | late
  · apply refreshStatuses_right ?_ early
    intro unsynced inside
    have bounded := fits unsynced
    rwa [if_pos inside] at bounded
  · split at late
    · next refreshed between asked =>
      obtain ⟨known, found⟩ := refreshHead_ok asked
      split at late
      · next window after read =>
        rcases readRange_ok read with ⟨block, other⟩ |
          ⟨block, shape, same, count, bound⟩
        · contradiction
        · cases shape
          apply nextStatuses_right bound ?_ ?_ late
          · rw [known]
            exact headKnown_lt number
          · intro unsynced
            rw [same] at unsynced
            rcases found with ⟨_, _, synced⟩ | ⟨within, upper, before, counter⟩
            · simp [unsynced] at synced
            · have bounded := fits (before ▸ unsynced)
              rw [if_neg (Nat.not_lt.mpr within)] at bounded
              rw [known, upper, count, counter]
              exact bounded (by simp only [readsRange, asked, read])
      · contradiction
    · contradiction

theorem statuses_right (number : HeadNumber s) (fits : HeadFits cfg env s)
    (mem : stored ∈ statuses cfg env s) : stored.Right := by
  rw [statuses] at mem
  rw [HeadFits] at fits
  split at mem
  · next stopped =>
    rw [stopped] at fits
    exact startStatuses_right fits mem
  · next window running =>
    rw [running] at fits
    exact rangeStatuses_right (number window running) fits mem
  · contradiction
  · contradiction

theorem unsignedSubtractions_exact (fits : HeadFits cfg env s)
    {minuend subtrahend : Nat}
    (mem : (minuend, subtrahend) ∈ unsignedSubtractions cfg env s) :
    subtrahend ≤ minuend := by
  rw [unsignedSubtractions] at mem
  split at mem
  · next stopped =>
    rw [HeadFits, stopped] at fits
    split at mem
    · next started =>
      obtain ⟨numbers, answered, answered'⟩ := startNumbers_ok started
      have same := (mem_singleton.mp mem).trans numbers
      cases same
      exact fits answered answered'
    · contradiction
  · contradiction

theorem runFrom_headNumber (blocks : List (BlockRef H)) (steps : Nat) :
    HeadNumber (runFrom cfg env blocks steps) := by
  induction steps with
  | zero => simp [HeadNumber, runFrom, initial]
  | succ steps induction => exact step_headNumber induction

theorem runFrom_alive {blocks : List (BlockRef H)} {steps : Nat}
    (fits : ∀ earlier, earlier < steps →
      HeadFits cfg env (runFrom cfg env blocks earlier)) :
    (runFrom cfg env blocks steps).outcome ≠ .panicked := by
  induction steps with
  | zero => simp [runFrom, initial]
  | succ steps induction =>
    apply step_alive (fits steps (Nat.lt_succ_self _))
    apply induction
    intro earlier before
    exact fits earlier (Nat.lt_succ_of_lt before)

/-- As long as the head fits the run, no step divides by zero, no unsigned
difference wraps around, and every status that is stored is right. -/
theorem progress_reported (cfg : Config) (env : Environment H)
    (blocks : List (BlockRef H)) (steps : Nat)
    (fits : ∀ earlier, earlier ≤ steps →
      HeadFits cfg env (runFrom cfg env blocks earlier)) :
    (runFrom cfg env blocks (steps + 1)).outcome ≠ .panicked ∧
      (∀ minuend subtrahend, (minuend, subtrahend) ∈
          unsignedSubtractions cfg env (runFrom cfg env blocks steps) →
        subtrahend ≤ minuend) ∧
      ∀ stored, stored ∈ statuses cfg env (runFrom cfg env blocks steps) →
          stored.status.percentage ≤ 100 ∧
          stored.status.remainingBlocks =
            stored.lastKnownBlock - stored.bound := by
  refine ⟨?_, ?_, ?_⟩
  · apply runFrom_alive
    intro earlier before
    exact fits earlier (Nat.le_of_lt_succ before)
  · intro minuend subtrahend mem
    exact unsignedSubtractions_exact (fits steps le_rfl) mem
  · intro stored mem
    exact statuses_right (runFrom_headNumber blocks steps)
      (fits steps le_rfl) mem

end Steps

section Samples

/-- A chain that has one head while the synchronizer starts and another one
from then on. -/
def headMoved (start later : Nat) (small : start < 100 ∧ later < 100) :
    Environment Digest :=
  { view := fun tick =>
      { head := if tick < 3 then start else later
        hash := fun number => .zero (number + 1)
        marked := fun _ => false }
    fault := fun _ => false
    committed := fun _ => 0
    numbers := fun tick => by
      dsimp only
      split
      · omega
      · omega }

def progressConfig (genBlockNumber syncChunkSize : Nat) : Config :=
  { networkID := 1
    genBlockNumber := genBlockNumber
    syncChunkSize := syncChunkSize
    forceSyncChunk := false }

/-- If the head moves on after the start, the percentage divides by zero or is
far too large.  If it is below the last block stored, the difference wraps
around. -/
theorem progress_misreported :
    (runFrom (progressConfig 10 5) (headMoved 10 20 (by decide)) [] 3).outcome =
        .panicked ∧
      (∃ stored,
        stored ∈ statuses (progressConfig 10 5) (headMoved 12 40 (by decide))
          (runFrom (progressConfig 10 5) (headMoved 12 40 (by decide)) [] 2) ∧
        stored.status.percentage = 1100) ∧
      (12, 15) ∈ unsignedSubtractions (progressConfig 10 5)
        (headMoved 12 40 (by decide))
        (runFrom (progressConfig 10 5) (headMoved 12 40 (by decide))
          [{ blockNumber := 15, blockHash := .zero 0 }] 0) := by
  refine ⟨by decide +kernel, ⟨⟨⟨1100, 24, false⟩, 16, 40⟩, by decide +kernel,
    rfl⟩, by decide +kernel⟩

theorem half_reported :
    statuses (progressConfig 0 2) (headMoved 6 6 (by decide))
        (runFrom (progressConfig 0 2) (headMoved 6 6 (by decide)) [] 2) =
      [{ status :=
           { percentage := 50
             remainingBlocks := 3
             synced := false }
         bound := 3
         lastKnownBlock := 6 }] ∧
      (runFrom (progressConfig 0 2) (headMoved 6 6 (by decide)) []
        3).outcome ≠ .panicked ∧
      50 ≤ 100 ∧ 3 = 6 - 3 := by
  have reported : statuses (progressConfig 0 2) (headMoved 6 6 (by decide))
      (runFrom (progressConfig 0 2) (headMoved 6 6 (by decide)) [] 2) =
        [⟨⟨50, 3, false⟩, 3, 6⟩] := by decide +kernel
  have fits : ∀ earlier, earlier ≤ 2 →
      HeadFits (progressConfig 0 2) (headMoved 6 6 (by decide))
        (runFrom (progressConfig 0 2) (headMoved 6 6 (by decide)) []
          earlier) := by decide +kernel
  obtain ⟨alive, _, right⟩ := progress_reported (progressConfig 0 2)
    (headMoved 6 6 (by decide)) [] 2 fits
  have correct := right ⟨⟨50, 3, false⟩, 3, 6⟩ (by simp [reported])
  exact ⟨reported, alive, correct⟩

end Samples

end BridgeService.BlockSync
