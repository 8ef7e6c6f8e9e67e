import BridgeService.Synchronizer.SyncBlocks

/-!
# What the calls of the block loop return

Inversion lemmas for the calls of the client and of the storage, and for the
search of `checkReorg`.  They only move the position in the run, also when they
fail.
-/

namespace BridgeService.BlockSync

open ChainView ErrorState Rows List

variable {H α : Type}

def SyncState.Later (s s' : SyncState H) : Prop :=
  ∃ tick, s.tick ≤ tick ∧ s' = { s with tick := tick }

theorem SyncState.Later.refl (s : SyncState H) : s.Later s :=
  ⟨s.tick, le_rfl, rfl⟩

theorem SyncState.later_advance (s : SyncState H) : s.Later s.advance :=
  ⟨s.tick + 1, Nat.le_succ _, rfl⟩

theorem SyncState.Later.trans {first second third : SyncState H}
    (earlier : first.Later second) (later : second.Later third) :
    first.Later third := by
  obtain ⟨tick, lower, rfl⟩ := earlier
  obtain ⟨tick', lower', rfl⟩ := later
  exact ⟨tick', Nat.le_trans lower lower', rfl⟩

theorem SyncState.Later.tick_le {s s' : SyncState H} (later : s.Later s') :
    s.tick ≤ s'.tick := by
  obtain ⟨tick, lower, rfl⟩ := later
  exact lower

theorem SyncState.Later.blocks_eq {s s' : SyncState H} (later : s.Later s') :
    s'.blocks = s.blocks := by
  obtain ⟨tick, _, rfl⟩ := later
  rfl

section Calls

variable {env : Environment H} {s s' : SyncState H}

theorem request_ok {failure : SyncErr}
    {answer : Chain H → List (BlockRef H) → Except SyncErr α} {value : α}
    (ran : request env failure answer s = .ok value s') :
    s' = s.advance ∧ env.fault s.tick = false ∧
      answer (env.view s.tick) s.blocks = .ok value := by
  rw [request] at ran
  split at ran
  · contradiction
  · next quiet =>
    split at ran
    · next answered =>
      injection ran with sameValue sameState
      subst sameValue
      exact ⟨sameState.symm, by simpa using quiet, answered⟩
    · contradiction

variable {err : SyncErr} {blocks : List (BlockRef H)}

theorem request_error {failure : SyncErr}
    {answer : Chain H → List (BlockRef H) → Except SyncErr α}
    (ran : request env failure answer s = .error err s') : s' = s.advance := by
  rw [request] at ran
  split at ran
  · cases ran
    rfl
  · split at ran
    · contradiction
    · cases ran
      rfl

theorem latestHeader_ok {head : Nat}
    (ran : latestHeader env s = .ok head s') :
    s' = s.advance ∧ head = (env.view s.tick).head := by
  obtain ⟨next, _, answered⟩ := request_ok ran
  exact ⟨next, (Except.ok.inj answered).symm⟩

theorem headerByNumber_ok {number : Nat} {block : BlockRef H}
    (ran : headerByNumber env number s = .ok block s') :
    s' = s.advance ∧ block.blockNumber = number ∧
      (env.view s.tick).Has block := by
  obtain ⟨next, _, answered⟩ := request_ok ran
  split at answered
  · next reached =>
    obtain rfl := Except.ok.inj answered
    exact ⟨next, rfl, reached, rfl⟩
  · contradiction

theorem getLastBlock_ok {block : Option (BlockRef H)}
    (ran : getLastBlock env s = .ok block s') :
    s' = s.advance ∧ block = lastBy BlockRef.blockNumber s.blocks := by
  obtain ⟨next, _, answered⟩ := request_ok ran
  exact ⟨next, (Except.ok.inj answered).symm⟩

theorem resetState_ok {blockNumber : Nat}
    (ran : resetState env blockNumber s = .ok () s') :
    s' = { s.advance with
      blocks := s.blocks.filter fun block =>
        block.blockNumber ≤ blockNumber } := by
  obtain ⟨_, between, asked, done⟩ := bind_ok ran
  obtain ⟨rfl, _⟩ := request_ok asked
  cases done
  rfl

theorem resetState_error {blockNumber : Nat}
    (ran : resetState env blockNumber s = .error err s') : s' = s.advance := by
  rcases bind_error ran with failed | ⟨_, between, _, done⟩
  · exact request_error failed
  · contradiction

theorem getRollupInfoByBlockRange_ok {fromBlock toBlock : Nat}
    (ran : getRollupInfoByBlockRange env fromBlock toBlock s = .ok blocks s') :
    s' = { s.advance with bound := toBlock } ∧
      blocks = (env.view s.tick).markedIn fromBlock toBlock := by
  obtain ⟨_, between, ⟨⟩, done⟩ := bind_ok ran
  obtain ⟨rfl, _, answered⟩ := request_ok done
  exact ⟨rfl, (Except.ok.inj answered).symm⟩

theorem getRollupInfoByBlockRange_error {fromBlock toBlock : Nat}
    (ran : getRollupInfoByBlockRange env fromBlock toBlock s = .error err s') :
    s' = { s.advance with bound := toBlock } := by
  rcases bind_error ran with failed | ⟨_, between, asked, done⟩
  · contradiction
  · cases asked
    exact request_error done

theorem processBlockRange_ok
    (ran : processBlockRange env blocks s = .ok () s') :
    s' = s.advance.commit blocks := by
  rw [processBlockRange] at ran
  split at ran
  · contradiction
  · cases ran
    rfl

theorem processBlockRange_error
    (ran : processBlockRange env blocks s = .error err s') :
    ∃ count, s' = s.advance.commit (blocks.take count) := by
  rw [processBlockRange] at ran
  split at ran
  · cases ran
    exact ⟨_, rfl⟩
  · contradiction

theorem orFailWith_ok {program : Sync H α} {value : α}
    (ran : orFailWith err program s = .ok value s') :
    program s = .ok value s' := by
  rw [orFailWith, handle] at ran
  split at ran
  · next returned =>
    injection ran with sameValue sameState
    rw [returned, sameValue, sameState]
  · contradiction

end Calls

section Reorgs

variable {cfg : Config} {env : Environment H} {s s' : SyncState H}

/-- The comparison of `checkReorg` accepts a block: it is not above the genesis
block, or it has the hash of the block received, or of the header. -/
def Confirms (cfg : Config) (env : Environment H) (tick : Nat)
    (received : Option (BlockRef H)) (block : BlockRef H) : Prop :=
  block.blockNumber ≤ cfg.genBlockNumber ∨
    match received with
    | some other => other.blockHash = block.blockHash
    | none => (env.view tick).Has block

variable {block : BlockRef H} {received : Option (BlockRef H)}
  {new : List (BlockRef H)} {result : Received H}

theorem comparedBlock_accepts {other : BlockRef H}
    (accepts : Confirms cfg env s.tick received block)
    (ran : comparedBlock env block received s = .ok other s') :
    ¬(other.blockHash ≠ block.blockHash ∧
        block.blockNumber > cfg.genBlockNumber) ∧
      (received = none → block.blockNumber + 1 < 2 ^ 64) := by
  cases received with
  | some init =>
    cases ran
    refine ⟨?_, nofun⟩
    rintro ⟨different, above⟩
    rcases accepts with below | same
    · omega
    · exact different same
  | none =>
    obtain ⟨header, between, asked, rest⟩ := bind_ok ran
    obtain ⟨rfl, number, has⟩ := headerByNumber_ok asked
    rw [if_pos number] at rest
    cases rest
    have reached := has.reached
    have head := env.numbers s.tick
    refine ⟨?_, fun _ => by omega⟩
    rintro ⟨different, above⟩
    rcases accepts with below | same
    · omega
    · apply different
      rw [← has.hash, number]
      exact same.hash

section Moves

variable {start : SyncState H} {err : SyncErr}

theorem request_moves {failure : SyncErr}
    {answer : Chain H → List (BlockRef H) → Except SyncErr α} :
    Triple start.Later (request env failure answer) (fun _ => start.Later)
      fun _ => start.Later := by
  apply Triple.intro
  · intro s value next later ran
    obtain ⟨rfl, _⟩ := request_ok ran
    exact later.trans s.later_advance
  · intro s err next later ran
    obtain rfl := request_error ran
    exact later.trans s.later_advance

theorem later_of_error {program : Sync H α}
    (moves : Triple start.Later program (fun _ _ => True)
      fun _ => start.Later)
    (ran : program start = .error err s') : start.Later s' :=
  moves.error (.refl start) ran

theorem comparedBlock_moves :
    Triple start.Later (comparedBlock env block received)
      (fun _ => start.Later) fun _ => start.Later := by
  cases received with
  | some other => exact .pure fun _ later => later
  | none =>
    exact .bind request_moves fun _ => .ite
      (fun _ => .pure fun _ later => later)
      fun _ => .throw fun _ later => later

theorem orFailWith_moves {program : Sync H α}
    {after : α → SyncState H → Prop}
    (body : Triple start.Later program after fun _ => start.Later) :
    Triple start.Later (orFailWith err program) after fun _ => start.Later :=
  .handle body fun _ => .throw fun _ later => later

theorem rollBackTo_moves :
    Triple start.Later (rollBackTo env block) (fun _ _ => True)
      fun _ => start.Later :=
  orFailWith_moves (.bind request_moves fun _ => .modify fun _ _ => trivial)

variable [DecidableEq H]

theorem checkReorgRounds_moves {rounds depth : Nat} :
    Triple start.Later (checkReorgRounds cfg env rounds depth block received)
      (fun _ => start.Later) fun _ => start.Later := by
  induction rounds generalizing depth block received with
  | zero => exact .pure fun _ later => later
  | succ rounds induction =>
    refine .bind comparedBlock_moves fun other =>
      .ite (fun _ => .bind request_moves fun previous => ?_)
        fun _ => .pure fun _ later => later
    cases previous with
    | none => exact .pure fun _ later => later
    | some lb => exact induction

variable [Externals H]

theorem checkReorg_moves :
    Triple start.Later (checkReorg cfg env block received)
      (fun _ => start.Later) fun _ => start.Later := by
  apply Triple.read
  rintro s later _ rfl
  refine Triple.bind checkReorgRounds_moves (fun found => ?_) _ later
  cases found with
  | none => exact .pure fun _ later => later
  | some block =>
    exact .ite (fun _ => .pure fun _ later => later)
      fun _ => .pure fun _ later => later

theorem checkAgain_moves :
    Triple start.Later (checkAgain cfg env block received new)
      (fun result s => ∀ blocks, result = .blocks blocks → start.Later s)
      fun _ => start.Later := by
  refine .bind (orFailWith_moves checkReorg_moves) fun answer => ?_
  cases answer with
  | none => exact .pure fun _ later _ _ => later
  | some block => exact .bind rollBackTo_moves fun _ => .pure nofun

theorem checkReceived_moves :
    Triple start.Later (checkReceived cfg env block new)
      (fun result s => ∀ blocks, result = .blocks blocks → start.Later s)
      fun _ => start.Later := by
  apply Triple.read
  rintro s later _ rfl
  refine Triple.ite (fun _ => .ite (fun _ => checkAgain_moves) fun _ => ?_)
    (fun _ => .pure fun _ later _ _ => later) _ later
  cases new with
  | nil =>
    exact .bind request_moves fun _ => .bind checkReorg_moves fun _ =>
      .bind rollBackTo_moves fun _ => .pure nofun
  | cons init rest => exact checkAgain_moves

end Moves

variable [DecidableEq H] [Externals H]

theorem checkReorg_accepts {answer : Option (BlockRef H)}
    (accepts : Confirms cfg env s.tick received block)
    (ran : checkReorg cfg env block received s = .ok answer s') :
    answer = none ∧ (received = none → block.blockNumber + 1 < 2 ^ 64) := by
  obtain ⟨_, _, ⟨⟩, ran⟩ := bind_ok ran
  obtain ⟨found, between, searched, rest⟩ := bind_ok ran
  obtain ⟨other, _, compared, decided⟩ := bind_ok searched
  obtain ⟨same, small⟩ := comparedBlock_accepts accepts compared
  rw [if_neg same] at decided
  cases decided
  dsimp only at rest
  rw [if_neg (by simp)] at rest
  cases rest
  exact ⟨rfl, small⟩

theorem checkAgain_accepts
    (accepts : Confirms cfg env s.tick received block)
    (ran : checkAgain cfg env block received new s = .ok result s') :
    result = .blocks new ∧ s.Later s' := by
  obtain ⟨answer, between, checked, rest⟩ := bind_ok ran
  have checked := orFailWith_ok checked
  obtain ⟨rfl, _⟩ := checkReorg_accepts accepts checked
  cases rest
  exact ⟨rfl, checkReorg_moves.ok (.refl s) checked⟩

def SyncState.cut (s : SyncState H) (block : BlockRef H) : SyncState H :=
  { s.advance with
    blocks := s.blocks.filter fun stored =>
      stored.blockNumber ≤ block.blockNumber }

def SyncState.opened (s : SyncState H) (block : BlockRef H) : SyncState H :=
  { s with bound := block.blockNumber }

def firstBlock (cfg : Config) (s : SyncState H) (block : BlockRef H) : Nat :=
  if s.synced ∧ ¬cfg.forceSyncChunk then block.blockNumber
  else addUint64 block.blockNumber 1

omit [DecidableEq H] [Externals H] in
theorem firstBlock_checked (synced : s.synced = true)
    (free : cfg.forceSyncChunk = false) :
    firstBlock cfg s block = block.blockNumber := by
  rw [firstBlock, if_pos]
  simp [synced, free]

omit [DecidableEq H] [Externals H] in
theorem firstBlock_unchecked
    (mode : s.synced = false ∨ cfg.forceSyncChunk = true)
    (small : block.blockNumber + 1 < 2 ^ 64) :
    firstBlock cfg s block = block.blockNumber + 1 := by
  rw [firstBlock, if_neg, addUint64]
  · omega
  · rintro ⟨synced, free⟩
    rcases mode with unsynced | force
    · simp [unsynced] at synced
    · exact free force

theorem openRange_ok {progress : Progress H}
    (ran : openRange cfg env block s = .ok progress s') :
    (∃ back, progress = .done back) ∨
      progress = .next
        { lastKnownBlock := (env.view s.tick).head
          lastBlockSynced := block
          fromBlock := firstBlock cfg s block
          toBlock := addUint64 (firstBlock cfg s block) cfg.syncChunkSize } ∧
      (s.opened block).Later s' := by
  obtain ⟨_, _, ⟨⟩, ran⟩ := bind_ok ran
  obtain ⟨head, first, asked, ran⟩ := bind_ok ran
  obtain ⟨rfl, rfl⟩ := latestHeader_ok asked
  obtain ⟨answer, between, checked, rest⟩ := bind_ok ran
  have later := checkReorg_moves.ok
    (SyncState.later_advance (s.opened block)) (orFailWith_ok checked)
  cases answer with
  | none =>
    obtain ⟨_, _, ⟨⟩, rest⟩ := bind_ok rest
    injection rest with sameValue sameState
    have same : between.synced = s.synced := by
      obtain ⟨tick, _, rfl⟩ := later
      rfl
    refine .inr ⟨?_, sameState ▸ later⟩
    rw [← sameValue, firstBlock, ← same]
  | some back =>
    obtain ⟨_, after, _, done⟩ := bind_ok rest
    cases done
    exact .inl ⟨back, rfl⟩

theorem openRange_accepts {progress : Progress H}
    (accepts : Confirms cfg env (s.tick + 1) none block)
    (ran : openRange cfg env block s = .ok progress s') :
    block.blockNumber + 1 < 2 ^ 64 ∧ ∀ back, progress ≠ .done back := by
  obtain ⟨_, _, ⟨⟩, ran⟩ := bind_ok ran
  obtain ⟨head, first, asked, ran⟩ := bind_ok ran
  obtain ⟨rfl, rfl⟩ := latestHeader_ok asked
  obtain ⟨answer, between, checked, rest⟩ := bind_ok ran
  obtain ⟨rfl, small⟩ := checkReorg_accepts accepts (orFailWith_ok checked)
  cases rest
  exact ⟨small rfl, nofun⟩

theorem openRange_error {err : SyncErr}
    (ran : openRange cfg env block s = .error err s') :
    (s.opened block).Later s' := by
  rcases bind_error ran with failed | ⟨_, _, opened, ran⟩
  · contradiction
  · cases opened
    refine later_of_error (.bind request_moves fun head =>
      .bind (orFailWith_moves checkReorg_moves) fun answer => ?_) ran
    cases answer with
    | none =>
      apply Triple.read
      rintro _ _ _ rfl
      trivial
    | some back =>
      exact .bind rollBackTo_moves fun _ => .pure fun _ _ => trivial

end Reorgs

section Genesis

variable [Externals H] {cfg : Config} {s s' : SyncState H}

variable {fromBlock : Nat}

theorem addGenesisBlock_state {answer new : List (BlockRef H)}
    (ran : addGenesisBlock cfg fromBlock answer s = .ok new s') : s' = s := by
  rw [addGenesisBlock] at ran
  split at ran
  · cases answer with
    | nil =>
      cases ran
      rfl
    | cons init rest =>
      rw [head?_cons] at ran
      dsimp only at ran
      split at ran
      · cases ran
        rfl
      · cases ran
        rfl
  · split at ran
    · contradiction
    · cases ran
      rfl

theorem addGenesisBlock_ok {chain : Chain H} {toBlock : Nat}
    {new : List (BlockRef H)}
    (ran : addGenesisBlock cfg fromBlock (chain.markedIn fromBlock toBlock)
      s = .ok new s') :
    (fromBlock = cfg.genBlockNumber → cfg.forceSyncChunk = false →
        ∃ init rest, new = init :: rest ∧ Ascending rest ∧
          chain.Complete fromBlock toBlock rest) ∧
      (fromBlock ≠ cfg.genBlockNumber →
        new = chain.markedIn fromBlock toBlock) := by
  have ascending := chain.ascending_markedIn fromBlock toBlock
  rw [addGenesisBlock] at ran
  by_cases start : fromBlock = cfg.genBlockNumber ∧ ¬cfg.forceSyncChunk
  · refine ⟨fun _ _ => ?_, fun other => (other start.1).elim⟩
    rw [if_pos start] at ran
    cases answer : chain.markedIn fromBlock toBlock with
    | nil =>
      rw [answer] at ran
      cases ran
      refine ⟨_, _, rfl, .nil, ?_⟩
      rw [← answer]
      apply Chain.complete_of_unmarked
      simp [answer]
    | cons init rest =>
      have complete := Chain.complete_of_markedIn answer
      have listed : ∀ block, block ∈ init :: rest →
          fromBlock ≤ block.blockNumber := by
        rw [← answer]
        exact fun block blockIn => (Chain.mem_markedIn.mp blockIn).2.1
      rw [answer] at ran ascending
      obtain ⟨smallest, ascendingRest⟩ := pairwise_cons.mp ascending
      rw [head?_cons] at ran
      dsimp only at ran
      split at ran
      · next first =>
        cases ran
        refine ⟨_, _, rfl, ascending, ?_⟩
        rw [← answer]
        apply Chain.complete_of_unmarked
        rw [answer]
        have least := listed init mem_cons_self
        refine forall_mem_cons.mpr ⟨by omega, fun block later => ?_⟩
        have less := smallest block later
        omega
      · next first =>
        cases ran
        rw [not_not.mp first, ← start.1] at complete
        exact ⟨_, _, rfl, ascendingRest, complete⟩
  · rw [if_neg start] at ran
    split at ran
    · contradiction
    · cases ran
      exact ⟨fun here free => (start ⟨here, by simp [free]⟩).elim,
        fun _ => rfl⟩

theorem addGenesisBlock_error {answer : List (BlockRef H)} {err : SyncErr}
    (ran : addGenesisBlock cfg fromBlock answer s = .error err s') :
    s' = s ∧ fromBlock < cfg.genBlockNumber := by
  rw [addGenesisBlock] at ran
  split at ran
  · cases answer with
    | nil => contradiction
    | cons init rest =>
      rw [head?_cons] at ran
      dsimp only at ran
      split at ran
      · contradiction
      · contradiction
  · split at ran
    · next below =>
      cases ran
      exact ⟨rfl, below⟩
    · contradiction

end Genesis

section Outer

variable [Externals H] {cfg : Config} {env : Environment H}
  {s s' : SyncState H}

/-- The block from which a synchronizer resumes. -/
def resumeBlock (cfg : Config) (blocks : List (BlockRef H)) : BlockRef H :=
  (lastBy BlockRef.blockNumber blocks).getD (genesisBlock cfg)

theorem startSync_ok (ran : startSync cfg env s = .ok () s') :
    ∃ remaining, s' =
      { s with
        lastBlockSynced := resumeBlock cfg s.blocks
        synced := false
        initialRemainingBlocks := remaining
        bound := (resumeBlock cfg s.blocks).blockNumber
        tick := s.tick + 3 } := by
  obtain ⟨_, _, ⟨⟩, ran⟩ := bind_ok ran
  obtain ⟨block, first, asked, ran⟩ := bind_ok ran
  obtain ⟨rfl, rfl⟩ := getLastBlock_ok asked
  obtain ⟨head, second, known, ran⟩ := bind_ok ran
  obtain ⟨rfl, rfl⟩ := latestHeader_ok known
  obtain ⟨_, third, stored, done⟩ := bind_ok ran
  obtain ⟨rfl, _, _⟩ := request_ok stored
  cases done
  exact ⟨_, rfl⟩

theorem startSync_error {err : SyncErr}
    (ran : startSync cfg env s = .error err s') :
    ({ s with synced := false } : SyncState H).Later s' := by
  rcases bind_error ran with failed | ⟨_, _, started, ran⟩
  · contradiction
  · cases started
    exact later_of_error (.bind request_moves fun _ =>
      .bind request_moves fun _ => .bind request_moves fun _ =>
        .modify fun _ _ => trivial) ran

def SyncState.headChecked (s : SyncState H) (head : Nat) : SyncState H :=
  { s.advance with synced := s.lastBlockSynced.blockNumber = head }

/-- Results of the head check of `Sync`: none is due, the last block synced is
not above the head, or it is. -/
inductive HeadChecked (cfg : Config) (env : Environment H)
    (s : SyncState H) : SyncState H → Phase H → Prop
  | synced (synced : s.synced = true) : HeadChecked cfg env s s .waiting
  | reached (unsynced : s.synced = false)
      (reached : s.lastBlockSynced.blockNumber ≤ (env.view s.tick).head) :
      HeadChecked cfg env s (s.headChecked (env.view s.tick).head) .waiting
  | above (unsynced : s.synced = false)
      (above : (env.view s.tick).head < s.lastBlockSynced.blockNumber)
      (layer : cfg.networkID = 0) :
      HeadChecked cfg env s (s.headChecked (env.view s.tick).head) .stopped
  | reset (unsynced : s.synced = false)
      (above : (env.view s.tick).head < s.lastBlockSynced.blockNumber)
      (layer : cfg.networkID ≠ 0) :
      HeadChecked cfg env s
        { (s.headChecked (env.view s.tick).head).advance with
          blocks := s.blocks.filter fun block =>
            block.blockNumber ≤ (env.view s.tick).head } .waiting

omit [Externals H] in
theorem checkLatestBlock_ok {phase : Phase H}
    (ran : checkLatestBlock cfg env s = .ok phase s') :
    HeadChecked cfg env s s' phase := by
  obtain ⟨_, _, ⟨⟩, ran⟩ := bind_ok ran
  cases synced : s.synced with
  | true =>
    rw [if_pos synced] at ran
    cases ran
    exact .synced synced
  | false =>
    rw [if_neg (by simp [synced])] at ran
    obtain ⟨head, first, asked, ran⟩ := bind_ok ran
    obtain ⟨rfl, rfl⟩ := latestHeader_ok asked
    obtain ⟨_, _, ⟨⟩, ran⟩ := bind_ok ran
    by_cases above : s.lastBlockSynced.blockNumber >
        (env.view s.tick).head
    · rw [if_pos above] at ran
      by_cases layer : cfg.networkID = 0
      · rw [if_pos layer] at ran
        cases ran
        exact .above synced above layer
      · rw [if_neg layer] at ran
        obtain ⟨_, between, reset, done⟩ := bind_ok ran
        obtain rfl := resetState_ok reset
        cases done
        exact .reset synced above layer
    · rw [if_neg above] at ran
      cases ran
      exact .reached synced (Nat.le_of_not_lt above)

omit [Externals H] in
theorem checkLatestBlock_error {err : SyncErr}
    (ran : checkLatestBlock cfg env s = .error err s') : s.Later s' := by
  rcases bind_error ran with failed | ⟨_, _, here, ran⟩
  · contradiction
  · cases here
    cases synced : s.synced with
    | true =>
      rw [if_pos synced] at ran
      contradiction
    | false =>
      rw [if_neg (by simp [synced])] at ran
      rcases bind_error ran with failed | ⟨head, first, asked, ran⟩
      · obtain rfl := request_error failed
        exact s.later_advance
      · obtain ⟨rfl, rfl⟩ := latestHeader_ok asked
        rcases bind_error ran with failed | ⟨_, _, marked, ran⟩
        · contradiction
        · cases marked
          split at ran
          · next above =>
            split at ran
            · contradiction
            · rcases bind_error ran with failed | ⟨_, between, _, done⟩
              · obtain rfl := resetState_error failed
                have different : ¬s.lastBlockSynced.blockNumber =
                    (env.view s.tick).head := Nat.ne_of_gt above
                refine ⟨s.tick + 2, Nat.le_add_right _ _, ?_⟩
                simp [SyncState.advance, different, synced]
              · contradiction
          · contradiction

end Outer

end BridgeService.BlockSync
