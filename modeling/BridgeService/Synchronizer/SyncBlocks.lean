import BridgeService.Bridgectrl.Hash
import BridgeService.Lib.ChainView
import BridgeService.Lib.ErrorState
import BridgeService.Lib.Rows

/-!
# The loop that reads the blocks of a network

`Sync` calls `syncBlocks` again and again, and `syncBlocks` reads one range of
blocks after the other until it has seen the head.  Every call of the Ethereum
client is answered from the chain that is canonical at that instant, and every
call of the client or of the storage may fail.  `processBlockRange` commits its
blocks one by one, so a failing call leaves the first of them behind.

A block is reduced to its number and its hash.  The statements that store the
status of the synchronization are left out where their errors are only logged.
A process that has stopped is started again.
-/

namespace BridgeService

open ChainView ErrorState Rows

variable {H α : Type}

def addUint64 (first second : Nat) : Nat :=
  (first + second) % 2 ^ 64

namespace BlockSync

structure Config where
  networkID : Nat
  genBlockNumber : Nat
  syncChunkSize : Nat
  forceSyncChunk : Bool

/-- What the calls of a run meet, by their position in it: the canonical
chain, whether the call fails, and how many blocks a failing
`processBlockRange` has committed. -/
structure Environment (H : Type) where
  view : Nat → Chain H
  fault : Nat → Bool
  committed : Nat → Nat
  numbers : ∀ tick, (view tick).head + 1 < 2 ^ 64

inductive SyncErr
  | client
  | notFound
  | wrongBlock
  | storage
  | checkingReorgs
  | resettingState
  | belowGenesis
  | processing
deriving DecidableEq

structure Window (H : Type) where
  lastKnownBlock : Nat
  lastBlockSynced : BlockRef H
  fromBlock : Nat
  toBlock : Nat
deriving DecidableEq

/-- Position of `Sync`: the process is not running, the next call of
`syncBlocks` is due, a call is about to read a range, or a call is over. -/
inductive Phase (H : Type)
  | stopped
  | waiting
  | syncing (window : Window H)
  | called
deriving DecidableEq

inductive Outcome
  | running
  | returned
  | failed
  | panicked
deriving DecidableEq

/-- The blocks are the rows of `sync.block` of the network in the order in
which they were committed.  The bound is the upper end of the last range that
the call of `syncBlocks` has asked for, or the number of the block it started
from. -/
structure SyncState (H : Type) where
  blocks : List (BlockRef H)
  lastBlockSynced : BlockRef H
  synced : Bool
  initialRemainingBlocks : Nat
  bound : Nat
  phase : Phase H
  outcome : Outcome
  tick : Nat
deriving DecidableEq

def SyncState.advance (s : SyncState H) : SyncState H :=
  { s with tick := s.tick + 1 }

abbrev Sync (H α : Type) := EStateM SyncErr (SyncState H) α

def request (env : Environment H) (failure : SyncErr)
    (answer : Chain H → List (BlockRef H) → Except SyncErr α) :
    Sync H α := fun s =>
  if env.fault s.tick then .error failure s.advance
  else
    match answer (env.view s.tick) s.blocks with
    | .ok value => .ok value s.advance
    | .error err => .error err s.advance

def latestHeader (env : Environment H) : Sync H Nat :=
  request env .client fun chain _ => .ok chain.head

def headerByNumber (env : Environment H) (number : Nat) :
    Sync H (BlockRef H) :=
  request env .client fun chain _ =>
    if number ≤ chain.head then
      .ok { blockNumber := number, blockHash := chain.hash number }
    else
      .error .notFound

def getRollupInfoByBlockRange (env : Environment H)
    (fromBlock toBlock : Nat) : Sync H (List (BlockRef H)) := do
  modify fun s => { s with bound := toBlock }
  request env .client fun chain _ => .ok (chain.markedIn fromBlock toBlock)

def getLastBlock (env : Environment H) : Sync H (Option (BlockRef H)) :=
  request env .storage fun _ blocks => .ok (lastBy BlockRef.blockNumber blocks)

def getPreviousBlock (env : Environment H) (offset : Nat) :
    Sync H (Option (BlockRef H)) :=
  request env .storage fun _ blocks =>
    .ok (orderBy BlockRef.blockNumber blocks).reverse[offset]?

def resetState (env : Environment H) (blockNumber : Nat) : Sync H Unit := do
  request env .storage fun _ _ => .ok ()
  modify fun s =>
    { s with
      blocks := s.blocks.filter fun block => block.blockNumber ≤ blockNumber }

def SyncState.commit (s : SyncState H) (new : List (BlockRef H)) :
    SyncState H :=
  { s with blocks := s.blocks ++ new }

def processBlockRange (env : Environment H) (blocks : List (BlockRef H)) :
    Sync H Unit := fun s =>
  if env.fault s.tick then
    .error .processing (s.advance.commit (blocks.take (env.committed s.tick)))
  else
    .ok () (s.advance.commit blocks)

def orFailWith (err : SyncErr) (program : Sync H α) : Sync H α :=
  handle program fun _ => throw err

section Loop

variable [DecidableEq H] [Externals H]

def genesisBlock (cfg : Config) : BlockRef H :=
  { blockNumber := cfg.genBlockNumber, blockHash := hashZero }

def emptyBlock : BlockRef H :=
  { blockNumber := 0, blockHash := hashZero }

/-- What `checkReorg` compares a block with: the block received, or the header
of that number. -/
def comparedBlock (env : Environment H) (reorgedBlock : BlockRef H) :
    Option (BlockRef H) → Sync H (BlockRef H)
  | some block => pure block
  | none => do
      let b ← headerByNumber env reorgedBlock.blockNumber
      if b.blockNumber = reorgedBlock.blockNumber then pure b
      else throw .wrongBlock

/-- Rounds of `checkReorg`: the block at which they stop, or nothing if the
stored blocks run out.  Each round but the last one goes one stored block
further back, so there are at most as many as stored blocks and one. -/
def checkReorgRounds (cfg : Config) (env : Environment H) :
    Nat → Nat → BlockRef H → Option (BlockRef H) → Sync H (Option (BlockRef H))
  | 0, _, _, _ => pure none
  | rounds + 1, depth, reorgedBlock, block => do
      let block ← comparedBlock env reorgedBlock block
      if block.blockHash ≠ reorgedBlock.blockHash ∧
          reorgedBlock.blockNumber > cfg.genBlockNumber then do
        match ← getPreviousBlock env (depth + 1) with
        | none => pure none
        | some lb => checkReorgRounds cfg env rounds (depth + 1) lb none
      else
        pure (some reorgedBlock)

def checkReorg (cfg : Config) (env : Environment H)
    (latestStoredBlock : BlockRef H) (syncedBlock : Option (BlockRef H)) :
    Sync H (Option (BlockRef H)) := do
  let s ← get
  match ← checkReorgRounds cfg env (s.blocks.length + 1) 0 latestStoredBlock
      syncedBlock with
  | none => pure (some (genesisBlock cfg))
  | some reorgedBlock =>
    if latestStoredBlock.blockHash ≠ reorgedBlock.blockHash then
      pure (some reorgedBlock)
    else
      pure none

def rollBackTo (env : Environment H) (block : BlockRef H) : Sync H Unit :=
  orFailWith .resettingState (resetState env block.blockNumber)

/-- How a part of `syncBlocks` ends: another range is to be read, the function
returns a block, or the process dies. -/
inductive Progress (H : Type)
  | next (window : Window H)
  | done (block : BlockRef H)
  | panic

def openRange (cfg : Config) (env : Environment H)
    (lastBlockSynced : BlockRef H) : Sync H (Progress H) := do
  modify fun s => { s with bound := lastBlockSynced.blockNumber }
  let lastKnownBlock ← latestHeader env
  match ← orFailWith .checkingReorgs
      (checkReorg cfg env lastBlockSynced none) with
  | some block => do
      rollBackTo env block
      pure (.done block)
  | none => do
      let s ← get
      let fromBlock :=
        if s.synced ∧ ¬cfg.forceSyncChunk then lastBlockSynced.blockNumber
        else addUint64 lastBlockSynced.blockNumber 1
      pure (.next
        { lastKnownBlock := lastKnownBlock
          lastBlockSynced := lastBlockSynced
          fromBlock := fromBlock
          toBlock := addUint64 fromBlock cfg.syncChunkSize })

/-- Ask for the head again if the range goes beyond it. -/
def refreshHead (cfg : Config) (env : Environment H) (w : Window H) :
    Sync H (Window H) :=
  if w.toBlock > w.lastKnownBlock then do
    let lastKnownBlock ← latestHeader env
    if w.toBlock > lastKnownBlock then do
      let s ← get
      let fromBlock :=
        if ¬s.synced ∧ ¬cfg.forceSyncChunk then
          w.lastBlockSynced.blockNumber
        else
          w.fromBlock
      modify fun s => { s with synced := true }
      pure
        { w with
          lastKnownBlock := lastKnownBlock
          fromBlock := fromBlock
          toBlock := lastKnownBlock }
    else
      pure { w with lastKnownBlock := lastKnownBlock }
  else
    pure w

/-- Put an empty block first if the range starts at the genesis block and that
block has no events. -/
def addGenesisBlock (cfg : Config) (fromBlock : Nat)
    (blocks : List (BlockRef H)) : Sync H (List (BlockRef H)) :=
  if fromBlock = cfg.genBlockNumber ∧ ¬cfg.forceSyncChunk then
    match blocks.head? with
    | none => pure (emptyBlock :: blocks)
    | some first =>
      if first.blockNumber ≠ cfg.genBlockNumber then
        pure (emptyBlock :: blocks)
      else
        pure blocks
  else if fromBlock < cfg.genBlockNumber then throw .belowGenesis
  else pure blocks

/-- What is left of a range after the second check: the block that
`syncBlocks` returns after a reorg, or the blocks to process. -/
inductive Received (H : Type)
  | reorged (block : BlockRef H)
  | blocks (new : List (BlockRef H))

def checkAgain (cfg : Config) (env : Environment H)
    (lastBlockSynced : BlockRef H) (initBlockReceived : Option (BlockRef H))
    (new : List (BlockRef H)) : Sync H (Received H) := do
  match ← orFailWith .checkingReorgs
      (checkReorg cfg env lastBlockSynced initBlockReceived) with
  | some block => do
      rollBackTo env block
      pure (.reorged block)
  | none => pure (.blocks new)

/-- The range should have started with a known block, but is empty. -/
def rollBackEmptyRange (cfg : Config) (env : Environment H) :
    Sync H (Received H) := do
  let prevBlock := (← getPreviousBlock env 1).getD emptyBlock
  let blockReorged := (← checkReorg cfg env prevBlock none).getD prevBlock
  rollBackTo env blockReorged
  pure (.reorged blockReorged)

/-- The second check of a range, made once the network is synced. -/
def checkReceived (cfg : Config) (env : Environment H)
    (lastBlockSynced : BlockRef H) (blocks : List (BlockRef H)) :
    Sync H (Received H) := do
  let s ← get
  if s.synced then
    if cfg.forceSyncChunk then checkAgain cfg env lastBlockSynced none blocks
    else
      match blocks with
      | [] => rollBackEmptyRange cfg env
      | initBlockReceived :: blocks =>
        checkAgain cfg env lastBlockSynced (some initBlockReceived) blocks
  else
    pure (.blocks blocks)

def lastProcessed (cfg : Config) (env : Environment H) (w : Window H)
    (blocks : List (BlockRef H)) : Sync H (BlockRef H) :=
  if cfg.forceSyncChunk then headerByNumber env w.toBlock
  else pure (blocks.getLast?.getD w.lastBlockSynced)

/-- The end of an iteration: the next range, if the head is not reached.  The
percentage that is stored while the network is not synced divides by the
number of blocks that were missing at the start. -/
def nextWindow (cfg : Config) (w : Window H) : Sync H (Progress H) := do
  let s ← get
  if w.lastKnownBlock ≤ w.toBlock then do
    modify fun s => { s with synced := true }
    pure (.done w.lastBlockSynced)
  else if ¬s.synced ∨ cfg.forceSyncChunk then do
    let fromBlock := addUint64 w.toBlock 1
    if ¬s.synced ∧ s.initialRemainingBlocks = 0 then pure .panic
    else
      pure (.next
        { w with
          fromBlock := fromBlock
          toBlock := addUint64 fromBlock cfg.syncChunkSize })
  else
    pure (.next
      { w with
        fromBlock := w.lastBlockSynced.blockNumber
        toBlock := addUint64 w.toBlock cfg.syncChunkSize })

def syncRange (cfg : Config) (env : Environment H) (w : Window H) :
    Sync H (Progress H) := do
  let w ← refreshHead cfg env w
  if w.fromBlock > w.toBlock then pure (.done w.lastBlockSynced)
  else do
    let blocks ← getRollupInfoByBlockRange env w.fromBlock w.toBlock
    let blocks ← addGenesisBlock cfg w.fromBlock blocks
    match ← checkReceived cfg env w.lastBlockSynced blocks with
    | .reorged block => pure (.done block)
    | .blocks blocks => do
        processBlockRange env blocks
        let lastBlockSynced ← lastProcessed cfg env w blocks
        nextWindow cfg { w with lastBlockSynced := lastBlockSynced }

/-- What `Sync` does with the result of a part of `syncBlocks`. -/
def conclude (cfg : Config) (env : Environment H) :
    EStateM.Result SyncErr (SyncState H) (Progress H) → SyncState H
  | .ok (.next window) s =>
    { s with
      phase := .syncing window
      outcome := .running }
  | .ok (.done block) s =>
    { s with
      lastBlockSynced := block
      phase := .called
      outcome := .returned }
  | .ok .panic s =>
    { s with
      phase := .stopped
      outcome := .panicked }
  | .error _ s =>
    match getLastBlock env s with
    | .ok block s =>
      { s with
        lastBlockSynced := block.getD (genesisBlock cfg)
        phase := .called
        outcome := .failed }
    | .error _ s =>
      { s with
        phase := .stopped
        outcome := .failed }

/-- The head check of `Sync` after a call of `syncBlocks`, and the wait for
the next one. -/
def checkLatestBlock (cfg : Config) (env : Environment H) :
    Sync H (Phase H) := do
  let s ← get
  if s.synced then pure .waiting
  else do
    let lastKnownBlock ← latestHeader env
    modify fun s =>
      { s with synced := s.lastBlockSynced.blockNumber = lastKnownBlock }
    if s.lastBlockSynced.blockNumber > lastKnownBlock then
      if cfg.networkID = 0 then pure .stopped
      else do
        resetState env lastKnownBlock
        pure .waiting
    else
      pure .waiting

def startSync (cfg : Config) (env : Environment H) : Sync H Unit := do
  modify fun s => { s with synced := false }
  let lastBlockSynced := (← getLastBlock env).getD (genesisBlock cfg)
  let header ← latestHeader env
  request env .storage fun _ _ => .ok ()
  modify fun s =>
    { s with
      lastBlockSynced := lastBlockSynced
      initialRemainingBlocks :=
        (header + 2 ^ 64 - lastBlockSynced.blockNumber) % 2 ^ 64
      bound := lastBlockSynced.blockNumber }

def step (cfg : Config) (env : Environment H) (s : SyncState H) :
    SyncState H :=
  match s.phase with
  | .stopped =>
    match startSync cfg env s with
    | .ok _ s =>
      { s with
        phase := .waiting
        outcome := .running }
    | .error _ s => s
  | .waiting => conclude cfg env (openRange cfg env s.lastBlockSynced s)
  | .syncing window => conclude cfg env (syncRange cfg env window s)
  | .called =>
    match checkLatestBlock cfg env s with
    | .ok phase s => { s with phase := phase }
    | .error _ s => { s with phase := .waiting }

def initial (cfg : Config) : SyncState H :=
  { blocks := []
    lastBlockSynced := genesisBlock cfg
    synced := false
    initialRemainingBlocks := 0
    bound := cfg.genBlockNumber
    phase := .stopped
    outcome := .running
    tick := 0 }

def run (cfg : Config) (env : Environment H) : Nat → SyncState H
  | 0 => initial cfg
  | steps + 1 => step cfg env (run cfg env steps)

end Loop

end BlockSync

end BridgeService
