import BridgeService.Synchronizer.GrowingChain

/-!
# Every event block is stored once

On a chain that never reorganises, the blocks are stored in ascending order,
each of them once, whatever calls fail and whatever part of a range a failing
call has stored.  When `syncBlocks` returns, the stored blocks are exactly the
event blocks above the genesis block up to the end of the last range.
-/

namespace BridgeService.BlockSync

open ChainView

variable {H : Type}

section Runs

variable [DecidableEq H] [Externals H] {cfg : Config} {env : Environment H}

omit [DecidableEq H] in
theorem initial_good (chain : Chain H) :
    Good cfg chain (initial cfg : SyncState H) := by
  have covers : chain.Covers cfg.genBlockNumber cfg.genBlockNumber [] :=
    ⟨chain.complete_nil le_rfl, .inl le_rfl⟩
  exact ⟨⟨List.Pairwise.nil, _, le_rfl, covers⟩, fun _ => covers,
    trivial⟩

theorem run_good (cfg : Config) (never : env.NeverReorgs) (steps : Nat) :
    Sees env (Good cfg) (run cfg env steps) := by
  induction steps with
  | zero => exact ⟨0, le_rfl, initial_good _⟩
  | succ steps induction =>
    exact (step_advances never induction).mono le_rfl fun _ advances =>
      advances.good

/-- The stored blocks are event blocks in ascending order, a step only adds
blocks after them, and they are all event blocks up to the bound when
`syncBlocks` has returned. -/
theorem event_blocks_stored_once (cfg : Config) (never : env.NeverReorgs)
    (steps : Nat) :
    let s := run cfg env steps
    let chain := env.view s.tick
    s.blocks <+: (step cfg env s).blocks ∧ Ascending s.blocks ∧
      (∀ block, block ∈ s.blocks → chain.Marks block ∧
        cfg.genBlockNumber < block.blockNumber) ∧
      (s.outcome = .returned → ∀ block, block ∈ s.blocks ↔
        chain.Marks block ∧ cfg.genBlockNumber < block.blockNumber ∧
          block.blockNumber ≤ s.bound) := by
  intro s chain
  have sees := run_good cfg never steps
  obtain ⟨_, _, advances⟩ := step_advances never sees
  obtain ⟨first, start, good⟩ := sees
  have grown : chain.Extends (env.view first) := never first s.tick start
  obtain ⟨ascending, high, _, covers⟩ := good.gathered
  refine ⟨advances.kept, ascending, ?_, ?_⟩
  · intro block stored
    obtain ⟨marks, above, _⟩ := ((covers.grow grown).complete block).mp stored
    exact ⟨marks, above⟩
  · intro returned
    have running : s.outcome ≠ .failed := by
      rw [returned]
      decide
    exact ((good.exact running).grow grown).complete

end Runs

def sampleChain (head : Nat) : Chain Digest :=
  { head := min head 9
    hash := fun number => .zero (number + 1)
    marked := fun number => number ∈ [3, 5, 6] }

def sampleEnvironment : Environment Digest :=
  { view := fun tick => sampleChain (tick + 2)
    fault := fun tick => tick = 7
    committed := fun _ => 1
    numbers := fun tick => by
      change min (tick + 2) 9 + 1 < 2 ^ 64
      omega }

def sampleConfig : Config :=
  { networkID := 1
    genBlockNumber := 1
    syncChunkSize := 4
    forceSyncChunk := false }

theorem sampleEnvironment_neverReorgs : sampleEnvironment.NeverReorgs := by
  intro earlier later order
  refine ⟨?_, fun _ _ => rfl, fun _ _ => rfl⟩
  change min (earlier + 2) 9 ≤ min (later + 2) 9
  omega

/-- Three event blocks, with a call that fails after it has stored one. -/
theorem three_blocks_stored_once :
    (run sampleConfig sampleEnvironment 3).outcome = .failed ∧
      ((run sampleConfig sampleEnvironment 3).blocks.map
        BlockRef.blockNumber) = [3] ∧
      (run sampleConfig sampleEnvironment 7).outcome = .returned ∧
      ((run sampleConfig sampleEnvironment 7).blocks.map
        BlockRef.blockNumber) = [3, 5, 6] ∧
      Ascending (run sampleConfig sampleEnvironment 7).blocks ∧
      ∀ block, block ∈ (run sampleConfig sampleEnvironment 7).blocks ↔
        (sampleEnvironment.view
            (run sampleConfig sampleEnvironment 7).tick).Marks block ∧
          1 < block.blockNumber ∧ block.blockNumber ≤
            (run sampleConfig sampleEnvironment 7).bound := by
  have returned : (run sampleConfig sampleEnvironment 7).outcome =
      .returned := by decide +kernel
  obtain ⟨_, ascending, _, exact⟩ := event_blocks_stored_once sampleConfig
    sampleEnvironment_neverReorgs 7
  exact ⟨by decide +kernel, by decide +kernel, returned, by decide +kernel,
    ascending, exact returned⟩

end BridgeService.BlockSync
