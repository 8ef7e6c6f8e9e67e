import BridgeService.Synchronizer.BlockRun
import BridgeService.Synchronizer.EventWalk
import Mathlib.Algebra.Order.BigOperators.Group.List

/-!
# Blocks whose logs do not stand together

When the logs of a block come in several runs, `readEvents` makes one block of
every run, but all of them share one order.  `processBlockRange` then follows
the order entries of every run in the lists of each of them.  It fails if two
runs of a block differ in the number of events of some kind.  Otherwise every
run is handled once for each run of its block, and nothing but the handlers
can refuse it.
-/

namespace BridgeService

open ErrorState Grouping Interleaving List

variable {H : Type} [DecidableEq H]

section Runs

def runsOf (runs : List (Group (Nat × H) (Event H)))
    (run : Group (Nat × H) (Event H)) :
    List (Group (Nat × H) (Event H)) :=
  runs.filter fun other => other.key.2 = run.key.2

/-- The events of a run, once for each run of its block, in the order in which
that run has its kinds of events. -/
def replayed (runs : List (Group (Nat × H) (Event H)))
    (run : Group (Nat × H) (Event H)) : Group (Nat × H) (Event H) :=
  { key := run.key
    items := (runsOf runs run).flatMap fun other =>
      pass Event.order other.items run.items }

/-- All runs of a block have the same number of events of every kind. -/
def Balanced (runs : List (Group (Nat × H) (Event H))) : Prop :=
  ∀ run, run ∈ runs → ∀ other, other ∈ runs → other.key.2 = run.key.2 →
    ∀ sort, (slice Event.order other.items sort).length =
      (slice Event.order run.items sort).length

/-- The events that the loops over blocks and orders hand to the handlers when
they run to their end. -/
def Reading.handled (read : Reading H) : List (Event H) :=
  read.blocks.flatMap fun block =>
    (read.blocksOrder block.blockHash).filterMap block.event

variable {runs : List (Group (Nat × H) (Event H))}
  {run : Group (Nat × H) (Event H)}

theorem Balanced.walk (balanced : Balanced runs) (inside : run ∈ runs) :
    (ordersOf runs run.key.2).map (blockOf run).event =
      (replayed runs run).items.map some := by
  have passes : ∀ others : List (Group (Nat × H) (Event H)),
      (∀ other, other ∈ others → other ∈ runsOf runs run) →
      (others.flatMap fun other =>
          (entries Event.order other.items).map orderAt).map
          (blockOf run).event =
        (others.flatMap fun other =>
          pass Event.order other.items run.items).map some := by
    intro others among
    induction others with
    | nil => rfl
    | cons other rest induction =>
      obtain ⟨otherIn, same⟩ := mem_filter.mp
        (among other mem_cons_self)
      have counts := balanced run inside other otherIn (of_decide_eq_true same)
      have here : ((entries Event.order other.items).map orderAt).map
          (blockOf run).event =
          (pass Event.order other.items run.items).map some := by
        rw [← map_pass fun sort => Nat.le_of_eq (counts sort),
          map_map]
        apply map_congr_left
        intro entry _
        exact event_blockOf run entry
      rw [flatMap_cons, flatMap_cons, map_append,
        map_append, here, induction fun item later =>
          among item (mem_cons_of_mem _ later)]
  exact passes (runsOf runs run) fun _ inside => inside

theorem Balanced.length_replayed (balanced : Balanced runs)
    (inside : run ∈ runs) :
    (replayed runs run).items.length =
      (runsOf runs run).length * run.items.length := by
  have passes : ∀ other, other ∈ runsOf runs run →
      (pass Event.order other.items run.items).length =
        run.items.length := by
    intro other among
    obtain ⟨otherIn, same⟩ := mem_filter.mp among
    exact (pass_perm (balanced run inside other otherIn
      (of_decide_eq_true same))).length_eq
  rw [replayed, length_flatMap, map_congr_left passes,
    map_const', sum_replicate_nat]

theorem Balanced.handled_eq (balanced : Balanced runs) :
    (Reading.ofGroups runs).handled =
      (runs.map (replayed runs)).flatMap Group.items := by
  rw [Reading.handled, Reading.ofGroups, flatMap_map, flatMap_map]
  apply flatMap_congr
  intro run inside
  have walk := congrArg (List.filterMap id) (balanced.walk inside)
  rw [filterMap_map, filterMap_map] at walk
  simpa using walk

theorem replayed_alone
    (distinct : (runs.map fun run => run.key.2).Nodup)
    (inside : run ∈ runs) : replayed runs run = run := by
  have alone : runsOf runs run = [run] := by
    rw [← Rows.filter_key distinct inside]
    rfl
  rw [replayed, alone, flatMap_singleton, pass_self]

theorem Balanced.more_handled (balanced : Balanced runs)
    (filled : ∀ run, run ∈ runs → run.items ≠ [])
    (split : ¬(runs.map fun run => run.key.2).Nodup) :
    (runs.flatMap Group.items).length <
      ((runs.map (replayed runs)).flatMap Group.items).length := by
  have passes : ∀ run, run ∈ runs → 1 ≤ (runsOf runs run).length := by
    intro run inside
    exact length_pos_of_mem
      (mem_filter.mpr ⟨inside, decide_eq_true rfl⟩)
  have several : ∃ run, run ∈ runs ∧ 1 < (runsOf runs run).length := by
    rw [nodup_iff_count_le_one] at split
    simp only [not_forall, not_le] at split
    obtain ⟨blockHash, twice⟩ := split
    have present := count_pos_iff.mp (Nat.lt_trans Nat.zero_lt_one twice)
    obtain ⟨run, runIn, rfl⟩ := mem_map.mp present
    refine ⟨run, runIn, ?_⟩
    rw [count_eq_countP, countP_map,
      countP_eq_length_filter] at twice
    exact twice
  obtain ⟨run, runIn, twice⟩ := several
  rw [flatMap_map, length_flatMap, length_flatMap]
  apply sum_lt_sum
  · intro other inside
    rw [balanced.length_replayed inside]
    exact Nat.le_mul_of_pos_left _ (passes other inside)
  · refine ⟨run, runIn, ?_⟩
    have positive := length_pos_iff.mpr (filled run runIn)
    rw [balanced.length_replayed runIn]
    exact (Nat.lt_mul_iff_one_lt_left positive).mpr twice

end Runs

variable [Externals H]

namespace ClientSynchronizer

def processEvents (s : ClientSynchronizer) (gers : NewGers)
    (run : Group (Nat × H) (Event H)) : Service H NewGers := do
  Storage.beginDBTransaction
  let blockID ← s.orRollback (Storage.addBlock
    (Block.opened run.key.1 run.key.2) s.networkID .tx)
  let gers ← run.items.foldlM (s.handleEvent run.key.1 blockID) gers
  s.orRollback Storage.commit
  pure gers

/-- Hand the events of blocks to their handlers, and send the new global exit
roots. -/
def handOver (s : ClientSynchronizer)
    (runs : List (Group (Nat × H) (Event H))) : Service H Unit := do
  let gers ← runs.foldlM s.processEvents
    { isNewL1Ger := false
      isNewL2Ger := false }
  if gers.isNewL1Ger then s.sendL1Ger
  if gers.isNewL2Ger then s.sendL2Ger

variable {s : ClientSynchronizer}
  {runs : List (Group (Nat × H) (Event H))}

private theorem processBlock_replayed (balanced : Balanced runs)
    {run : Group (Nat × H) (Event H)} (inside : run ∈ runs)
    (gers : NewGers) :
    s.processBlock (ordersOf runs) gers (blockOf run) =
      s.processEvents gers (replayed runs run) := by
  have walk : ∀ blockID gers,
      (ordersOf runs (blockOf run).blockHash).foldlM
          (s.processElement (blockOf run) blockID) gers =
        (replayed runs run).items.foldlM
          (s.handleEvent run.key.1 blockID) gers := by
    intro blockID gers
    rw [blockOf_blockHash, walk_found (balanced.walk inside),
      blockOf_blockNumber]
  rw [processBlock, processEvents, addBlock_blockOf]
  simp only [walk]
  rfl

theorem processBlockRange_replayed (balanced : Balanced runs) :
    s.processBlockRange (Reading.ofGroups runs).blocks
        (Reading.ofGroups runs).blocksOrder =
      s.handOver (runs.map (replayed runs)) := by
  have loop : s.processBlocks (runs.map blockOf) (ordersOf runs) =
      (runs.map (replayed runs)).foldlM s.processEvents
        { isNewL1Ger := false
          isNewL2Ger := false } := by
    rw [processBlocks, foldlM_map, foldlM_map]
    have same : runs.map id = runs.map id := rfl
    apply foldlM_congr_map _ same
    intro gers run other inside same
    rw [show run = other from same]
    exact processBlock_replayed balanced inside gers
  rw [processBlockRange, handOver, ← loop]
  rfl

private theorem event_of_returns {w w' : World H} {gers gers' : NewGers}
    {order : H → List Order} {block : Block H}
    (ran : s.processBlock order gers block w = .ok gers' w')
    {element : Order} (inside : element ∈ order block.blockHash) :
    (block.event element).isSome = true := by
  obtain ⟨_, opened, _, rest⟩ := bind_ok ran
  obtain ⟨blockID, started, _, rest⟩ := bind_ok rest
  obtain ⟨gers'', handled, elements, _⟩ := bind_ok rest
  obtain ⟨start, before, result, after, here⟩ := foldlM_ok_mem elements inside
  by_contra missing
  have malformed : ¬block.WellFormedAt element := by
    rintro ⟨event, found, _⟩
    rw [found] at missing
    exact missing rfl
  obtain ⟨err, failed⟩ :=
    processElement_malformed malformed blockID start before
  rw [here] at failed
  contradiction

theorem balanced_of_returns {w w' : World H}
    (ran : s.processBlockRange (Reading.ofGroups runs).blocks
      (Reading.ofGroups runs).blocksOrder w = .ok () w') :
    Balanced runs := by
  obtain ⟨gers, between, blocks, _⟩ := bind_ok ran
  have enough : ∀ run, run ∈ runs → ∀ other, other ∈ runs →
      other.key.2 = run.key.2 → ∀ sort,
        (slice Event.order other.items sort).length ≤
          (slice Event.order run.items sort).length := by
    intro run runIn other otherIn same
    obtain ⟨start, before, result, after, processed⟩ :=
      foldlM_ok_mem blocks (mem_map_of_mem runIn)
    apply walkable_iff.mp
    intro entry entryIn
    rw [← event_blockOf]
    apply event_of_returns processed
    rw [blockOf_blockHash]
    apply mem_flatMap.mpr
    refine ⟨other, ?_, mem_map_of_mem entryIn⟩
    exact mem_filter.mpr ⟨otherIn, decide_eq_true same⟩
  intro run runIn other otherIn same sort
  exact Nat.le_antisymm (enough run runIn other otherIn same sort)
    (enough other otherIn run runIn same.symm sort)

end ClientSynchronizer

section Logs

variable {etherMan : EtherMan} {logs : List (Log H)}

theorem blockByBlock_iff
    (decodes : ∀ vLog, vLog ∈ logs →
      ∃ event, etherMan.decoded vLog = .ok (some event)) :
    BlockByBlock logs ↔
      ((groups (etherMan.events logs)).map fun run => run.key.2).Nodup := by
  constructor
  · intro byBlock
    exact byBlock.distinct_hashes decodes
  · intro distinct
    have keys := events_keys decodes
    constructor
    · intro first firstIn second secondIn same
      have run : ∀ vLog, vLog ∈ logs →
          ∃ run, run ∈ groups (etherMan.events logs) ∧
            run.key = vLog.key := by
        intro vLog inside
        apply mem_map.mp
        rw [Grouping.mem_keys, keys]
        exact mem_map_of_mem inside
      obtain ⟨one, oneIn, oneKey⟩ := run first firstIn
      obtain ⟨other, otherIn, otherKey⟩ := run second secondIn
      have hashes : one.key.2 = other.key.2 := by
        rw [oneKey, otherKey]
        exact same
      rw [inj_on_of_nodup_map distinct oneIn otherIn hashes,
        otherKey] at oneKey
      exact congrArg Prod.fst oneKey.symm
    · have together := contiguous_of_groups distinct
      have hashes : ((etherMan.events logs).map fun item => item.1.2) =
          logs.map Log.blockHash := by
        have images := congrArg (List.map Prod.snd) keys
        rw [map_map, map_map] at images
        exact images
      rw [hashes] at together
      exact together

/-- If logs come block by block, or two runs of a block differ in the number
of events of some kind, then reading and processing them returns an error or
applies every log once.  For all other logs only a handler can return an error:
a range that is processed has been applied more than once. -/
theorem logs_applied_once (s : ClientSynchronizer)
    (decodes : ∀ vLog, vLog ∈ logs →
      ∃ event, etherMan.decoded vLog = .ok (some event)) (w : World H) :
    ∃ read, etherMan.readEvents logs = .ok read ∧
      (∀ w', s.processBlockRange read.blocks read.blocksOrder w = .ok () w' →
        ∃ blocks, blocks.flatMap Group.items = read.handled ∧
          s.handOver blocks w = .ok () w') ∧
      (BlockByBlock logs ∨ ¬Balanced (groups (etherMan.events logs)) →
        (∃ err w', s.processBlockRange read.blocks read.blocksOrder w =
            .error err w') ∨
          read.handled.Perm ((etherMan.events logs).map Prod.snd)) ∧
      (¬BlockByBlock logs → Balanced (groups (etherMan.events logs)) →
        logs.length < read.handled.length) := by
  have ranges := readEvents_eq fun vLog inside => by
    obtain ⟨event, decoded⟩ := decodes vLog inside
    exact ⟨_, decoded⟩
  have items : (groups (etherMan.events logs)).flatMap Group.items =
      (etherMan.events logs).map Prod.snd := by
    have whole := congrArg (List.map Prod.snd)
      (flatMap_groups (etherMan.events logs))
    simpa [map_flatMap, Function.comp_def] using whole
  have size : ((etherMan.events logs).map Prod.snd).length = logs.length := by
    have keys := congrArg List.length (events_keys decodes)
    simpa using keys
  have filled : ∀ run, run ∈ groups (etherMan.events logs) →
      run.items ≠ [] := fun _ inside => items_ne_nil inside
  rw [blockByBlock_iff decodes]
  refine ⟨_, ranges, ?_⟩
  rw [← size, ← items]
  generalize groups (etherMan.events logs) = runs at filled
  refine ⟨?_, ?_, ?_⟩
  · intro w' ran
    have balanced := ClientSynchronizer.balanced_of_returns ran
    refine ⟨_, balanced.handled_eq.symm, ?_⟩
    rw [← ClientSynchronizer.processBlockRange_replayed balanced]
    exact ran
  · intro condition
    by_cases balanced : Balanced runs
    · right
      have distinct := condition.resolve_right fun uneven => uneven balanced
      rw [balanced.handled_eq, flatMap_map,
        flatMap_congr fun run inside =>
          congrArg Group.items (replayed_alone distinct inside)]
    · left
      cases ran : s.processBlockRange (Reading.ofGroups runs).blocks
          (Reading.ofGroups runs).blocksOrder w with
      | ok value w' =>
        exact absurd (ClientSynchronizer.balanced_of_returns ran) balanced
      | error err w' => exact ⟨err, w', rfl⟩
  · intro split balanced
    rw [balanced.handled_eq]
    exact balanced.more_handled filled split

end Logs

section Samples

open ClientSynchronizer

def unevenLogs : List (Log Digest) :=
  [unsetClaimLog 1 (.bytes [1]) 7, unsetClaimLog 2 (.bytes [2]) 8,
    depositLog 1 (.bytes [1]) 0]

def splitLogs : List (Log Digest) :=
  [unsetClaimLog 1 (.bytes [1]) 7, unsetClaimLog 2 (.bytes [2]) 8,
    unsetClaimLog 1 (.bytes [1]) 9]

theorem uneven_runs_refused :
    ∃ read, sampleEtherMan.readEvents unevenLogs = .ok read ∧
      ((∃ err w', sampleSynchronizer.processBlockRange read.blocks
          read.blocksOrder (World.start 2 [1]) = .error err w') ∨
        read.handled.Perm
          ((sampleEtherMan.events unevenLogs).map Prod.snd)) := by
  have decodes : ∀ vLog, vLog ∈ unevenLogs →
      ∃ event, sampleEtherMan.decoded vLog = .ok (some event) := by
    simp only [unevenLogs, forall_mem_cons]
    exact ⟨⟨_, rfl⟩, ⟨_, rfl⟩, ⟨_, rfl⟩, nofun⟩
  have uneven : ¬Balanced (groups (sampleEtherMan.events unevenLogs)) := by
    intro balanced
    have counts := balanced
      ((groups (sampleEtherMan.events unevenLogs)).get ⟨0, by decide⟩)
      (get_mem _ _)
      ((groups (sampleEtherMan.events unevenLogs)).get ⟨2, by decide⟩)
      (get_mem _ _) (by decide) .depositsOrder
    exact absurd counts (by decide)
  obtain ⟨read, ran, _, applied, _⟩ :=
    logs_applied_once sampleSynchronizer decodes (World.start 2 [1])
  exact ⟨read, ran, applied (.inr uneven)⟩

/-- Even runs of a block whose handlers refuse the second pass: the deposit is
already in the tree. -/
def splitDepositLogs : List (Log Digest) :=
  [depositLog 1 (.bytes [1]) 0, unsetClaimLog 2 (.bytes [2]) 8,
    depositLog 1 (.bytes [1]) 1]

example : returns (sampleSynchronizer.processBlockRange
    (Reading.ofGroups (groups (sampleEtherMan.events splitDepositLogs))).blocks
    (Reading.ofGroups
      (groups (sampleEtherMan.events splitDepositLogs))).blocksOrder)
    (fun _ _ => true) (World.start 2 [1]) = false := by
  decide +kernel

/-- Even runs are applied once for each run of their block. -/
theorem split_block_applied_twice :
    ∃ read w', sampleEtherMan.readEvents splitLogs = .ok read ∧
      sampleSynchronizer.processBlockRange read.blocks read.blocksOrder
        (World.start 2 [1]) = .ok () w' ∧
      w'.committed.setUnsetClaim.map SetUnsetClaimRow.globalIndex =
        ["7", "7", "8", "9", "9"] ∧
      ¬read.handled.Perm
        ((sampleEtherMan.events splitLogs).map Prod.snd) := by
  have returned : returns (sampleSynchronizer.processBlockRange
      (Reading.ofGroups (groups (sampleEtherMan.events splitLogs))).blocks
      (Reading.ofGroups
        (groups (sampleEtherMan.events splitLogs))).blocksOrder)
      (fun _ w => w.committed.setUnsetClaim.map
        SetUnsetClaimRow.globalIndex = ["7", "7", "8", "9", "9"])
      (World.start 2 [1]) = true := by
    decide +kernel
  obtain ⟨_, w', ran, rows⟩ := exists_of_returns returned
  refine ⟨_, w', readEvents_eq ?_, ran, of_decide_eq_true rows, ?_⟩
  · simp only [splitLogs, forall_mem_cons]
    exact ⟨⟨_, rfl⟩, ⟨_, rfl⟩, ⟨_, rfl⟩, nofun⟩
  · intro once
    exact absurd once.length_eq (by decide +kernel)

end Samples

end BridgeService
