import BridgeService.Etherman.ReadEvents

/-!
# Walking the order of a block

`processBlockRange` follows the order entries of the hash of a block in the
lists of that block and handles the events that it finds.  For logs that come
block by block, these are the events of the logs of the block in their order.
-/

namespace BridgeService

open Grouping Interleaving List

variable {H : Type}

section Walk

variable [DecidableEq H] [Externals H]

def ClientSynchronizer.handleEvent (s : ClientSynchronizer)
    (blockNumber blockID : Nat) (gers : NewGers) :
    Event H → Service H NewGers
  | .globalExitRoot ger => do
      s.processGlobalExitRoot ger blockID
      pure
        { isNewL1Ger := gers.isNewL1Ger || ger.exitRoots.length == 2
          isNewL2Ger := gers.isNewL2Ger || ger.exitRoots.length == 0 }
  | .removeL2GER ger => do
      s.processRemoveL2GlobalExitRoot ger blockID
      pure gers
  | .deposit deposit => do
      s.processDeposit deposit blockID
      pure gers
  | .claim claim => do
      s.processClaim claim blockID
      pure gers
  | .token token => do
      s.processTokenWrapped token blockID
      pure gers
  | .verifyBatch batch => do
      s.processVerifyBatch batch blockID
      pure gers
  | .backwardLET backwardLET => do
      s.processBackwardLETSovereign backwardLET blockID blockNumber
      pure gers
  | .unsetClaim unsetClaim => do
      s.processUnsetClaimSovereign unsetClaim blockID
      pure gers
  | .setClaim setClaim => do
      s.processSetClaimSovereign setClaim blockID blockNumber
      pure gers
  | .forwardLET forwardLET => do
      s.processForwardLETSovereign forwardLET blockID blockNumber
      pure gers

namespace ClientSynchronizer

variable {s : ClientSynchronizer} {block : Block H} {blockID : Nat}
  {gers : NewGers}

omit [DecidableEq H] [Externals H] in
private theorem eventAt_found {α : Type} {name : EventOrder}
    {events : List α} {pos : Nat} {event : α}
    (found : events[pos]? = some event) :
    (eventAt name events pos : Service H α) = pure event := by
  rw [eventAt, found]

theorem processElement_found {element : Order} {event : Event H}
    (found : block.event element = some event) :
    s.processElement block blockID gers element =
      s.handleEvent block.blockNumber blockID gers event := by
  obtain ⟨name, pos⟩ := element
  cases name <;>
    (obtain ⟨item, here, rfl⟩ := Option.map_eq_some_iff.mp found
     rw [processElement, eventAt_found here, pure_bind]
     rfl)

theorem walk_found {elements : List Order} {events : List (Event H)}
    (found : elements.map block.event = events.map some) (gers : NewGers) :
    elements.foldlM (s.processElement block blockID) gers =
      events.foldlM (s.handleEvent block.blockNumber blockID) gers := by
  apply ErrorState.foldlM_congr_map _ found
  intro gers element event _ here
  exact processElement_found here

end ClientSynchronizer

end Walk

/-- Logs that come block by block: a hash belongs to one number, and the logs
of a block stand together. -/
structure BlockByBlock (logs : List (Log H)) : Prop where
  numbers : ∀ first, first ∈ logs → ∀ second, second ∈ logs →
    first.blockHash = second.blockHash → first.blockNumber = second.blockNumber
  contiguous : Contiguous (logs.map Log.blockHash)

namespace BlockByBlock

variable {logs : List (Log H)}

theorem key_eq (byBlock : BlockByBlock logs) {first second : Nat × H}
    (firstIn : first ∈ logs.map Log.key) (secondIn : second ∈ logs.map Log.key)
    (same : first.2 = second.2) : first = second := by
  obtain ⟨log, logIn, rfl⟩ := mem_map.mp firstIn
  obtain ⟨other, otherIn, rfl⟩ := mem_map.mp secondIn
  exact Prod.ext (byBlock.numbers log logIn other otherIn same) same

theorem contiguous_keys (byBlock : BlockByBlock logs) :
    Contiguous (logs.map Log.key) := by
  intro last inside middle before first earlier same
  rw [length_map] at inside
  have together := byBlock.contiguous last (by simpa using inside) middle
    before first earlier
  simp only [getElem?_map, getElem?_eq_getElem inside,
    getElem?_eq_getElem (Nat.lt_trans before inside),
    getElem?_eq_getElem
      (Nat.lt_trans earlier (Nat.lt_trans before inside)),
    Option.map_some, Option.some.injEq] at together same ⊢
  have hash := together (congrArg Prod.snd same)
  exact Prod.ext (byBlock.numbers _ (getElem_mem _) _
    (getElem_mem _) hash) hash

end BlockByBlock

section RoundTrip

variable [DecidableEq H] [Externals H] {etherMan : EtherMan}
  {logs : List (Log H)}

omit [Externals H] in
theorem ordersOf_alone {groups : List (Group (Nat × H) (Event H))}
    (distinct : (groups.map fun group => group.key.2).Nodup)
    {group : Group (Nat × H) (Event H)} (mem : group ∈ groups) :
    ordersOf groups group.key.2 =
      (entries Event.order group.items).map orderAt := by
  have alone := Rows.filter_key distinct mem
  have same : (groups.filter fun other => other.key.2 = group.key.2) =
      [group] := by
    rw [← alone]
    rfl
  rw [ordersOf, same]
  simp

omit [DecidableEq H] [Externals H] in
theorem walk_blockOf (group : Group (Nat × H) (Event H)) :
    ((entries Event.order group.items).map orderAt).map
      (blockOf group).event = group.items.map some := by
  have walk : (entries Event.order group.items).map
      (lookup Event.order group.items) = group.items.map some :=
    walk_entries group.items
  rw [map_map, ← walk]
  apply map_congr_left
  intro entry _
  exact event_blockOf group entry

omit [Externals H] in
theorem addBlock_blockOf (group : Group (Nat × H) (Event H))
    (networkID : Nat) (dbTx : Querier) :
    Storage.addBlock (blockOf group) networkID dbTx =
      Storage.addBlock (Block.opened group.key.1 group.key.2) networkID
        dbTx := by
  simp only [Storage.addBlock, Storage.insertBlock, blockOf_blockHash,
    blockOf_blockNumber]
  rfl

omit [Externals H] [DecidableEq H] in
theorem pos_lt_count {group : Group (Nat × H) (Event H)} {element : Order}
    (mem : element ∈ (entries Event.order group.items).map orderAt) :
    element.pos < (blockOf group).count element.name := by
  obtain ⟨⟨name, pos⟩, inside, rfl⟩ := mem_map.mp mem
  rw [Block.count_eq, slice_blockOf]
  exact mem_entries.mp inside

section Groups

variable (decodes : ∀ vLog, vLog ∈ logs →
    ∃ event, etherMan.decoded vLog = .ok (some event))
  (byBlock : BlockByBlock logs)

include decodes byBlock

omit [DecidableEq H] in
theorem BlockByBlock.contiguous_events :
    Contiguous ((etherMan.events logs).map Prod.fst) := by
  rw [events_keys decodes]
  exact byBlock.contiguous_keys

theorem BlockByBlock.distinct_hashes :
    ((groups (etherMan.events logs)).map fun group =>
      group.key.2).Nodup := by
  have member : ∀ key,
      key ∈ (groups (etherMan.events logs)).map Group.key →
        key ∈ logs.map Log.key := by
    intro key mem
    rw [← events_keys decodes]
    exact mem_keys.mp mem
  have hashes := (nodup_keys
      (byBlock.contiguous_events decodes)).map_on
    fun first firstIn second secondIn same =>
      byBlock.key_eq (member first firstIn) (member second secondIn) same
  rwa [map_map] at hashes

theorem BlockByBlock.decoded_group {group : Group (Nat × H) (Event H)}
    (mem : group ∈ groups (etherMan.events logs)) :
    (logs.filter fun vLog => vLog.blockHash = group.key.2).map
        etherMan.decoded =
      group.items.map fun event => .ok (some event) := by
  have keyIn : group.key ∈ logs.map Log.key := by
    rw [← events_keys decodes, ← Grouping.mem_keys]
    exact mem_map_of_mem mem
  have same : (logs.filter fun vLog => vLog.blockHash = group.key.2) =
      logs.filter fun vLog => vLog.key = group.key := by
    apply filter_congr
    intro vLog inside
    rw [decide_eq_decide]
    constructor
    · exact byBlock.key_eq (mem_map_of_mem inside) keyIn
    · exact congrArg Prod.snd
  rw [same, group_items (byBlock.contiguous_events decodes) mem,
    events_filter]
  apply events_decoded
  intro vLog inside
  exact decodes vLog (mem_of_mem_filter inside)

end Groups

/-- Blocks in the order of their logs, with orders from which the events of
every block are read back. -/
theorem events_read_back (etherMan : EtherMan) {logs : List (Log H)}
    (decodes : ∀ vLog, vLog ∈ logs →
      ∃ event, etherMan.decoded vLog = .ok (some event))
    (byBlock : BlockByBlock logs) :
    ∃ read, etherMan.readEvents logs = .ok read ∧
      (read.blocks.map Block.blockHash).Nodup ∧
      (read.blocks.map fun block =>
        (block.blockNumber, block.blockHash)).Sublist (logs.map Log.key) ∧
      (∀ vLog, vLog ∈ logs →
        ∃ block, block ∈ read.blocks ∧ block.blockHash = vLog.blockHash) ∧
      ∀ block, block ∈ read.blocks → ∃ events : List (Event H),
        (logs.filter fun vLog => vLog.blockHash = block.blockHash).map
            etherMan.decoded = events.map (fun event => .ok (some event)) ∧
        (read.blocksOrder block.blockHash).map block.event = events.map some ∧
        (∀ element, element ∈ read.blocksOrder block.blockHash →
          element.pos < block.count element.name) ∧
        ∀ (s : ClientSynchronizer) blockID gers,
          (read.blocksOrder block.blockHash).foldlM
              (s.processElement block blockID) gers =
            events.foldlM
              (s.handleEvent block.blockNumber blockID) gers := by
  have keys := events_keys decodes
  have distinct := byBlock.distinct_hashes decodes
  refine ⟨_, readEvents_eq fun vLog mem => ?_, ?_, ?_, ?_, ?_⟩
  · obtain ⟨event, decoded⟩ := decodes vLog mem
    exact ⟨_, decoded⟩
  · simpa [Reading.ofGroups, Function.comp_def] using distinct
  · have inOrder := keys_sublist (etherMan.events logs)
    rw [keys] at inOrder
    simpa [Reading.ofGroups, Function.comp_def] using inOrder
  · intro vLog mem
    have key : vLog.key ∈ (groups (etherMan.events logs)).map Group.key := by
      rw [Grouping.mem_keys, keys]
      exact mem_map_of_mem mem
    obtain ⟨group, groupIn, same⟩ := mem_map.mp key
    refine ⟨blockOf group, mem_map_of_mem groupIn, ?_⟩
    rw [blockOf_blockHash, same]
    rfl
  · intro block mem
    obtain ⟨group, groupIn, rfl⟩ := mem_map.mp mem
    have order : (Reading.ofGroups
        (groups (etherMan.events logs))).blocksOrder group.key.2 =
          (entries Event.order group.items).map orderAt :=
      ordersOf_alone distinct groupIn
    rw [blockOf_blockHash, order]
    refine ⟨group.items, byBlock.decoded_group decodes groupIn,
      walk_blockOf group, fun element => pos_lt_count, ?_⟩
    intro s blockID gers
    exact ClientSynchronizer.walk_found (walk_blockOf group) gers

end RoundTrip

section Samples

def depositLog (blockNumber : Nat) (blockHash : Digest)
    (depositCount : Nat) : Log Digest :=
  { blockNumber := blockNumber
    blockHash := blockHash
    txHash := .bytes []
    data := .deposit
      { leafType := 0
        originNetwork := 0
        originAddress := 0
        destinationNetwork := 1
        destinationAddress := 0
        amount := 1
        metadata := []
        depositCount := depositCount } }

def unsetClaimLog (blockNumber : Nat) (blockHash : Digest)
    (unsetGlobalIndex : BitVec 256) : Log Digest :=
  { blockNumber := blockNumber
    blockHash := blockHash
    txHash := .bytes []
    data := .updatedUnsetGlobalIndexHashChain unsetGlobalIndex }

/-- Two deposits around an UnsetClaim event, and one event of the next
block. -/
def mixedLogs : List (Log Digest) :=
  [depositLog 1 (.bytes [1]) 0, unsetClaimLog 1 (.bytes [1]) 7,
    depositLog 1 (.bytes [1]) 1, unsetClaimLog 2 (.bytes [2]) 8]

def sampleEtherMan : EtherMan :=
  { decodeForwardLETLeaves := fun _ => none }

theorem mixed_events_read_back :
    ∃ read, sampleEtherMan.readEvents mixedLogs = .ok read ∧
      read.blocksOrder (.bytes [1]) =
        [⟨.depositsOrder, 0⟩, ⟨.unsetClaimOrder, 0⟩, ⟨.depositsOrder, 1⟩] ∧
      ∀ block, block ∈ read.blocks → ∃ events : List (Event Digest),
        (mixedLogs.filter fun vLog => vLog.blockHash = block.blockHash).map
            sampleEtherMan.decoded =
          events.map (fun event => .ok (some event)) ∧
        (read.blocksOrder block.blockHash).map block.event =
          events.map some := by
  have decodes : ∀ vLog, vLog ∈ mixedLogs →
      ∃ event, sampleEtherMan.decoded vLog = .ok (some event) := by
    simp only [mixedLogs, forall_mem_cons]
    exact ⟨⟨_, rfl⟩, ⟨_, rfl⟩, ⟨_, rfl⟩, ⟨_, rfl⟩, nofun⟩
  obtain ⟨read, ran, _, _, _, blocks⟩ := events_read_back sampleEtherMan
    decodes ⟨by decide, by decide⟩
  refine ⟨read, ran, ?_, ?_⟩
  · have order := congrArg (fun result =>
      match result with
      | .ok read => read.blocksOrder (.bytes [1])
      | .error _ => []) ran
    dsimp only at order
    rw [← order]
    decide +kernel
  · intro block mem
    obtain ⟨events, decoded, walk, _⟩ := blocks block mem
    exact ⟨events, decoded, walk⟩

end Samples

end BridgeService
