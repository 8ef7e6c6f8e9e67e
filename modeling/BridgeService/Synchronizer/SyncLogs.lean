import BridgeService.Synchronizer.EventWalk
import BridgeService.Synchronizer.Faultless

/-!
# From logs to the tables

For logs that come block by block, `readEvents` and `processBlockRange`
together handle one log after the other, in one transaction for each block.
When no call of the storage fails, the tables after a block are those after its
handlers.
-/

namespace BridgeService

open ErrorState Grouping World List

variable {H : Type} [DecidableEq H] [Externals H]

namespace ClientSynchronizer

def handleLog (s : ClientSynchronizer) (etherMan : EtherMan)
    (blockNumber blockID : Nat) (gers : NewGers) (vLog : Log H) :
    Service H NewGers :=
  match etherMan.decoded vLog with
  | .ok (some event) => s.handleEvent blockNumber blockID gers event
  | _ => pure gers

def processLogs (s : ClientSynchronizer) (etherMan : EtherMan)
    (gers : NewGers) (group : Group (Nat × H) (Log H)) :
    Service H NewGers := do
  Storage.beginDBTransaction
  let blockID ← s.orRollback (Storage.addBlock
    (Block.opened group.key.1 group.key.2) s.networkID .tx)
  let gers ← group.items.foldlM
    (s.handleLog etherMan group.key.1 blockID) gers
  s.orRollback Storage.commit
  pure gers

variable {s : ClientSynchronizer} {etherMan : EtherMan}
  {logs : List (Log H)}

def keyedLogs (logs : List (Log H)) : List ((Nat × H) × Log H) :=
  logs.map fun vLog => (vLog.key, vLog)

private theorem decoded_groups
    (decodes : ∀ vLog, vLog ∈ logs →
      ∃ event, etherMan.decoded vLog = .ok (some event)) :
    ((groups (keyedLogs logs)).map fun group =>
        (group.key, group.items.map etherMan.decoded)) =
      (groups (etherMan.events logs)).map fun group =>
        (group.key, group.items.map fun event => .ok (some event)) := by
  have pairs : ((keyedLogs logs).map fun item =>
      (item.1, etherMan.decoded item.2)) =
      (etherMan.events logs).map fun item => (item.1, .ok (some item.2)) := by
    rw [← events_pairs decodes, keyedLogs, map_map]
    rfl
  have same := congrArg groups pairs
  rw [groups_map, groups_map (fun event => Except.ok (some event))] at same
  have images := congrArg
    (List.map fun group => (group.key, group.items)) same
  simpa [Function.comp_def] using images

private theorem processBlock_eq {order : H → List Order}
    {group : Group (Nat × H) (Log H)} {other : Group (Nat × H) (Event H)}
    (ordered : order other.key.2 =
      (Interleaving.entries Event.order other.items).map orderAt)
    (same : (group.key, group.items.map etherMan.decoded) =
      (other.key, other.items.map fun event => .ok (some event)))
    (gers : NewGers) :
    s.processLogs etherMan gers group =
      s.processBlock order gers (blockOf other) := by
  injection same with key items
  have walk : ∀ blockID gers,
      group.items.foldlM (s.handleLog etherMan group.key.1 blockID) gers =
        (order (blockOf other).blockHash).foldlM
          (s.processElement (blockOf other) blockID) gers := by
    intro blockID gers
    rw [blockOf_blockHash, ordered, walk_found (walk_blockOf other),
      blockOf_blockNumber, key]
    apply foldlM_congr_map _ items
    intro gers vLog event _ decoded
    rw [handleLog, decoded]
  rw [processLogs, processBlock, addBlock_blockOf, ← key]
  simp only [walk]

theorem processBlocks_byBlock
    (decodes : ∀ vLog, vLog ∈ logs →
      ∃ event, etherMan.decoded vLog = .ok (some event))
    (byBlock : BlockByBlock logs) :
    ∃ read, etherMan.readEvents logs = .ok read ∧
      s.processBlocks read.blocks read.blocksOrder =
        (groups (keyedLogs logs)).foldlM (s.processLogs etherMan)
          { isNewL1Ger := false
            isNewL2Ger := false } := by
  refine ⟨_, readEvents_eq fun vLog mem => ?_, ?_⟩
  · obtain ⟨event, decoded⟩ := decodes vLog mem
    exact ⟨_, decoded⟩
  · have distinct := byBlock.distinct_hashes decodes
    rw [processBlocks, Reading.ofGroups, foldlM_map]
    symm
    apply foldlM_congr_map _ (decoded_groups decodes)
    intro gers group other mem same
    exact processBlock_eq (ordersOf_alone distinct mem) same gers

section Rule

variable {inv : List (Log H) → Tables H → Prop} {fails : Prop}

/-- Handling a log leads from tables with one property to tables with another
one, unless it fails. -/
def Handles (s : ClientSynchronizer) (etherMan : EtherMan) (fails : Prop)
    (before after : Tables H → Prop) (vLog : Log H) : Prop :=
  ∀ blockID gers,
    Triple (WithinTx fun t => before t ∧ t.HasBlock blockID vLog.blockHash)
      (s.handleLog etherMan vLog.blockNumber blockID gers vLog)
      (fun gers' w => gers' = gers ∧ w.WithinTx fun t =>
        after t ∧ t.HasBlock blockID vLog.blockHash)
      fun _ _ => fails

theorem handles_of_event {before after : Tables H → Prop} {vLog : Log H}
    {event : Event H} (decoded : etherMan.decoded vLog = .ok (some event))
    (handled : ∀ t blockID gers, before t → t.HasBlock blockID vLog.blockHash →
        Triple (WithinTx fun t' => t' = t)
          (s.handleEvent vLog.blockNumber blockID gers event)
          (fun gers' w => gers' = gers ∧ w.WithinTx fun t' =>
            after t' ∧ t'.block = t.block)
          fun _ _ => fails) :
    s.Handles etherMan fails before after vLog := by
  intro blockID gers
  apply triple_inTx
  rintro t ⟨here, has⟩
  rw [handleLog, decoded]
  apply (handled t blockID gers here has).post _
  rintro gers' w ⟨same, faultless, t', view, later, blocks⟩
  refine ⟨same, faultless, t', view, later, ?_⟩
  rw [Tables.HasBlock, blocks]
  exact has

/-- Handling one of the logs keeps an invariant of the logs handled so far and
of the tables, unless it fails. -/
def KeepsLogs (s : ClientSynchronizer) (etherMan : EtherMan) (fails : Prop)
    (inv : List (Log H) → Tables H → Prop) (logs : List (Log H)) : Prop :=
  ∀ done vLog rest, logs = done ++ vLog :: rest →
    s.Handles etherMan fails (inv done) (inv (done ++ [vLog])) vLog

private theorem handleLogs_keep (keeps : s.KeepsLogs etherMan fails inv logs)
    {key : Nat × H} {blockID : Nat} (gers : NewGers) (items : List (Log H))
    (keys : ∀ vLog, vLog ∈ items → vLog.key = key)
    (done rest : List (Log H)) (split : logs = done ++ items ++ rest) :
    Triple (WithinTx fun t => inv done t ∧ t.HasBlock blockID key.2)
      (items.foldlM (s.handleLog etherMan key.1 blockID) gers)
      (fun gers' w => gers' = gers ∧ w.WithinTx fun t =>
        inv (done ++ items) t ∧ t.HasBlock blockID key.2)
      fun _ _ => fails := by
  induction items generalizing done with
  | nil =>
    apply Triple.pure
    intro w start
    rw [append_nil]
    exact ⟨rfl, start⟩
  | cons vLog items induction =>
    have here : vLog.key = key := keys vLog mem_cons_self
    subst here
    rw [foldlM_cons]
    apply Triple.bind (keeps done vLog (items ++ rest) _ blockID gers)
    · intro gers'
      apply Triple.of_pure
      rintro rfl
      have tail := induction
        (fun other mem =>
          keys other (mem_cons_of_mem _ mem))
        (done ++ [vLog]) (by simpa using split)
      simp only [append_assoc, singleton_append] at tail
      exact tail
    · simpa using split

section

variable (keeps : s.KeepsLogs etherMan fails inv logs)
  (opened : ∀ done t row, inv done t →
    inv done { t with block := t.block ++ [row] })
  (gers : NewGers)

include keeps opened gers

private theorem processLogs_keep (group : Group (Nat × H) (Log H))
    (keys : ∀ vLog, vLog ∈ group.items → vLog.key = group.key)
    (done rest : List (Log H)) (split : logs = done ++ group.items ++ rest) :
    Triple (Committed (inv done)) (s.processLogs etherMan gers group)
      (fun gers' w => gers' = gers ∧
        w.Committed (inv (done ++ group.items)))
      fun _ _ => fails := by
  apply Triple.bind Storage.begin_inTx
  intro _
  apply Triple.bind (orRollback_fails
    (Storage.addBlock_inTx (fun _ here => here) (opened done)))
  intro blockID
  apply Triple.bind (handleLogs_keep keeps gers group.items keys done rest
    split)
  intro gers'
  apply Triple.of_pure
  rintro rfl
  have commit : Triple
      (WithinTx fun t => inv (done ++ group.items) t ∧
        t.HasBlock blockID group.key.2)
      (s.orRollback Storage.commit) _ fun _ _ => fails :=
    orRollback_fails Storage.commit_inTx
  apply Triple.bind commit
  intro _
  apply Triple.pure
  intro w committed
  exact ⟨rfl, committed.1, committed.2.1⟩

private theorem processGroups_keep (groups : List (Group (Nat × H) (Log H)))
    (keys : ∀ group, group ∈ groups →
      ∀ vLog, vLog ∈ group.items → vLog.key = group.key)
    (done : List (Log H)) (split : logs = done ++ groups.flatMap Group.items) :
    Triple (Committed (inv done))
      (groups.foldlM (s.processLogs etherMan) gers)
      (fun gers' w => gers' = gers ∧ w.Committed (inv logs))
      fun _ _ => fails := by
  induction groups generalizing done with
  | nil =>
    apply Triple.pure
    intro w start
    rw [split, flatMap_nil, append_nil]
    exact ⟨rfl, start⟩
  | cons group groups induction =>
    rw [foldlM_cons]
    rw [flatMap_cons, ← append_assoc] at split
    apply Triple.bind (processLogs_keep keeps opened gers group
      (keys group mem_cons_self) done _ split)
    intro gers'
    apply Triple.of_pure
    rintro rfl
    exact induction
      (fun other mem =>
        keys other (mem_cons_of_mem _ mem)) _ split

end

omit [Externals H] in
private theorem key_of_mem {group : Group (Nat × H) (Log H)}
    (mem : group ∈ groups (keyedLogs logs)) {vLog : Log H}
    (inGroup : vLog ∈ group.items) : vLog.key = group.key := by
  have pair : (group.key, vLog) ∈ keyedLogs logs := by
    rw [← flatMap_groups (keyedLogs logs), mem_flatMap]
    exact ⟨group, mem, mem_map.mpr ⟨vLog, inGroup, rfl⟩⟩
  obtain ⟨other, _, same⟩ := mem_map.mp pair
  injection same with key value
  rw [← key, value]

omit [Externals H] in
private theorem flatMap_items (logs : List (Log H)) :
    (groups (keyedLogs logs)).flatMap Group.items = logs := by
  have same := congrArg (List.map Prod.snd) (flatMap_groups (keyedLogs logs))
  rw [map_flatMap] at same
  simpa [keyedLogs, Function.comp_def] using same

theorem processBlockRange_keep
    (decodes : ∀ vLog, vLog ∈ logs →
      ∃ event, etherMan.decoded vLog = .ok (some event))
    (byBlock : BlockByBlock logs)
    (keeps : s.KeepsLogs etherMan fails inv logs)
    (opened : ∀ done t row, inv done t →
      inv done { t with block := t.block ++ [row] }) :
    ∃ read, etherMan.readEvents logs = .ok read ∧ Triple (Committed (inv []))
        (s.processBlockRange read.blocks read.blocksOrder)
        (fun _ => Committed (inv logs)) fun _ _ => fails := by
  obtain ⟨read, readLogs, run⟩ := processBlocks_byBlock decodes byBlock
  refine ⟨read, readLogs, ?_⟩
  rw [processBlockRange, run]
  apply Triple.bind (processGroups_keep keeps opened _ _
    (fun _ mem _ inGroup => key_of_mem mem inGroup) [] _)
  · intro gers
    apply Triple.of_pure
    rintro rfl
    exact .pure fun _ committed => committed
  · rw [nil_append, flatMap_items]

end Rule

end ClientSynchronizer

/-- Logs of ranges of blocks have been read and processed, one range after the
other, each by the synchronizer of its network. -/
inductive Synced (etherMan : EtherMan) :
    List (ClientSynchronizer × List (Log H)) → World H → World H → Prop
  | nil (w : World H) : Synced etherMan [] w w
  | cons {s : ClientSynchronizer} {logs : List (Log H)} {read : Reading H}
      {ranges : List (ClientSynchronizer × List (Log H))}
      {w middle w' : World H} :
      etherMan.readEvents logs = .ok read →
      s.processBlockRange read.blocks read.blocksOrder w = .ok () middle →
      Synced etherMan ranges middle w' →
      Synced etherMan ((s, logs) :: ranges) w w'

def networkLogs (ranges : List (ClientSynchronizer × List (Log H))) :
    List (Nat × Log H) :=
  ranges.flatMap fun range =>
    range.2.map fun vLog => (range.1.networkID, vLog)

namespace Synced

variable {etherMan : EtherMan} {fails : Prop}
  {inv : List (Nat × Log H) → Tables H → Prop}
  {ranges : List (ClientSynchronizer × List (Log H))} {w w' : World H}

/-- The ranges can be read, and handling one of their logs keeps an invariant,
unless it fails. -/
structure Kept (etherMan : EtherMan) (fails : Prop)
    (inv : List (Nat × Log H) → Tables H → Prop)
    (done : List (Nat × Log H))
    (ranges : List (ClientSynchronizer × List (Log H))) : Prop where
  decodes : ∀ range, range ∈ ranges → ∀ vLog, vLog ∈ range.2 →
    ∃ event, etherMan.decoded vLog = .ok (some event)
  byBlock : ∀ range, range ∈ ranges → BlockByBlock range.2
  opened : ∀ done t row, inv done t →
    inv done { t with block := t.block ++ [row] }
  step : ∀ (s : ClientSynchronizer) earlier vLog rest,
    done ++ networkLogs ranges = earlier ++ (s.networkID, vLog) :: rest →
      s.Handles etherMan fails (inv earlier)
        (inv (earlier ++ [(s.networkID, vLog)])) vLog

namespace Kept

variable {done : List (Nat × Log H)} {s : ClientSynchronizer}
  {logs : List (Log H)}

theorem head (kept : Kept etherMan fails inv done ((s, logs) :: ranges)) :
    ∃ read, etherMan.readEvents logs = .ok read ∧ Triple (Committed (inv done))
        (s.processBlockRange read.blocks read.blocksOrder)
        (fun _ => Committed (inv (done ++
          logs.map fun vLog => (s.networkID, vLog))))
        fun _ _ => fails := by
  have keeps : s.KeepsLogs etherMan fails
      (fun handled => inv (done ++
        handled.map fun vLog => (s.networkID, vLog))) logs := by
    intro handled vLog rest split
    have handles := kept.step s
      (done ++ handled.map fun vLog => (s.networkID, vLog)) vLog
      (rest.map (fun vLog => (s.networkID, vLog)) ++ networkLogs ranges)
      (by simp [networkLogs, split])
    simpa [append_assoc] using handles
  obtain ⟨read, readLogs, run⟩ :=
    ClientSynchronizer.processBlockRange_keep
      (kept.decodes _ mem_cons_self) (kept.byBlock _ mem_cons_self)
      keeps fun _ => kept.opened _
  simp only [map_nil, append_nil] at run
  exact ⟨read, readLogs, run⟩

theorem tail (kept : Kept etherMan fails inv done ((s, logs) :: ranges)) :
    Kept etherMan fails inv
      (done ++ logs.map fun vLog => (s.networkID, vLog)) ranges where
  decodes range mem :=
    kept.decodes range (mem_cons_of_mem _ mem)
  byBlock range mem :=
    kept.byBlock range (mem_cons_of_mem _ mem)
  opened := kept.opened
  step s' earlier vLog rest split := by
    apply kept.step s' earlier vLog rest
    rw [← split]
    simp [networkLogs]

end Kept

theorem keeps {done : List (Nat × Log H)}
    (kept : Kept etherMan fails inv done ranges)
    (synced : Synced etherMan ranges w w') (start : w.Committed (inv done)) :
    w'.Committed (inv (done ++ networkLogs ranges)) := by
  induction synced generalizing done with
  | nil w => simpa [networkLogs] using start
  | cons readLogs ran _ induction =>
    obtain ⟨read, readAgain, run⟩ := kept.head
    rw [readLogs] at readAgain
    cases readAgain
    have later := induction kept.tail (run.ok start ran)
    simpa [networkLogs] using later

theorem exists_run {done : List (Nat × Log H)}
    (kept : Kept etherMan False inv done ranges)
    (start : w.Committed (inv done)) : ∃ w', Synced etherMan ranges w w' := by
  induction ranges generalizing w done with
  | nil => exact ⟨w, .nil w⟩
  | cons range ranges induction =>
    obtain ⟨s, logs⟩ := range
    obtain ⟨read, readLogs, run⟩ := kept.head
    obtain ⟨_, _, ran, next⟩ := run.exists_ok w start fun _ _ => id
    obtain ⟨w', later⟩ := induction kept.tail next
    exact ⟨w', .cons readLogs ran later⟩

end Synced

end BridgeService
