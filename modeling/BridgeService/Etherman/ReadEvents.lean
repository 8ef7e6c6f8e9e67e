import BridgeService.Etherman.Logs

/-!
# Blocks and orders as groups of events

Reading logs is described without blocks and orders: every log has an event,
and consecutive logs of one block form a group.  The blocks of `readEvents` are
the groups with one list for each kind of event, and the order of a block hash
has the entries of all groups with that hash.
-/

namespace BridgeService

open Grouping Interleaving List

variable {H : Type}

def Log.key (vLog : Log H) : Nat × H :=
  (vLog.blockNumber, vLog.blockHash)

section Slices

def Block.slice (block : Block H) : EventOrder → List (Event H)
  | .globalExitRootsOrder => block.globalExitRoots.map .globalExitRoot
  | .removeL2GEROrder => block.removeL2GER.map .removeL2GER
  | .depositsOrder => block.deposits.map .deposit
  | .claimsOrder => block.claims.map .claim
  | .tokensOrder => block.tokens.map .token
  | .verifyBatchOrder => block.verifiedBatches.map .verifyBatch
  | .backwardLETOrder => block.backwardLETs.map .backwardLET
  | .unsetClaimOrder => block.unsetClaims.map .unsetClaim
  | .setClaimOrder => block.setClaims.map .setClaim
  | .forwardLETOrder => block.forwardLETs.map .forwardLET

theorem Block.count_eq (block : Block H) (name : EventOrder) :
    block.count name = (block.slice name).length := by
  cases name <;> simp [Block.count, Block.slice]

theorem Block.event_eq (block : Block H) (element : Order) :
    block.event element = (block.slice element.name)[element.pos]? := by
  obtain ⟨name, pos⟩ := element
  cases name <;> simp [Block.event, Block.slice]

theorem Block.slice_push (block : Block H) (event : Event H)
    (name : EventOrder) :
    (block.push event).slice name =
      block.slice name ++ Interleaving.slice Event.order [event] name := by
  cases event <;> cases name <;>
    simp [Block.slice, Block.push, Interleaving.slice, Event.order]

@[simp] theorem Block.push_blockHash (block : Block H) (event : Event H) :
    (block.push event).blockHash = block.blockHash := by
  cases event <;> rfl

@[simp] theorem Block.push_blockNumber (block : Block H) (event : Event H) :
    (block.push event).blockNumber = block.blockNumber := by
  cases event <;> rfl

def blockOf (group : Group (Nat × H) (Event H)) : Block H :=
  group.items.foldl Block.push (Block.opened group.key.1 group.key.2)

theorem blockOf_nil (key : Nat × H) :
    blockOf ⟨key, []⟩ = Block.opened key.1 key.2 := rfl

theorem blockOf_concat (key : Nat × H) (items : List (Event H))
    (event : Event H) :
    blockOf ⟨key, items ++ [event]⟩ = (blockOf ⟨key, items⟩).push event := by
  simp [blockOf]

@[simp] theorem blockOf_blockHash (group : Group (Nat × H) (Event H)) :
    (blockOf group).blockHash = group.key.2 := by
  obtain ⟨key, items⟩ := group
  induction items using List.reverseRecOn with
  | nil => rfl
  | append_singleton items event induction =>
    rw [blockOf_concat, Block.push_blockHash, induction]

@[simp] theorem blockOf_blockNumber (group : Group (Nat × H) (Event H)) :
    (blockOf group).blockNumber = group.key.1 := by
  obtain ⟨key, items⟩ := group
  induction items using List.reverseRecOn with
  | nil => rfl
  | append_singleton items event induction =>
    rw [blockOf_concat, Block.push_blockNumber, induction]

theorem slice_blockOf (group : Group (Nat × H) (Event H))
    (name : EventOrder) :
    (blockOf group).slice name =
      Interleaving.slice Event.order group.items name := by
  obtain ⟨key, items⟩ := group
  induction items using List.reverseRecOn with
  | nil => cases name <;> rfl
  | append_singleton items event induction =>
    rw [blockOf_concat, Block.slice_push, induction, Interleaving.slice_append]

def orderAt (entry : EventOrder × Nat) : Order :=
  { name := entry.1
    pos := entry.2 }

theorem event_blockOf (group : Group (Nat × H) (Event H))
    (entry : EventOrder × Nat) :
    (blockOf group).event (orderAt entry) =
      lookup Event.order group.items entry := by
  rw [Block.event_eq, slice_blockOf]
  rfl

end Slices

section Groups

variable [DecidableEq H]

def ordersOf (groups : List (Group (Nat × H) (Event H))) (blockHash : H) :
    List Order :=
  (groups.filter fun group => group.key.2 = blockHash).flatMap fun group =>
    (entries Event.order group.items).map orderAt

def Reading.ofGroups (groups : List (Group (Nat × H) (Event H))) :
    Reading H :=
  { blocks := groups.map blockOf
    blocksOrder := ordersOf groups }

theorem ordersOf_append (first second : List (Group (Nat × H) (Event H)))
    (blockHash : H) :
    ordersOf (first ++ second) blockHash =
      ordersOf first blockHash ++ ordersOf second blockHash := by
  simp [ordersOf]

theorem ordersOf_singleton (group : Group (Nat × H) (Event H))
    (blockHash : H) :
    ordersOf [group] blockHash = if group.key.2 = blockHash then
      (entries Event.order group.items).map orderAt else [] := by
  rw [ordersOf, filter_singleton]
  split <;> simp_all

omit [DecidableEq H] in
theorem count_push (group : Group (Nat × H) (Event H)) (event : Event H) :
    ((blockOf group).push event).count event.order - 1 =
      (Interleaving.slice Event.order group.items event.order).length := by
  rw [Block.count_eq, Block.slice_push, slice_blockOf, slice_singleton_self]
  simp

theorem ordersOf_concat (earlier : List (Group (Nat × H) (Event H)))
    (key : Nat × H) (items : List (Event H)) (event : Event H) :
    ordersOf (earlier ++ [⟨key, items ++ [event]⟩]) =
      Function.update (ordersOf (earlier ++ [⟨key, items⟩])) key.2
        (ordersOf (earlier ++ [⟨key, items⟩]) key.2 ++ [orderAt (event.order,
            (Interleaving.slice Event.order items event.order).length)]) := by
  funext blockHash
  by_cases same : blockHash = key.2
  · subst same
    rw [Function.update_self, ordersOf_append, ordersOf_append,
      ordersOf_singleton, ordersOf_singleton, if_pos rfl, if_pos rfl,
      entries_concat, map_append, append_assoc]
    rfl
  · have other : ¬key.2 = blockHash := fun here => same here.symm
    rw [Function.update_of_ne same, ordersOf_append, ordersOf_append,
      ordersOf_singleton, ordersOf_singleton, if_neg other, if_neg other]

theorem ordersOf_empty (groups : List (Group (Nat × H) (Event H)))
    (key : Nat × H) : ordersOf (groups ++ [⟨key, []⟩]) = ordersOf groups := by
  funext blockHash
  rw [ordersOf_append, ordersOf_singleton]
  split
  · exact append_nil _
  · exact append_nil _

private theorem storeEvent_of {vLog : Log H} {event : Event H}
    {read : Reading H} (earlier : List (Group (Nat × H) (Event H)))
    (items : List (Event H))
    (stored : appendOrOpen vLog event read.blocks =
      .ok (earlier.map blockOf, (blockOf ⟨vLog.key, items⟩).push event))
    (orders : read.blocksOrder = ordersOf (earlier ++ [⟨vLog.key, items⟩])) :
    storeEvent vLog event read =
      .ok (.ofGroups (earlier ++ [⟨vLog.key, items ++ [event]⟩])) := by
  have position := count_push ⟨vLog.key, items⟩ event
  have hash : ((blockOf ⟨vLog.key, items⟩).push event).blockHash =
      vLog.key.2 := by simp
  have blocks : List.map blockOf (earlier ++ [⟨vLog.key, items ++ [event]⟩]) =
      earlier.map blockOf ++ [(blockOf ⟨vLog.key, items⟩).push event] := by
    rw [map_append, map_singleton, blockOf_concat]
  rw [storeEvent, stored, Reading.ofGroups, ordersOf_concat, blocks, ← orders,
    ← position, ← hash]
  rfl

theorem storeEvent_ofGroups (vLog : Log H) (event : Event H)
    (groups : List (Group (Nat × H) (Event H))) :
    storeEvent vLog event (.ofGroups groups) =
      .ok (.ofGroups (add groups vLog.key event)) := by
  rcases eq_nil_or_concat groups with rfl | ⟨earlier, last, rfl⟩
  · exact storeEvent_of [] [] rfl (ordersOf_empty [] vLog.key).symm
  · rw [concat_eq_append]
    obtain ⟨key, items⟩ := last
    by_cases same : key = vLog.key
    · subst same
      rw [add_same]
      apply storeEvent_of earlier items _ rfl
      simp [appendOrOpen, Reading.ofGroups, Log.key]
    · rw [add_other earlier same]
      have orders : (Reading.ofGroups (earlier ++ [⟨key, items⟩])).blocksOrder =
          ordersOf (earlier ++ [⟨key, items⟩] ++ [⟨vLog.key, []⟩]) :=
        (ordersOf_empty _ vLog.key).symm
      apply storeEvent_of _ [] _ orders
      have other : key.2 ≠ vLog.blockHash ∨ key.1 ≠ vLog.blockNumber := by
        by_contra both
        apply same
        simp only [not_or, not_not] at both
        exact Prod.ext both.2 both.1
      simp [appendOrOpen, Reading.ofGroups, other, blockOf_nil, Log.key]

end Groups

section Events

variable {ε α β : Type} {logs : List (Log H)} {result : Except ε α}

private theorem map_ok {make : α → β} {value : β}
    (mapped : (result.map fun made => some (make made)) = .ok (some value)) :
    ∃ made, result = .ok made ∧ make made = value := by
  cases result with
  | error err => contradiction
  | ok made =>
    injection mapped with same
    exact ⟨made, rfl, Option.some.inj same⟩

private theorem map_ne_none {make : α → β}
    (mapped : (result.map fun made => some (make made)) = .ok none) :
    False := by
  cases result with
  | error err => contradiction
  | ok made =>
    cases mapped

private theorem bind_ok_of {made : α} {rest : α → Except ε β}
    (ok : result = .ok made) : (result >>= rest) = rest made := by
  rw [ok]
  rfl

variable [DecidableEq H] [Externals H]

/-- The event that the decoder of a log makes; an ignored log has none. -/
def EtherMan.decoded (etherMan : EtherMan) (vLog : Log H) :
    Except ReadErr (Option (Event H)) :=
  match vLog.data with
  | .updateGlobalExitRoot mainnetExitRoot rollupExitRoot
  | .updateL1InfoTree mainnetExitRoot rollupExitRoot =>
    .ok (some (.globalExitRoot (exitRootOf vLog
      [mainnetExitRoot, rollupExitRoot]
      (hash mainnetExitRoot rollupExitRoot))))
  | .deposit d => .ok (some (.deposit (depositOf vLog d)))
  | .claim c => (newClaimOf vLog c).map fun claim => some (.claim claim)
  | .oldClaim c => .ok (some (.claim (oldClaimOf vLog c)))
  | .newWrappedToken originNetwork originTokenAddress wrappedTokenAddress =>
    .ok (some (.token (tokenOf vLog originNetwork originTokenAddress
      wrappedTokenAddress)))
  | .verifyBatchesTrustedAggregator rollupID exitRoot
  | .rollupManagerVerifyBatches rollupID exitRoot =>
    .ok (some (.verifyBatch (verifiedBatchOf vLog rollupID exitRoot)))
  | .updateHashChainValue newGlobalExitRoot =>
    .ok (some (.globalExitRoot (exitRootOf vLog [] newGlobalExitRoot)))
  | .updateRemovalHashChainValue removedGlobalExitRoot =>
    .ok (some (.removeL2GER (exitRootOf vLog [] removedGlobalExitRoot)))
  | .backwardLET LET => .ok (some (.backwardLET (backwardLETOf LET)))
  | .forwardLET LET newLeaves =>
    (etherMan.forwardLETOf vLog LET newLeaves).map fun forwardLET =>
      some (.forwardLET forwardLET)
  | .setClaim globalIndex =>
    (setClaimOf vLog globalIndex).map fun setClaim =>
      some (.setClaim setClaim)
  | .updatedUnsetGlobalIndexHashChain unsetGlobalIndex =>
    (unsetClaimOf unsetGlobalIndex).map fun unsetClaim =>
      some (.unsetClaim unsetClaim)
  | .ignored => .ok none
  | .unparsed => .error .parse

variable {etherMan : EtherMan}

theorem processEvent_eq {vLog : Log H} {event : Event H}
    (decoded : etherMan.decoded vLog = .ok (some event)) (read : Reading H) :
    etherMan.processEvent vLog read = storeEvent vLog event read := by
  obtain ⟨blockNumber, blockHash, txHash, data⟩ := vLog
  cases data with
  | claim c =>
    obtain ⟨claim, made, rfl⟩ := map_ok decoded
    exact bind_ok_of made
  | forwardLET LET newLeaves =>
    obtain ⟨forwardLET, made, rfl⟩ := map_ok decoded
    exact bind_ok_of made
  | setClaim globalIndex =>
    obtain ⟨setClaim, made, rfl⟩ := map_ok decoded
    exact bind_ok_of made
  | updatedUnsetGlobalIndexHashChain unsetGlobalIndex =>
    obtain ⟨unsetClaim, made, rfl⟩ := map_ok decoded
    exact bind_ok_of made
  | ignored =>
    cases decoded
  | unparsed => contradiction
  | _ =>
    injection decoded with same
    cases same
    rfl

theorem processEvent_ignored {vLog : Log H}
    (decoded : etherMan.decoded vLog = .ok none) (read : Reading H) :
    etherMan.processEvent vLog read = .ok read := by
  obtain ⟨blockNumber, blockHash, txHash, data⟩ := vLog
  cases data with
  | ignored => rfl
  | unparsed => contradiction
  | claim c => exact (map_ne_none decoded).elim
  | forwardLET LET newLeaves => exact (map_ne_none decoded).elim
  | setClaim globalIndex => exact (map_ne_none decoded).elim
  | updatedUnsetGlobalIndexHashChain unsetGlobalIndex =>
    exact (map_ne_none decoded).elim
  | _ =>
    cases decoded

def EtherMan.keyedEvent (etherMan : EtherMan) (vLog : Log H) :
    Option ((Nat × H) × Event H) :=
  match etherMan.decoded vLog with
  | .ok (some event) => some (vLog.key, event)
  | _ => none

def EtherMan.events (etherMan : EtherMan) (logs : List (Log H)) :
    List ((Nat × H) × Event H) :=
  logs.filterMap etherMan.keyedEvent

omit [DecidableEq H] in
theorem events_concat (logs : List (Log H)) (vLog : Log H) :
    etherMan.events (logs ++ [vLog]) =
      etherMan.events logs ++ (etherMan.keyedEvent vLog).toList := by
  rw [EtherMan.events, filterMap_append]
  cases single : etherMan.keyedEvent vLog with
  | none => simp [EtherMan.events, single]
  | some event => simp [EtherMan.events, single]

section

variable (decodes : ∀ vLog, vLog ∈ logs →
  ∃ event, etherMan.decoded vLog = .ok (some event))

include decodes

omit [DecidableEq H] in
theorem events_pairs :
    logs.map (fun vLog => (vLog.key, etherMan.decoded vLog)) =
      (etherMan.events logs).map fun event =>
        (event.1, .ok (some event.2)) := by
  induction logs with
  | nil => rfl
  | cons vLog rest induction =>
    obtain ⟨event, decoded⟩ := decodes vLog mem_cons_self
    have tail := induction fun other mem =>
      decodes other (mem_cons_of_mem _ mem)
    have here : etherMan.keyedEvent vLog = some (vLog.key, event) := by
      simp [EtherMan.keyedEvent, decoded]
    rw [EtherMan.events, filterMap_cons_some here, map_cons,
      map_cons, decoded]
    exact congrArg _ tail

omit [DecidableEq H] in
theorem events_keys :
    (etherMan.events logs).map Prod.fst = logs.map Log.key := by
  have keys := congrArg (map Prod.fst) (events_pairs decodes)
  simpa [Function.comp_def] using keys.symm

omit [DecidableEq H] in
theorem events_decoded :
    logs.map etherMan.decoded =
      ((etherMan.events logs).map Prod.snd).map fun event =>
        .ok (some event) := by
  have values := congrArg (map Prod.snd) (events_pairs decodes)
  simpa [Function.comp_def] using values

end

theorem events_filter (logs : List (Log H)) (key : Nat × H) :
    (etherMan.events logs).filter (fun event => event.1 = key) =
      etherMan.events (logs.filter fun vLog => vLog.key = key) := by
  rw [EtherMan.events, EtherMan.events, filter_filterMap,
    filterMap_filter]
  congr 1
  funext vLog
  rw [EtherMan.keyedEvent]
  split
  · exact Option.filter_some
  · simp

/-- `readEvents` returns the groups of consecutive events of one block. -/
theorem readEvents_eq
    (decodes : ∀ vLog, vLog ∈ logs →
      ∃ event, etherMan.decoded vLog = .ok event) :
    etherMan.readEvents logs =
      .ok (.ofGroups (groups (etherMan.events logs))) := by
  induction logs using List.reverseRecOn with
  | nil => rfl
  | append_singleton logs vLog induction =>
    have earlier := induction fun other mem =>
      decodes other (mem_append_left _ mem)
    obtain ⟨event, decoded⟩ := decodes vLog (by simp)
    have read : etherMan.readEvents (logs ++ [vLog]) =
        etherMan.processEvent vLog
          (.ofGroups (groups (etherMan.events logs))) := by
      rw [EtherMan.readEvents, foldlM_append]
      change (etherMan.readEvents logs >>= _) = _
      rw [earlier, bind_ok_of rfl]
      exact bind_pure (etherMan.processEvent vLog _)
    rw [read, events_concat]
    cases event with
    | none =>
      rw [processEvent_ignored decoded]
      simp [EtherMan.keyedEvent, decoded]
    | some event =>
      rw [processEvent_eq decoded, storeEvent_ofGroups, ← groups_concat]
      simp [EtherMan.keyedEvent, decoded]

end Events

end BridgeService
