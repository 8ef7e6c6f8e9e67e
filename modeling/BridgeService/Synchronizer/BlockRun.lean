import BridgeService.Bridgectrl.Runs
import BridgeService.Synchronizer.Effects

/-!
# Runs of blocks

A block that is processed without error commits the effect of all its events.
A block that fails is undone, unless it stopped at an element that cannot be
handled.  In both cases the synchronizer is ready for the next block.
-/

namespace BridgeService

open ErrorState List

variable {H : Type} [DecidableEq H] [Externals H]

inductive AppliesAll (ctx : BlockContext H) :
    List (Event H) → Tables H → Tables H → Prop
  | nil (t : Tables H) : AppliesAll ctx [] t t
  | cons {event : Event H} {rest : List (Event H)} {t t' t'' : Tables H}
      (applies : Applies ctx t event t')
      (others : AppliesAll ctx rest t' t'') :
      AppliesAll ctx (event :: rest) t t''

/-- The counts of all events of a block stay below the number of leaves. -/
def Block.WithinCap (height : Nat) (block : Block H) : Prop :=
  ∀ element event, block.event element = some event → event.WithinCap height

omit [DecidableEq H] [Externals H] in
theorem Block.withinCap_iff {height : Nat} {block : Block H} :
    block.WithinCap height ↔ (∀ made, made ∈ block.deposits →
        made.depositCount + 1 < 2 ^ height) ∧
      ∀ added, added ∈ block.forwardLETs →
        added.previousDepositCount + added.newLeaves.length <
          2 ^ height := by
  constructor
  · intro withinCap
    refine ⟨fun made inside => ?_, fun added inside => ?_⟩
    · obtain ⟨pos, found⟩ := getElem?_of_mem inside
      exact withinCap ⟨.depositsOrder, pos⟩ (.deposit made)
        (congrArg (Option.map Event.deposit) found)
    · obtain ⟨pos, found⟩ := getElem?_of_mem inside
      exact withinCap ⟨.forwardLETOrder, pos⟩ (.forwardLET added)
        (congrArg (Option.map Event.forwardLET) found)
  · rintro ⟨deposits, forwardLETs⟩ ⟨name, pos⟩ event found
    cases name with
    | depositsOrder =>
      obtain ⟨made, here, rfl⟩ := Option.map_eq_some_iff.mp found
      exact deposits made (mem_of_getElem? here)
    | forwardLETOrder =>
      obtain ⟨added, here, rfl⟩ := Option.map_eq_some_iff.mp found
      exact forwardLETs added (mem_of_getElem? here)
    | _ =>
      obtain ⟨_, _, rfl⟩ := Option.map_eq_some_iff.mp found
      trivial

instance Block.decidableWithinCap (height : Nat) (block : Block H) :
    Decidable (block.WithinCap height) :=
  decidable_of_iff _ Block.withinCap_iff.symm

structure World.Settled (before : World H) (networkID height : Nat)
    (t : Tables H) (w : World H) : Prop where
  session : ∃ mt, before.Session .pool networkID t mt w ∧
    mt.networkID = networkID ∧
    mt.Represents height (t.leavesOf networkID)
  tables : t.TreeTables height
  capacity : (t.leavesOf networkID).length < 2 ^ height
  others : ∀ other, other ≠ networkID →
    t.leavesOf other = before.committed.leavesOf other

/-- A committed block: the tables after all its events. -/
inductive BlockCommits (height : Nat) (s : ClientSynchronizer)
    (order : H → List Order) (block : Block H) (before : World H)
    (t : Tables H) : Prop
  | intro (blockID : Nat) (start : Tables H) (events : List (Event H))
      (added : BlockAdded block s.networkID before.committed blockID start)
      (ordered : (order block.blockHash).map block.event = events.map some)
      (applied : AppliesAll
        (before.context s height blockID block.blockNumber) events start t)

omit [DecidableEq H] [Externals H] in
theorem Block.filterMap_event {block : Block H} {elements : List Order}
    {events : List (Event H)}
    (ordered : elements.map block.event = events.map some) :
    elements.filterMap block.event = events := by
  have same := congrArg (List.filterMap id) ordered
  simpa [filterMap_map] using same

variable {s : ClientSynchronizer} {height networkID : Nat}
  {before w w' : World H} {t : Tables H}

omit [DecidableEq H] in
theorem World.Settled.committed
    (settled : before.Settled networkID height t w) : w.committed = t := by
  obtain ⟨mt, ⟨seqs, tick, rfl, _⟩, _⟩ := settled.session
  rfl

omit [DecidableEq H] in
theorem World.Settled.openTxs
    (settled : before.Settled networkID height t w) :
    w.openTxs = before.openTxs := by
  obtain ⟨mt, ⟨seqs, tick, rfl, _⟩, _⟩ := settled.session
  rfl

omit [DecidableEq H] in
theorem World.RolledBack.settled (consistent : before.Consistent height)
    (undone : before.RolledBack networkID height w) :
    before.Settled networkID height before.committed w :=
  ⟨undone, consistent.tables, consistent.capacity networkID,
    fun _ _ => rfl⟩

omit [DecidableEq H] in
theorem World.Settled.ready
    (settled : before.Settled networkID height t w)
    (ready : s.Ready height before) : s.Ready height w := by
  obtain ⟨mt, session, network, represents⟩ := settled.session
  have consistent := ready.consistent.of_session session settled.tables
    settled.capacity settled.others network represents
  obtain ⟨seqs, tick, rfl, _⟩ := session
  refine
    { small := ready.small
      injective := ready.injective
      consistent := consistent
      idle := ready.idle
      registered := ?_
      reads := ⟨ready.reads.getLastDepositCount, ready.reads.getRoot,
        ready.reads.get⟩
      rollback := ready.rollback
      retries := ready.retries }
  obtain ⟨old, registered⟩ := ready.registered
  by_cases same : s.networkID = networkID
  · exact ⟨mt, by rw [same]; exact World.put_tree⟩
  · refine ⟨old, ?_⟩
    change Function.update before.exitTrees networkID (some mt)
      s.networkID = some old
    rw [Function.update_of_ne same]
    exact registered

namespace ClientSynchronizer

variable {block : Block H} {blockID : Nat}

variable {gers : NewGers} {err : Err}

section

variable (ready : s.Ready height before)

include ready

theorem processElements_ok (withinCap : block.WithinCap height)
    (elements : List Order) {gers' : NewGers} {t : Tables H} {w w' : World H}
    (processing : before.Processing s.networkID height t w)
    (ran : elements.foldlM (s.processElement block blockID) gers w =
      .ok gers' w') :
    ∃ events t', elements.map block.event = events.map some ∧
      AppliesAll (before.context s height blockID block.blockNumber) events
        t t' ∧
      before.Processing s.networkID height t' w' := by
  induction elements generalizing gers t w with
  | nil =>
    cases ran
    exact ⟨[], t, rfl, .nil t, processing⟩
  | cons element rest induction =>
    rw [foldlM_cons] at ran
    obtain ⟨middle, between, first, others⟩ := bind_ok ran
    by_cases wellFormed : block.WellFormedAt element
    · obtain ⟨event, here, wellFormed⟩ := wellFormed
      obtain ⟨t₁, applies, processing₁⟩ :=
        (processElement_effect ready here wellFormed
          (withinCap element event here) blockID gers).ok processing first
      obtain ⟨events, t', ordered, applied, processing'⟩ :=
        induction processing₁ others
      refine ⟨event :: events, t', ?_, .cons applies applied, processing'⟩
      rw [map_cons, map_cons, here, ordered]
    · obtain ⟨err, failed⟩ :=
        processElement_malformed (s := s) wellFormed blockID gers w
      simp [failed] at first

theorem processElements_error (withinCap : block.WithinCap height)
    {elements : List Order} {t : Tables H} {w w' : World H}
    (processing : before.Processing s.networkID height t w)
    (ran : elements.foldlM (s.processElement block blockID) gers w =
      .error err w') :
    before.Failed s.networkID height err w' ∨
      ∃ done element rest gers', elements = done ++ element :: rest ∧
        done.foldlM (s.processElement block blockID) gers w = .ok gers' w' ∧
        ¬block.WellFormedAt element ∧
        before.opened.Working .tx s.networkID height w' := by
  obtain ⟨done, element, rest, gers', middle, split, prior, failed⟩ :=
    foldlM_error ran
  obtain ⟨events, t', _, _, processing'⟩ :=
    processElements_ok ready withinCap done processing prior
  by_cases wellFormed : block.WellFormedAt element
  · obtain ⟨event, here, wellFormed⟩ := wellFormed
    exact .inl ((processElement_effect ready here wellFormed
      (withinCap element event here) blockID gers').error processing' failed)
  · obtain ⟨raised, unchanged⟩ :=
      processElement_malformed (s := s) wellFormed blockID gers' middle
    rw [unchanged] at failed
    cases failed
    exact .inr ⟨done, element, rest, gers', split, prior, wellFormed,
      processing'.working⟩

omit [DecidableEq H] in
theorem begin_error (ran : Storage.beginDBTransaction before = .error err w) :
    before.Settled s.networkID height before.committed w := by
  rw [begin_eq] at ran
  split at ran
  · cases ran
    obtain ⟨mt, registered⟩ := ready.registered
    obtain ⟨network, represents⟩ :=
      ready.consistent.trees s.networkID mt registered
    exact World.RolledBack.settled ready.consistent
      ⟨mt, ⟨before.seqs, before.tick + 1,
        (congrArg World.advance (put_self registered)).symm, .refl _,
        ready.consistent.issued⟩, network, represents⟩
  · contradiction

theorem addBlock_effect (block : Block H) :
    Triple (fun w => w = before.opened)
      (s.orRollback (Storage.addBlock block s.networkID .tx))
      (fun id w => ∃ t,
        BlockAdded block s.networkID before.committed id t ∧
        before.Processing s.networkID height t w)
      (before.Failed s.networkID height) := by
  apply orRollback_triple ready
  obtain ⟨mt, registered⟩ := ready.registered
  obtain ⟨network, represents⟩ :=
    ready.consistent.trees s.networkID mt registered
  rintro _ rfl
  refine ((addBlock_session block s.networkID).weaken ?_ ?_) before.opened
      (opened_session ready.consistent.issued registered)
  · rintro id w ⟨t, added, session⟩
    have same : t.entries = before.committed.entries ∧
        t.root = before.committed.root ∧ t.rht = before.committed.rht := by
      cases added with
      | known row stored sameHash => exact ⟨rfl, rfl, rfl⟩
      | new id positive fresh unknown => exact ⟨rfl, rfl, rfl⟩
    have leaves := Tables.leavesOf_congr same.1
    refine ⟨t, added, ⟨mt, session, network, ?_⟩,
      ready.consistent.tables.congr same.1 same.2.1 same.2.2, ?_, ?_⟩
    · rw [leaves]
      exact represents
    · rw [leaves]
      exact ready.consistent.capacity s.networkID
    · intro other _
      exact leaves other
  · rintro _ w ⟨_, session⟩
    exact ⟨_, mt, session, represents.height_eq, network⟩

theorem commit_effect {t : Tables H} :
    before.Handles s.networkID height t
      (s.orRollback (Storage.commit : Service H Unit))
      (fun _ => before.Settled s.networkID height t) := by
  apply orRollback_triple ready
  intro w processing
  obtain ⟨mt, session, network, represents⟩ := processing.session
  cases ran : Storage.commit w with
  | ok _ w' =>
    exact ⟨⟨mt, commit_session ready.idle session ran, network,
      represents⟩, processing.tables, processing.capacity,
      processing.others⟩
  | error err w' =>
    obtain ⟨seqs, tick, rfl, ordered, issued⟩ := session
    change (if before.fault tick .commit .tx then _ else _) = _ at ran
    split at ran
    · cases ran
      exact ⟨t, mt, ⟨seqs, tick + 1, rfl, ordered, issued⟩,
        represents.height_eq, network⟩
    · contradiction

theorem processBlock_ok (withinCap : block.WithinCap height)
    {order : H → List Order} {gers' : NewGers}
    (ran : s.processBlock order gers block before = .ok gers' w') :
    ∃ t, BlockCommits height s order block before t ∧
      before.Settled s.networkID height t w' := by
  obtain ⟨_, opened, began, rest⟩ := bind_ok ran
  obtain ⟨blockID, started, stored, rest⟩ := bind_ok rest
  obtain ⟨start, added, processing⟩ :=
    (addBlock_effect ready block).ok (begin_ok began) stored
  obtain ⟨gers'', handled, elements, rest⟩ := bind_ok rest
  obtain ⟨events, t, ordered, applied, processing'⟩ :=
    processElements_ok ready withinCap _ processing elements
  obtain ⟨_, final, committed, rest⟩ := bind_ok rest
  cases rest
  exact ⟨t, ⟨blockID, start, events, added, ordered, applied⟩,
    (commit_effect ready).ok processing' committed⟩

end

def StopsIn (s : ClientSynchronizer) (order : H → List Order)
    (gers : NewGers) (block : Block H) (w left : World H) : Prop :=
  ∃ opened blockID started done element rest gers',
    Storage.beginDBTransaction w = .ok () opened ∧
    s.orRollback (Storage.addBlock block s.networkID .tx) opened =
      .ok blockID started ∧
    order block.blockHash = done ++ element :: rest ∧
    done.foldlM (s.processElement block blockID) gers started =
      .ok gers' left ∧
    ¬block.WellFormedAt element

theorem processBlock_error (ready : s.Ready height before)
    (withinCap : block.WithinCap height) {order : H → List Order}
    (ran : s.processBlock order gers block before = .error err w') :
    err = .panic ∨ before.Settled s.networkID height before.committed w' ∨
      s.StopsIn order gers block before w' ∧
        before.opened.Working .tx s.networkID height w' := by
  have failed : before.Failed s.networkID height err w' →
      err = .panic ∨ before.Settled s.networkID height before.committed w' ∨
        s.StopsIn order gers block before w' ∧
          before.opened.Working .tx s.networkID height w' := by
    rintro (panicked | undone)
    · exact .inl panicked
    · exact .inr (.inl (undone.settled ready.consistent))
  rcases bind_error ran with began | ⟨_, opened, began, rest⟩
  · exact .inr (.inl (begin_error ready began))
  have adding := addBlock_effect ready block
  rcases bind_error rest with stored | ⟨blockID, started, stored, rest⟩
  · exact failed (adding.error (begin_ok began) stored)
  obtain ⟨start, added, processing⟩ := adding.ok (begin_ok began) stored
  rcases bind_error rest with elements | ⟨gers', handled, elements, rest⟩
  · rcases processElements_error ready withinCap processing elements with
      undone | ⟨done, element, others, gers', split, prior, malformed,
        working⟩
    · exact failed undone
    · exact .inr (.inr ⟨⟨opened, blockID, started, done, element,
        others, gers', began, stored, split, prior, malformed⟩, working⟩)
  obtain ⟨events, t, _, _, processing'⟩ :=
    processElements_ok ready withinCap _ processing elements
  rcases bind_error rest with committed | ⟨_, final, _, rest⟩
  · exact failed ((commit_effect ready).error processing' committed)
  · contradiction

end ClientSynchronizer

section Samples

def sampleSynchronizer : ClientSynchronizer :=
  { networkID := 1
    allNetworkIDs := [1]
    chsExitRootEvent := []
    retries := 1 }

def depositBlock (number : Nat) (deposits : List (Deposit H)) : Block H :=
  { blockNumber := number
    blockHash := Externals.hashBytes [UInt8.ofNat number]
    globalExitRoots := []
    removeL2GER := []
    deposits := deposits
    claims := []
    tokens := []
    verifiedBatches := []
    unsetClaims := []
    setClaims := []
    backwardLETs := []
    forwardLETs := [] }

def depositOrder (count : Nat) : H → List Order := fun _ =>
  (List.range count).map fun pos =>
    { name := .depositsOrder
      pos := pos }

omit [DecidableEq H] in
theorem depositBlock_event {number : Nat} {deposits : List (Deposit H)}
    {element : Order} {event : Event H}
    (found : (depositBlock number deposits).event element = some event) :
    ∃ made, made ∈ deposits ∧ event = .deposit made := by
  rcases element with ⟨name, pos⟩
  cases name with
  | depositsOrder =>
    obtain ⟨made, here, same⟩ := Option.map_eq_some_iff.mp found
    exact ⟨made, mem_of_getElem? here, same.symm⟩
  | _ => simp [Block.event, depositBlock] at found

omit [DecidableEq H] in
theorem start_ready (injective : Function.Injective2 (hash : H → H → H))
    (height : Nat) (small : height ≤ 32) :
    sampleSynchronizer.Ready height (World.start height [1] : World H) where
  small := small
  injective := injective
  consistent := (World.start_initial height [1]).consistent
  idle := rfl
  registered := ⟨_, rfl⟩
  reads := ⟨nofun, nofun, nofun⟩
  rollback := nofun
  retries := Nat.one_pos

end Samples

end BridgeService
