import BridgeService.Lib.SideBySide
import BridgeService.Storage.Separation
import BridgeService.Synchronizer.EventOrder

/-!
# Blocks and the rows of other networks

A block of one network leaves the rows of every other network alone, with two
exceptions.  An L1 block fills in the exit roots of L2 entries that wait for
them, and the removal of a global exit root clears the status of L1 deposits
for the network.
-/

namespace BridgeService

open List

variable {H : Type}

section Statement

/-- Events of the contracts of an L2 network: its rollup manager and the
global exit roots with their two exit roots are on L1. -/
def Event.OfL2 : Event H → Prop
  | .globalExitRoot ger => ger.exitRoots = []
  | .verifyBatch _ => False
  | _ => True

structure Block.OfL2 (block : Block H) : Prop where
  verifiedBatches : block.verifiedBatches = []
  globalExitRoots : ∀ ger, ger ∈ block.globalExitRoots → ger.exitRoots = []

instance Block.decidableOfL2 [DecidableEq H] (block : Block H) :
    Decidable block.OfL2 :=
  decidable_of_iff
    (block.verifiedBatches = [] ∧
      ∀ ger, ger ∈ block.globalExitRoots → ger.exitRoots = [])
    ⟨fun both => ⟨both.1, both.2⟩, fun ofL2 =>
      ⟨ofL2.verifiedBatches, ofL2.globalExitRoots⟩⟩

/-- The status of an L1 deposit for the network may be cleared by the removal
of a global exit root. -/
def DepositRow.ClearedBy (networkID : Nat) (events : List (Event H))
    (old new : DepositRow H) : Prop :=
  new = old ∨ (∃ ger, Event.removeL2GER ger ∈ events) ∧ old.networkID = 0 ∧
      old.destNet = networkID ∧ new = { old with readyForClaim := false }

/-- The exit roots of an incomplete L2 entry may be filled in by an L1 entry
of the same global exit root. -/
def ExitRootRow.FilledBy (networkID : Nat) (events : List (Event H))
    (old new : ExitRootRow H) : Prop :=
  new = old ∨ networkID = 0 ∧ old.networkID ≠ 0 ∧ old.exitRoots = [] ∧
      ∃ ger, Event.globalExitRoot ger ∈ events ∧ ger.exitRoots.length = 2 ∧
        ger.globalExitRoot = old.globalExitRoot ∧
        new = { old with exitRoots := ger.exitRoots }

structure Tables.Isolated (networkID other : Nat) (events : List (Event H))
    (t t' : Tables H) : Prop where
  blocks : t'.blocksOf other = t.blocksOf other
  deposits : List.Forall₂ (DepositRow.ClearedBy networkID events)
    (t.depositsOf other) (t'.depositsOf other)
  claims : t'.claimsOf other = t.claimsOf other
  tokens : t'.tokensOf other = t.tokensOf other
  exitRoots : List.Forall₂ (ExitRootRow.FilledBy networkID events)
    (t.exitRootsOf other) (t'.exitRootsOf other)
  roots : t'.rootsOf other = t.rootsOf other
  nodes : t'.nodesOf other = t.nodesOf other
  rollupExit : networkID ≠ 0 → t'.rollupExit = t.rollupExit

end Statement

theorem Block.OfL2.event {block : Block H} (ofL2 : block.OfL2)
    {element : Order} {event : Event H}
    (found : block.event element = some event) : event.OfL2 := by
  rcases element with ⟨name, pos⟩
  cases name with
  | globalExitRootsOrder =>
    obtain ⟨ger, here, rfl⟩ := Option.map_eq_some_iff.mp found
    exact ofL2.globalExitRoots ger (mem_of_getElem? here)
  | verifyBatchOrder =>
    simp [Block.event, ofL2.verifiedBatches] at found
  | _ =>
    obtain ⟨_, _, rfl⟩ := Option.map_eq_some_iff.mp found
    trivial

variable [DecidableEq H] {ctx : BlockContext H} {t t' : Tables H}
  {other : Nat}

theorem Tables.of_mem_getL2ExitRootsByGER {ger : H}
    {row : ExitRootRow H} (separated : t.Separated)
    (stored : row ∈ t.exitRoot)
    (listed : row.id ∈ (t.getL2ExitRootsByGER ger).map GlobalExitRoot.id) :
    row.networkID ≠ 0 ∧ row.exitRoots = [] ∧ row.globalExitRoot = ger := by
  have distinct : (t.exitRoot.map ExitRootRow.id).Nodup :=
    pairwise_map.mpr
      (separated.exitRootIDs.imp fun less => Nat.ne_of_lt less)
  obtain ⟨_, _, same, notL1, incomplete⟩ :=
    (t.mem_getL2ExitRootsByGER distinct stored).mp listed
  exact ⟨notL1, incomplete, same⟩

variable [Externals H]

section Rows

omit [DecidableEq H] [Externals H] in
private theorem filter_append_other {α : Type} {rows added : List α}
    {network : α → Nat}
    (elsewhere : ∀ row, row ∈ added → network row ≠ other) :
    ((rows ++ added).filter fun row => network row = other) =
      rows.filter fun row => network row = other := by
  have none : (added.filter fun row => network row = other) = [] := by
    rw [filter_eq_nil_iff]
    simpa using elsewhere
  rw [filter_append, none, append_nil]

omit [DecidableEq H] [Externals H] in
private theorem filter_map_other {α : Type} {rows : List α}
    {change : α → α} {network : α → Nat}
    (kept : ∀ row, network (change row) = network row)
    (fixed : ∀ row, network row = other → change row = row) :
    ((rows.map change).filter fun row => network row = other) =
      rows.filter fun row => network row = other := by
  induction rows with
  | nil => rfl
  | cons row rest induction =>
    rw [map_cons, filter_cons, filter_cons, induction, kept]
    by_cases here : network row = other
    · simp [here, fixed row here]
    · simp [here]

variable {event : Event H} {events : List (Event H)}

theorem Applies.claimsOf (applies : Applies ctx t event t')
    (different : other ≠ ctx.networkID) :
    t'.claimsOf other = t.claimsOf other := by
  obtain ⟨kept, added, others, new, same⟩ := applies.changes.claim
  rw [Tables.claimsOf, same, filter_append_other fun row inside =>
    (new row inside).2.trans_ne different.symm]
  apply Tables.filter_stays
  rintro row _ rfl
  exact others row different

theorem Applies.tokensOf (applies : Applies ctx t event t')
    (different : other ≠ ctx.networkID) :
    t'.tokensOf other = t.tokensOf other := by
  obtain ⟨added, new, same⟩ := applies.changes.token
  rw [Tables.tokensOf, same]
  exact filter_append_other fun row inside =>
    (new row inside).2.trans_ne different.symm

/-- Entries of another network, after an event has completed some of them. -/
def BlockContext.fillBy (ctx : BlockContext H) (event : Event H)
    (row : ExitRootRow H) : ExitRootRow H :=
  match event with
  | .globalExitRoot ger =>
    if ger.exitRoots.length = 2 then ctx.fill ger row else row
  | _ => row

omit [Externals H] in
theorem BlockContext.networkID_fillBy (event : Event H)
    (row : ExitRootRow H) :
    (ctx.fillBy event row).networkID = row.networkID := by
  cases event with
  | globalExitRoot ger =>
    rw [fillBy, fill]
    split
    · split <;> rfl
    · rfl
  | _ => rfl

omit [DecidableEq H] [Externals H] in
theorem BlockContext.exitRootsOf_push (different : other ≠ ctx.networkID)
    {id : Nat} {ger : H} {exitRoots : List H} {t : Tables H} :
    (ctx.pushExitRoot id ger exitRoots t).exitRootsOf other =
      t.exitRootsOf other := by
  exact filter_append_other (forall_mem_singleton.mpr different.symm)

theorem Applies.exitRootsOf (applies : Applies ctx t event t')
    (different : other ≠ ctx.networkID) :
    t'.exitRootsOf other =
      (t.exitRootsOf other).map (ctx.fillBy event) := by
  have unchanged : (t.exitRootsOf other).map (fun row => row) =
      t.exitRootsOf other := map_id' _
  cases applies with
  | @globalExitRootL1 ger id two fresh =>
    rw [BlockContext.exitRootsOf_push different, Tables.exitRootsOf,
      BlockContext.completeL2_eq, filter_map, Tables.exitRootsOf]
    have same : ctx.fillBy (.globalExitRoot ger) = ctx.fill ger := by
      funext row
      rw [BlockContext.fillBy, if_pos two]
    rw [same]
    apply congrArg
    apply filter_congr
    intro row _
    rw [Function.comp_apply, ← same, BlockContext.networkID_fillBy]
  | @globalExitRootL2 ger id none exitRoots known fresh =>
    have same : ctx.fillBy (.globalExitRoot ger) = fun row => row := by
      funext row
      rw [BlockContext.fillBy, if_neg (by omega)]
    rw [same, unchanged, BlockContext.exitRootsOf_push different]
  | @removeL2GER ger low high found =>
    refine Eq.trans ?_ unchanged.symm
    apply filter_map_other
    · intro row
      split <;> rfl
    · rintro row rfl
      rw [if_neg]
      simp [Storage.isEntryOf, different]
  | deposit pushed =>
    rw [pushed.tables_eq]
    exact unchanged.symm
  | verifyBatch nonzero positive known added =>
    cases added with
    | known => exact unchanged.symm
    | new => exact unchanged.symm
  | forwardLET previous pushed reached =>
    rw [pushed.tables_eq]
    exact unchanged.symm
  | _ => exact unchanged.symm

omit [DecidableEq H] in
theorem DepositsPushed.depositsOf {height : Nat}
    {deposits : List (Deposit H)}
    (pushed : DepositsPushed height deposits t t')
    (elsewhere : ∀ made, made ∈ deposits → made.networkID ≠ other) :
    t'.depositsOf other = t.depositsOf other := by
  induction pushed with
  | nil => rfl
  | @cons made rest t t' id fresh next others induction =>
    rw [forall_mem_cons] at elsewhere
    rw [induction elsewhere.2]
    exact filter_append_other (forall_mem_singleton.mpr elsewhere.1)

theorem Applies.depositsOf (applies : Applies ctx t event t')
    (different : other ≠ ctx.networkID) :
    List.Forall₂ (DepositRow.ClearedBy ctx.networkID [event])
      (t.depositsOf other) (t'.depositsOf other) := by
  have same : ∀ t'' : Tables H,
      t''.depositsOf other = t.depositsOf other →
      List.Forall₂ (DepositRow.ClearedBy ctx.networkID [event])
        (t.depositsOf other) (t''.depositsOf other) := by
    intro t'' equal
    rw [equal]
    exact List.forall₂_same.mpr fun _ _ => .inl rfl
  cases applies with
  | globalExitRootL1 id two fresh =>
    apply same
    rw [BlockContext.completeL2_eq]
    rfl
  | @removeL2GER ger low high found =>
    rw [Tables.depositsOf_setReady_eq, List.forall₂_map_right_iff]
    change List.Forall₂ _ (t.depositsOf other) (t.depositsOf other)
    rw [List.forall₂_same]
    intro row _
    by_cases cleared : low < row.id && row.id ≤ high &&
        row.networkID == 0 && row.destNet == ctx.networkID
    · rw [if_pos cleared]
      simp only [Bool.and_eq_true, beq_iff_eq] at cleared
      exact .inr ⟨⟨ger, mem_cons_self⟩, cleared.1.2, cleared.2, rfl⟩
    · rw [if_neg cleared]
      exact .inl rfl
  | deposit pushed =>
    apply same
    apply pushed.depositsOf
    intro made inside
    rw [mem_singleton.mp inside]
    exact different.symm
  | verifyBatch nonzero positive known added =>
    apply same
    cases added with
    | known => rfl
    | new => rfl
  | backwardLET notL1 previous enough reached =>
    apply same
    apply Tables.filter_stays
    rintro row _ rfl
    simp [different]
  | forwardLET previous pushed reached =>
    apply same
    apply pushed.depositsOf
    intro made inside
    rw [(forwardDeposits_here _ inside).2]
    exact different.symm
  | _ => exact same _ rfl

theorem AppliesAll.claimsOf (applied : AppliesAll ctx events t t')
    (different : other ≠ ctx.networkID) :
    t'.claimsOf other = t.claimsOf other := by
  induction applied with
  | nil => rfl
  | cons applies others induction =>
    rw [induction, applies.claimsOf different]

theorem AppliesAll.tokensOf (applied : AppliesAll ctx events t t')
    (different : other ≠ ctx.networkID) :
    t'.tokensOf other = t.tokensOf other := by
  induction applied with
  | nil => rfl
  | cons applies others induction =>
    rw [induction, applies.tokensOf different]

theorem Applies.rollupExit_eq (applies : Applies ctx t event t')
    (ofL2 : event.OfL2) : t'.rollupExit = t.rollupExit := by
  obtain ⟨added, new, same⟩ := applies.changes.rollupExit
  cases added with
  | nil => rw [same, append_nil]
  | cons row rest =>
    obtain ⟨_, batch, rfl⟩ := new row mem_cons_self
    exact ofL2.elim

theorem AppliesAll.rollupExit_eq (applied : AppliesAll ctx events t t')
    (ofL2 : ∀ event, event ∈ events → event.OfL2) :
    t'.rollupExit = t.rollupExit := by
  induction applied with
  | nil => rfl
  | cons applies others induction =>
    rw [forall_mem_cons] at ofL2
    rw [induction ofL2.2, applies.rollupExit_eq ofL2.1]

end Rows

section Blocks

variable {event : Event H} {events : List (Event H)} {block : Block H}
  {networkID height : Nat} {s : ClientSynchronizer} {order : H → List Order}
  {before : World H}

theorem Applies.mem_rollupExit (applies : Applies ctx t event t')
    {row : RollupExitLeaf H} (stored : row ∈ t'.rollupExit) :
    row ∈ t.rollupExit ∨ row.blockID = ctx.blockID := by
  obtain ⟨added, new, same⟩ := applies.changes.rollupExit
  rw [same] at stored
  exact (mem_append.mp stored).imp_right fun inside => (new row inside).1

theorem Applies.exitRootIDs (applies : Applies ctx t event t')
    (increasing : t.exitRoot.Pairwise fun first second =>
      first.id < second.id) :
    t'.exitRoot.Pairwise fun first second => first.id < second.id := by
  obtain ⟨change, added, keeps, new, ordered, same⟩ :=
    applies.changes.exitRoot
  have ids : ∀ row, (change row).id = row.id := by
    intro row
    obtain ⟨_, _, changed, _⟩ := keeps row
    rw [changed]
  rw [same, pairwise_append, pairwise_map]
  simp only [ids, forall_mem_map]
  exact ⟨increasing, ordered, fun old oldIn row rowIn =>
    (new row rowIn).2 old oldIn⟩

theorem Applies.separated (applies : Applies ctx t event t')
    (tree : t.TreeTables ctx.height) (separated : t.Separated)
    (current : ctx.Current t) (emitted : ctx.networkID ≠ 0 → event.OfL2) :
    t'.Separated := by
  have own := current.ownBlock
  have chained := (applies.chained tree separated.chained current).2
  have owned := applies.owned separated.owned current
  have blocks := applies.changes.block
  have keep : ∀ {blockID networkID : Nat}, t.OwnBlock blockID networkID →
      t'.OwnBlock blockID networkID := by
    intro blockID networkID own
    rw [Tables.OwnBlock, blocks]
    exact own
  refine ⟨chained, owned, ?_, applies.exitRootIDs separated.exitRootIDs⟩
  intro row stored
  by_cases l1 : ctx.networkID = 0
  · rcases applies.mem_rollupExit stored with old | here
    · exact keep (separated.rollupExit row old)
    · rw [here, ← l1]
      exact keep own
  · rw [applies.rollupExit_eq (emitted l1)] at stored
    exact keep (separated.rollupExit row stored)

theorem AppliesAll.separated (applied : AppliesAll ctx events t t')
    (tree : t.TreeTables ctx.height) (separated : t.Separated)
    (current : ctx.Current t)
    (emitted : ctx.networkID ≠ 0 → ∀ event, event ∈ events → event.OfL2) :
    t'.TreeTables ctx.height ∧ t'.Separated := by
  induction applied with
  | nil => exact ⟨tree, separated⟩
  | cons applies others induction =>
    apply induction (applies.chained tree separated.chained current).1
    · exact applies.separated tree separated current fun notL1 =>
        emitted notL1 _ mem_cons_self
    · rw [BlockContext.Current, applies.changes.block]
      exact current
    · intro notL1 event inside
      exact emitted notL1 event (mem_cons_of_mem _ inside)

omit [Externals H] in
theorem BlockAdded.separated {id : Nat} (separated : t.Separated)
    (added : BlockAdded block networkID t id t') : t'.Separated := by
  refine ⟨added.chained separated.chained, added.owned separated.owned, ?_, ?_⟩
  · cases added with
    | known => exact separated.rollupExit
    | new id positive fresh unknown =>
      intro row stored
      exact (separated.rollupExit row stored).mono fun old oldIn =>
        mem_append_left _ oldIn
  · cases added with
    | known => exact separated.exitRootIDs
    | new => exact separated.exitRootIDs

omit [DecidableEq H] [Externals H] in
private theorem ClearedBy.trans {first second : List (Event H)}
    {old middle new : DepositRow H}
    (early : old.ClearedBy networkID first middle)
    (late : middle.ClearedBy networkID second new) :
    old.ClearedBy networkID (first ++ second) new := by
  rcases early with rfl | ⟨⟨ger, removed⟩, origin, destination, rfl⟩
  · rcases late with rfl | ⟨⟨ger, removed⟩, origin, destination, rfl⟩
    · exact .inl rfl
    · exact .inr ⟨⟨ger, mem_append_right _ removed⟩, origin,
        destination, rfl⟩
  · refine .inr ⟨⟨ger, mem_append_left _ removed⟩, origin,
      destination, ?_⟩
    rcases late with rfl | ⟨_, _, _, rfl⟩
    · rfl
    · rfl

theorem AppliesAll.depositsOf (applied : AppliesAll ctx events t t')
    (different : other ≠ ctx.networkID) :
    List.Forall₂ (DepositRow.ClearedBy ctx.networkID events)
      (t.depositsOf other) (t'.depositsOf other) := by
  induction applied with
  | nil => exact List.forall₂_same.mpr fun _ _ => .inl rfl
  | cons applies others induction =>
    exact SideBySide.comp (applies.depositsOf different) induction
      fun _ _ _ => ClearedBy.trans

theorem AppliesAll.exitRootsOf (applied : AppliesAll ctx events t t')
    (different : other ≠ ctx.networkID) :
    t'.exitRootsOf other = (t.exitRootsOf other).map fun row =>
      events.foldl (fun row event => ctx.fillBy event row) row := by
  induction applied with
  | nil => exact (map_id' _).symm
  | cons applies others induction =>
    rw [induction, applies.exitRootsOf different, map_map]
    rfl

omit [Externals H] in
private theorem fillBy_cases (event : Event H) (row : ExitRootRow H) :
    ctx.fillBy event row = row ∨
      ∃ ger, event = .globalExitRoot ger ∧ ger.exitRoots.length = 2 ∧
        row.id ∈ (ctx.committed.getL2ExitRootsByGER
          ger.globalExitRoot).map GlobalExitRoot.id ∧
        ctx.fillBy event row = { row with exitRoots := ger.exitRoots } := by
  cases event with
  | globalExitRoot ger =>
    by_cases two : ger.exitRoots.length = 2
    · rw [BlockContext.fillBy, if_pos two, BlockContext.fill]
      split
      · next listed => exact .inr ⟨ger, rfl, two, listed, rfl⟩
      · exact .inl rfl
    · rw [BlockContext.fillBy, if_neg two]
      exact .inl rfl
  | _ => exact .inl rfl

omit [Externals H] in
private theorem filledBy_foldl (ctx : BlockContext H)
    (separated : ctx.committed.Separated)
    {row : ExitRootRow H} (stored : row ∈ ctx.committed.exitRoot)
    (events done : List (Event H))
    (emitted : ctx.networkID ≠ 0 → ∀ event, event ∈ events → event.OfL2)
    {filled : ExitRootRow H} (sameID : filled.id = row.id)
    (fill : row.FilledBy ctx.networkID done filled) :
    row.FilledBy ctx.networkID (done ++ events)
      (events.foldl (fun row event => ctx.fillBy event row) filled) := by
  induction events generalizing done filled with
  | nil =>
    rw [append_nil]
    exact fill
  | cons event rest induction =>
    have more : row.FilledBy ctx.networkID (done ++ [event]) filled := by
      refine fill.imp_right ?_
      rintro ⟨l1, l2, incomplete, ger, inside, two, same, rfl⟩
      exact ⟨l1, l2, incomplete, ger, mem_append_left _ inside, two,
        same, rfl⟩
    have others : ctx.networkID ≠ 0 →
        ∀ next, next ∈ rest → next.OfL2 := fun notL1 next inside =>
      emitted notL1 next (mem_cons_of_mem _ inside)
    rw [append_cons, foldl_cons]
    rcases fillBy_cases event filled with same |
      ⟨ger, rfl, two, listed, changed⟩
    · rw [same]
      exact induction (done ++ [event]) others sameID more
    · rw [changed]
      rw [sameID] at listed
      obtain ⟨l2, incomplete, sameGER⟩ :=
        Tables.of_mem_getL2ExitRootsByGER separated stored listed
      refine induction (done ++ [.globalExitRoot ger]) others ?_ ?_
      · exact sameID
      refine .inr ⟨?_, l2, incomplete, ger,
        mem_append_right _ mem_cons_self, two, sameGER.symm, ?_⟩
      · by_contra notL1
        have none : ger.exitRoots = [] := emitted notL1 _ mem_cons_self
        simp [none] at two
      · rcases fill with rfl | ⟨_, _, _, _, _, _, _, rfl⟩
        · rfl
        · rfl

omit [DecidableEq H] in
private theorem map_depositEntry_cleared {old new : List (DepositRow H)}
    (cleared : List.Forall₂ (DepositRow.ClearedBy networkID events) old new) :
    new.map Tables.depositEntry = old.map Tables.depositEntry := by
  induction cleared with
  | nil => rfl
  | cons head _ induction =>
    rw [map_cons, map_cons, induction]
    rcases head with rfl | ⟨_, _, _, rfl⟩
    · rfl
    · rfl

private theorem BlockCommits.start
    (tree : before.committed.TreeTables height)
    (separated : before.committed.Separated)
    (inOrder : before.committed.InOrder s.networkID block)
    (emitted : s.networkID ≠ 0 → block.OfL2)
    (commits : BlockCommits height s order block before t) :
    ∃ blockID rows, (∀ row, row ∈ rows → row.networkID = s.networkID) ∧
      Tables.TreeTables height
        { before.committed with
          block := before.committed.block ++ rows } ∧
      AppliesAll (before.context s height blockID block.blockNumber)
        ((order block.blockHash).filterMap block.event)
        { before.committed with block := before.committed.block ++ rows }
        t ∧
      (s.networkID ≠ 0 → ∀ event,
        event ∈ (order block.blockHash).filterMap block.event →
        event.OfL2) ∧
      t.TreeTables height ∧ t.Separated := by
  obtain ⟨blockID, start, events, added, ordered, applied⟩ := commits
  have listed := Block.filterMap_event ordered
  have ofL2 : s.networkID ≠ 0 →
      ∀ event, event ∈ events → event.OfL2 := by
    intro notL1 event inside
    rw [← listed] at inside
    obtain ⟨element, _, found⟩ := mem_filterMap.mp inside
    exact (emitted notL1).event found
  have current : (before.context s height blockID
      block.blockNumber).Current start :=
    BlockAdded.current inOrder added
  have startSeparated := added.separated separated
  obtain ⟨rows, rfl, new⟩ := added.rest_eq
  have startTree : Tables.TreeTables height
      { before.committed with block := before.committed.block ++ rows } :=
    tree.congr rfl rfl rfl
  rw [listed]
  exact ⟨blockID, rows, new, startTree, applied, ofL2,
    applied.separated startTree startSeparated current ofL2⟩

theorem BlockCommits.separated (tree : before.committed.TreeTables height)
    (separated : before.committed.Separated)
    (inOrder : before.committed.InOrder s.networkID block)
    (emitted : s.networkID ≠ 0 → block.OfL2)
    (commits : BlockCommits height s order block before t) : t.Separated := by
  obtain ⟨_, _, _, _, _, _, _, kept⟩ :=
    commits.start tree separated inOrder emitted
  exact kept

theorem BlockCommits.isolated (tree : before.committed.TreeTables height)
    (separated : before.committed.Separated)
    (inOrder : before.committed.InOrder s.networkID block)
    (emitted : s.networkID ≠ 0 → block.OfL2)
    (different : other ≠ s.networkID)
    (commits : BlockCommits height s order block before t) :
    before.committed.Isolated s.networkID other
      ((order block.blockHash).filterMap block.event) t := by
  obtain ⟨blockID, rows, new, startTree, applied, ofL2, endTree, _⟩ :=
    commits.start tree separated inOrder emitted
  have elsewhere : other ≠ (before.context s height blockID
      block.blockNumber).networkID := different
  have deposits := applied.depositsOf elsewhere
  have trees := startTree.same_trees endTree
    (map_depositEntry_cleared deposits)
  exact
    { blocks := by
        rw [Tables.blocksOf, applied.block_eq]
        exact filter_append_other fun row inside =>
          (new row inside).trans_ne different.symm
      deposits := deposits
      claims := applied.claimsOf elsewhere
      tokens := applied.tokensOf elsewhere
      exitRoots := by
        rw [applied.exitRootsOf elsewhere, List.forall₂_map_right_iff]
        apply List.forall₂_same.mpr
        intro row inside
        exact filledBy_foldl
          (before.context s height blockID block.blockNumber) separated
          (mem_filter.mp inside).1 _ [] ofL2 rfl (.inl rfl)
      roots := trees.1
      nodes := trees.2
      rollupExit := fun notL1 => applied.rollupExit_eq (ofL2 notL1) }

end Blocks

end BridgeService
