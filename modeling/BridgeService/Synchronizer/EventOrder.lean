import BridgeService.Storage.Chain
import BridgeService.Synchronizer.BlockRun

/-!
# Events and the order of blocks

When the blocks of a network arrive in order, all events of a block keep the
tree tables well formed and the deposits in the order of their blocks.
-/

namespace BridgeService

open List

variable {H : Type}

/-- A block that follows the stored blocks of its network.  A known hash
belongs to this network and number. -/
structure Tables.InOrder (t : Tables H) (networkID : Nat) (block : Block H) :
    Prop where
  later : ∀ row, row ∈ t.block → row.networkID = networkID →
    row.blockNum ≤ block.blockNumber
  known : ∀ row, row ∈ t.block → row.blockHash = block.blockHash →
    row.networkID = networkID ∧ row.blockNum = block.blockNumber

instance Tables.decidableInOrder [DecidableEq H] (t : Tables H)
    (networkID : Nat) (block : Block H) :
    Decidable (t.InOrder networkID block) :=
  decidable_of_iff
    ((∀ row, row ∈ t.block → row.networkID = networkID →
        row.blockNum ≤ block.blockNumber) ∧
      ∀ row, row ∈ t.block → row.blockHash = block.blockHash →
        row.networkID = networkID ∧ row.blockNum = block.blockNumber)
    ⟨fun both => ⟨both.1, both.2⟩, fun inOrder =>
      ⟨inOrder.later, inOrder.known⟩⟩

/-- The block that is being processed is stored, as the last one of its
network. -/
def BlockContext.Current (ctx : BlockContext H) (t : Tables H) : Prop :=
  ∃ row, row ∈ t.block ∧ row.id = ctx.blockID ∧ row.networkID = ctx.networkID ∧
    ∀ other, other ∈ t.block → other.networkID = ctx.networkID →
      other.blockNum ≤ row.blockNum

theorem BlockAdded.chained [DecidableEq H] {block : Block H}
    {networkID id : Nat} {t t' : Tables H} (chained : t.Chained)
    (added : BlockAdded block networkID t id t') : t'.Chained := by
  cases added with
  | known row stored sameHash => exact chained
  | new _ positive fresh unknown => exact chained.pushBlock fresh rfl rfl

variable [DecidableEq H] [Externals H]

section Blocks

variable {ctx : BlockContext H} {t t' : Tables H}

omit [Externals H] [DecidableEq H] in
theorem BlockAdded.current {block : Block H}
    (inOrder : t.InOrder ctx.networkID block)
    (added : BlockAdded block ctx.networkID t ctx.blockID t') :
    ctx.Current t' := by
  generalize here : ctx.blockID = id at added
  cases added with
  | known row stored sameHash =>
    obtain ⟨sameNetwork, number⟩ := inOrder.known row stored sameHash
    refine ⟨row, stored, here.symm, sameNetwork, ?_⟩
    rw [number]
    exact inOrder.later
  | new _ positive fresh unknown =>
    refine ⟨_, mem_append_right _ mem_cons_self, here.symm, rfl, ?_⟩
    intro other stored sameNetwork
    rcases Rows.mem_push.mp stored with old | rfl
    · exact inOrder.later other old sameNetwork
    · rfl

end Blocks

section Deposits

variable {ctx : BlockContext H}

omit [DecidableEq H] in
theorem DepositsPushed.chained {deposits : List (Deposit H)}
    {t t' : Tables H}
    (pushed : DepositsPushed ctx.height deposits t t')
    (here : ∀ made, made ∈ deposits →
      made.blockID = ctx.blockID ∧ made.networkID = ctx.networkID)
    (tree : t.TreeTables ctx.height) (chained : t.Chained)
    (current : ctx.Current t) :
    t'.TreeTables ctx.height ∧ t'.Chained := by
  induction pushed with
  | nil => exact ⟨tree, chained⟩
  | @cons made rest t t' id fresh next others induction =>
    obtain ⟨sameBlock, sameNetwork⟩ := here made mem_cons_self
    have present := current
    obtain ⟨row, rowIn, rowID, rowNetwork, last⟩ := present
    apply induction
    · intro other inside
      exact here other (mem_cons_of_mem _ inside)
    · exact tree.pushDeposit fresh next
    · refine chained.push rowIn ?_ ?_ ?_ ?_ rfl rfl
      · exact rowID.trans sameBlock.symm
      · exact rowNetwork.trans sameNetwork.symm
      · intro other otherIn network
        exact last other otherIn (network.trans rowNetwork)
      · intro old oldIn network
        have inside := tree.count_lt oldIn
        rw [network] at inside
        show old.depositCnt < made.depositCount
        rw [next]
        exact inside
    · exact current

omit [DecidableEq H] [Externals H] in
theorem forwardDeposits_here (forward : ForwardLET H) {made : Deposit H}
    (inside : made ∈ ctx.forwardDeposits forward) :
    made.blockID = ctx.blockID ∧ made.networkID = ctx.networkID := by
  obtain ⟨item, _, rfl⟩ := mem_map.mp inside
  exact ⟨rfl, rfl⟩

end Deposits

section Events

variable {ctx : BlockContext H} {t t' : Tables H} {event : Event H}
  {events : List (Event H)}

theorem Applies.chained (applies : Applies ctx t event t')
    (tree : t.TreeTables ctx.height) (chained : t.Chained)
    (current : ctx.Current t) :
    t'.TreeTables ctx.height ∧ t'.Chained := by
  cases applies with
  | globalExitRootL1 id two fresh =>
    rw [BlockContext.completeL2_eq]
    exact ⟨tree.congr rfl rfl rfl, chained.congr rfl rfl⟩
  | removeL2GER low high found =>
    refine ⟨tree.congr (Tables.entries_setReady _ _ _) rfl rfl,
      chained.of_fewer rfl ?_⟩
    intro row stored
    obtain ⟨old, oldIn, rfl⟩ := Tables.mem_setReady.mp stored
    refine ⟨old, oldIn, ?_⟩
    split
    · exact ⟨rfl, rfl, rfl⟩
    · exact ⟨rfl, rfl, rfl⟩
  | deposit pushed =>
    apply pushed.chained _ tree chained current
    intro made inside
    rw [mem_singleton.mp inside]
    exact ⟨rfl, rfl⟩
  | verifyBatch nonzero positive known added =>
    cases added with
    | known next rooted stored => exact ⟨tree, chained⟩
    | new first next rooted unknown fresh =>
      exact ⟨tree.congr rfl rfl rfl, chained.congr rfl rfl⟩
  | @backwardLET backward notL1 previous enough reached =>
    have cuts := t.cutsAt_resetDeposits backward.newDepositCount ctx.networkID
    exact ⟨(tree.deleteDeposits cuts).congr rfl rfl rfl,
      (chained.deleteDeposits _).congr rfl rfl⟩
  | forwardLET previous pushed reached =>
    obtain ⟨tree', chained'⟩ := pushed.chained
      (fun _ inside => forwardDeposits_here _ inside) tree chained current
    exact ⟨tree'.congr rfl rfl rfl, chained'.congr rfl rfl⟩
  | _ => exact ⟨tree.congr rfl rfl rfl, chained.congr rfl rfl⟩

def BlockContext.Owns (ctx : BlockContext H) (blockID networkID : Nat) :
    Prop :=
  blockID = ctx.blockID ∧ networkID = ctx.networkID

/-- What an event can do to the tables besides deposits and trees. -/
structure BlockContext.Changes (ctx : BlockContext H) (event : Event H)
    (t t' : Tables H) : Prop where
  block : t'.block = t.block
  claim : ∃ kept added,
    (∀ row, row.networkID ≠ ctx.networkID → kept row = true) ∧
    (∀ row, row ∈ added → ctx.Owns row.blockID row.networkID) ∧
    t'.claim = t.claim.filter kept ++ added
  token : ∃ added,
    (∀ row, row ∈ added → ctx.Owns row.blockID row.networkID) ∧
    t'.tokenWrapped = t.tokenWrapped ++ added
  exitRoot : ∃ change added,
    (∀ row, ∃ exitRoots allowed, change row =
        { row with exitRoots := exitRoots, allowed := allowed } ∧
      ((∀ ger, row.id ∉ (ctx.committed.getL2ExitRootsByGER ger).map
          GlobalExitRoot.id) → exitRoots = row.exitRoots) ∧
      (t'.removeExitRoot = t.removeExitRoot → allowed = row.allowed)) ∧
    (∀ row, row ∈ added → ctx.Owns row.blockID row.networkID ∧
      ∀ old, old ∈ t.exitRoot → old.id < row.id) ∧
    added.Pairwise (fun first second => first.id < second.id) ∧
    t'.exitRoot = t.exitRoot.map change ++ added
  removals : t.removeExitRoot <+: t'.removeExitRoot
  rollupExit : ∃ added, (∀ row, row ∈ added →
      row.blockID = ctx.blockID ∧ ∃ batch, event = .verifyBatch batch) ∧
    t'.rollupExit = t.rollupExit ++ added

omit [DecidableEq H] in
theorem DepositsPushed.tables_eq {height : Nat} {deposits : List (Deposit H)}
    (pushed : DepositsPushed height deposits t t') :
    t' =
      { t with
        deposit := t'.deposit
        root := t'.root
        rht := t'.rht } := by
  induction pushed with
  | nil => rfl
  | cons id fresh next others induction => exact induction

theorem Applies.changes (applies : Applies ctx t event t') :
    ctx.Changes event t t' := by
  have unchanged : ctx.Changes event t t :=
    { block := rfl
      claim := ⟨fun _ => true, [], fun _ _ => rfl, nofun, by simp⟩
      token := ⟨[], nofun, by simp⟩
      exitRoot := ⟨id, [], fun _ => ⟨_, _, rfl, fun _ => rfl, fun _ => rfl⟩,
        nofun, .nil, by simp⟩
      removals := prefix_rfl
      rollupExit := ⟨[], nofun, by simp⟩ }
  have claimed : ∀ row : ClaimRow H, ctx.Owns row.blockID row.networkID →
      ∃ kept added,
        (∀ row : ClaimRow H, row.networkID ≠ ctx.networkID →
          kept row = true) ∧
        (∀ row, row ∈ added → ctx.Owns row.blockID row.networkID) ∧
        t.claim ++ [row] = t.claim.filter kept ++ added := by
    intro row here
    refine ⟨fun _ => true, [row], fun _ _ => rfl, ?_, by simp⟩
    simpa using here
  cases applies with
  | @globalExitRootL1 ger id two fresh =>
    rw [BlockContext.completeL2_eq] at fresh ⊢
    have filled : ∀ row, ∃ exitRoots, ctx.fill ger row =
          { row with exitRoots := exitRoots } ∧
        ((∀ ger, row.id ∉ (ctx.committed.getL2ExitRootsByGER ger).map
          GlobalExitRoot.id) → exitRoots = row.exitRoots) := by
      intro row
      rw [BlockContext.fill]
      split
      · next listed =>
        exact ⟨_, rfl, fun unlisted => absurd listed (unlisted _)⟩
      · exact ⟨_, rfl, fun _ => rfl⟩
    refine { unchanged with exitRoot := ⟨ctx.fill ger, _, ?_, ?_,
      pairwise_singleton _ _, rfl⟩ }
    · intro row
      obtain ⟨exitRoots, same, kept⟩ := filled row
      exact ⟨exitRoots, row.allowed, same, kept, fun _ => rfl⟩
    · intro row inside
      rw [mem_singleton.mp inside]
      refine ⟨⟨rfl, rfl⟩, fun old oldIn => ?_⟩
      have below := fresh _ (mem_map_of_mem oldIn)
      obtain ⟨exitRoots, same, _⟩ := filled old
      rw [same] at below
      exact below
  | globalExitRootL2 id none exitRoots known fresh =>
    refine { unchanged with exitRoot := ⟨fun row => row, _, ?_, ?_,
      pairwise_singleton _ _, congrArg (· ++ _) (map_id' _).symm⟩ }
    · exact fun _ => ⟨_, _, rfl, fun _ => rfl, fun _ => rfl⟩
    · intro row inside
      rw [mem_singleton.mp inside]
      exact ⟨⟨rfl, rfl⟩, fresh⟩
  | removeL2GER low high found =>
    refine { unchanged with
      exitRoot := ⟨_, [], ?_, nofun, .nil, (append_nil _).symm⟩
      removals := prefix_append _ _ }
    intro row
    split
    · refine ⟨_, _, rfl, fun _ => rfl, fun same => ?_⟩
      have length := congrArg List.length same
      simp [Tables.setReady] at length
    · exact ⟨_, _, rfl, fun _ => rfl, fun _ => rfl⟩
  | deposit pushed =>
    rw [pushed.tables_eq]
    exact { unchanged with }
  | claim => exact { unchanged with claim := claimed _ ⟨rfl, rfl⟩ }
  | token row here onNetwork =>
    refine { unchanged with token := ⟨[row], ?_, rfl⟩ }
    simpa using ⟨here, onNetwork⟩
  | verifyBatch nonzero positive known added =>
    cases added with
    | known => exact unchanged
    | new =>
      refine { unchanged with rollupExit := ⟨_, ?_, rfl⟩ }
      intro row inside
      obtain ⟨_, _, _, rfl⟩ := mem_snapshotRows.mp inside
      exact ⟨rfl, _, rfl⟩
  | unsetClaim =>
    refine { unchanged with
      claim := ⟨_, [], ?_, nofun, (append_nil _).symm⟩ }
    intro row elsewhere
    simp [elsewhere]
  | setClaim deposit =>
    exact { unchanged with claim := claimed _ ⟨rfl, rfl⟩ }
  | forwardLET previous pushed reached =>
    rw [pushed.tables_eq]
    exact { unchanged with }
  | _ => exact { unchanged with }

theorem AppliesAll.block_eq (applied : AppliesAll ctx events t t') :
    t'.block = t.block := by
  induction applied with
  | nil => rfl
  | cons applies others induction => rw [induction, applies.changes.block]

theorem AppliesAll.chained (applied : AppliesAll ctx events t t')
    (tree : t.TreeTables ctx.height) (chained : t.Chained)
    (current : ctx.Current t) : t'.TreeTables ctx.height ∧ t'.Chained := by
  induction applied with
  | nil => exact ⟨tree, chained⟩
  | cons applies others induction =>
    obtain ⟨tree', chained'⟩ := applies.chained tree chained current
    apply induction tree' chained'
    rw [BlockContext.Current, applies.changes.block]
    exact current

omit [DecidableEq H] [Externals H] in
theorem BlockContext.Current.ownBlock (current : ctx.Current t) :
    t.OwnBlock ctx.blockID ctx.networkID := by
  obtain ⟨row, rowIn, rowID, rowNetwork, _⟩ := current
  exact ⟨row, rowIn, rowID, rowNetwork⟩

omit [DecidableEq H] [Externals H] in
theorem BlockAdded.owned {block : Block H} {networkID id : Nat}
    (owned : t.Owned) (added : BlockAdded block networkID t id t') :
    t'.Owned := by
  cases added with
  | known row stored sameHash => exact owned
  | new _ positive fresh unknown =>
    exact owned.pushBlock positive rfl rfl rfl rfl

theorem Applies.owned (applies : Applies ctx t event t') (owned : t.Owned)
    (current : ctx.Current t) : t'.Owned := by
  have changes := applies.changes
  have keep : ∀ {blockID networkID : Nat}, t.OwnBlock blockID networkID →
      t'.OwnBlock blockID networkID := by
    intro blockID networkID own
    rw [Tables.OwnBlock, changes.block]
    exact own
  have here : ∀ {blockID networkID : Nat}, ctx.Owns blockID networkID →
      t'.OwnBlock blockID networkID := by
    rintro blockID networkID ⟨rfl, rfl⟩
    exact keep current.ownBlock
  constructor
  · rw [changes.block]
    exact owned.positive
  · intro row stored
    obtain ⟨kept, added, _, new, same⟩ := changes.claim
    rw [same] at stored
    rcases mem_append.mp stored with old | inside
    · exact keep (owned.claim row (mem_filter.mp old).1)
    · exact here (new row inside)
  · intro row stored
    obtain ⟨added, new, same⟩ := changes.token
    rw [same] at stored
    rcases mem_append.mp stored with old | inside
    · exact keep (owned.token row old)
    · exact here (new row inside)
  · intro row stored
    obtain ⟨change, added, keeps, new, _, same⟩ := changes.exitRoot
    rw [same] at stored
    rcases mem_append.mp stored with inside | inside
    · obtain ⟨old, oldIn, rfl⟩ := mem_map.mp inside
      obtain ⟨_, _, changed, _⟩ := keeps old
      rw [changed]
      exact (owned.exitRoot old oldIn).imp_right keep
    · exact .inr (here (new row inside).1)

theorem AppliesAll.owned (applied : AppliesAll ctx events t t')
    (owned : t.Owned) (current : ctx.Current t) : t'.Owned := by
  induction applied with
  | nil => exact owned
  | cons applies others induction =>
    apply induction (applies.owned owned current)
    rw [BlockContext.Current, applies.changes.block]
    exact current

end Events

end BridgeService
