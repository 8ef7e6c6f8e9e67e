import BridgeService.Synchronizer.SyncCalls

/-!
# The block loop on a chain that grows

While the chain only grows, the stored blocks are all event blocks above the
genesis block up to some number, and the loop knows such a number at every
point: the block it continues from, the end of the last range, and the block
before the next range.  A call that fails leaves the event blocks up to a
smaller number.
-/

namespace BridgeService.BlockSync

open ChainView ErrorState Rows List

variable {H : Type}

/-- The chain never reorganises and its head only grows. -/
def Environment.NeverReorgs (env : Environment H) : Prop :=
  ∀ earlier later, earlier ≤ later →
    (env.view later).Extends (env.view earlier)

def Sees (env : Environment H) (fact : Chain H → SyncState H → Prop)
    (s : SyncState H) : Prop :=
  ∃ tick, tick ≤ s.tick ∧ fact (env.view tick) s

section Sees

variable {env : Environment H} {fact fact' : Chain H → SyncState H → Prop}
  {s s' : SyncState H}

theorem Sees.mono (sees : Sees env fact s) (later : s.tick ≤ s'.tick)
    (holds : ∀ chain, fact chain s → fact' chain s') : Sees env fact' s' := by
  obtain ⟨tick, before, here⟩ := sees
  exact ⟨tick, Nat.le_trans before later, holds _ here⟩

theorem Sees.call (never : env.NeverReorgs) (sees : Sees env fact s)
    (next : s'.tick = s.tick + 1)
    (holds : ∀ chain, fact chain s → (env.view s.tick).Extends chain →
      fact' (env.view s.tick) s') : Sees env fact' s' := by
  obtain ⟨tick, before, here⟩ := sees
  exact ⟨s.tick, by omega, holds _ here (never _ _ before)⟩

end Sees

structure Gathered (cfg : Config) (chain : Chain H)
    (blocks : List (BlockRef H)) : Prop where
  ascending : Ascending blocks
  covers : ∃ high, cfg.genBlockNumber ≤ high ∧
    chain.Covers cfg.genBlockNumber high blocks

/-- The stored blocks are complete up to a block from which the loop can
continue.  Without forced chunks that block is stored itself. -/
structure Rests (cfg : Config) (chain : Chain H) (blocks : List (BlockRef H))
    (block : BlockRef H) : Prop where
  ascending : Ascending blocks
  covers : chain.Covers cfg.genBlockNumber block.blockNumber blocks
  place : block.blockNumber = cfg.genBlockNumber ∨
    cfg.genBlockNumber < block.blockNumber ∧ chain.Has block ∧
      (cfg.forceSyncChunk = false → block ∈ blocks)

def Unchecked (cfg : Config) (synced : Bool) : Prop :=
  synced = false ∨ cfg.forceSyncChunk = true

theorem free_of_checked {cfg : Config} {synced : Bool}
    (checked : ¬Unchecked cfg synced) : cfg.forceSyncChunk = false := by
  simp only [Unchecked, not_or, Bool.not_eq_true] at checked
  exact checked.2

theorem synced_of_checked {cfg : Config} {synced : Bool}
    (checked : ¬Unchecked cfg synced) : synced = true := by
  simp only [Unchecked, not_or, Bool.not_eq_false] at checked
  exact checked.1

structure Fits (cfg : Config) (chain : Chain H) (synced : Bool)
    (blocks : List (BlockRef H)) (w : Window H) : Prop where
  rests : Rests cfg chain blocks w.lastBlockSynced
  known : w.lastKnownBlock ≤ chain.head
  behind : Unchecked cfg synced → w.lastBlockSynced.blockNumber < w.fromBlock ∧
      chain.Covers cfg.genBlockNumber (w.fromBlock - 1) blocks
  next : cfg.forceSyncChunk = true →
    w.fromBlock = w.lastBlockSynced.blockNumber + 1
  again : ¬Unchecked cfg synced → w.fromBlock = w.lastBlockSynced.blockNumber

section Facts

variable {cfg : Config} {chain later : Chain H} {synced : Bool}
  {blocks : List (BlockRef H)} {block : BlockRef H} {w : Window H}

theorem Gathered.grow (gathered : Gathered cfg chain blocks)
    (grown : later.Extends chain) : Gathered cfg later blocks := by
  obtain ⟨ascending, high, above, covers⟩ := gathered
  exact ⟨ascending, high, above, covers.grow grown⟩

theorem Rests.grow (rests : Rests cfg chain blocks block)
    (grown : later.Extends chain) : Rests cfg later blocks block where
  ascending := rests.ascending
  covers := rests.covers.grow grown
  place := by
    rcases rests.place with genesis | ⟨above, has, stored⟩
    · exact .inl genesis
    · exact .inr ⟨above, (grown.has_iff has.reached).mpr has, stored⟩

theorem Rests.genesis_le (rests : Rests cfg chain blocks block) :
    cfg.genBlockNumber ≤ block.blockNumber := by
  rcases rests.place with genesis | ⟨above, _⟩
  · omega
  · omega

theorem Rests.gathered (rests : Rests cfg chain blocks block) :
    Gathered cfg chain blocks :=
  ⟨rests.ascending, _, rests.genesis_le, rests.covers⟩

theorem Fits.grow (fits : Fits cfg chain synced blocks w)
    (grown : later.Extends chain) : Fits cfg later synced blocks w where
  rests := fits.rests.grow grown
  known := Nat.le_trans fits.known grown.head
  behind := fun mode =>
    ⟨(fits.behind mode).1, (fits.behind mode).2.grow grown⟩
  next := fits.next
  again := fits.again

theorem Fits.atHead (fits : Fits cfg chain synced blocks w) :
    Fits cfg chain true blocks
      { w with
        lastKnownBlock := chain.head
        fromBlock :=
          if ¬synced ∧ ¬cfg.forceSyncChunk then w.lastBlockSynced.blockNumber
          else w.fromBlock
        toBlock := chain.head } := by
  cases force : cfg.forceSyncChunk with
  | true =>
    have behind := fits.behind (.inr force)
    refine ⟨fits.rests, le_rfl, fun _ => ?_, fun _ => ?_, ?_⟩
    · simpa using behind
    · simpa using fits.next force
    · exact fun checked => (checked (.inr force)).elim
  | false =>
    refine ⟨fits.rests, le_rfl, ?_, ?_, fun _ => ?_⟩
    · rintro (_ | forced)
      · contradiction
      · simp [force] at forced
    · rw [force]
      intro forced
      contradiction
    · cases synced with
      | false => simp
      | true =>
        have again := fits.again (by simp [Unchecked, force])
        simpa using again

section Append

variable {mid high : Nat} {new : List (BlockRef H)}

theorem Rests.append (rests : Rests cfg chain blocks block)
    (behind : block.blockNumber ≤ high)
    (lower : cfg.genBlockNumber ≤ mid) (upper : mid ≤ high)
    (complete : chain.Complete cfg.genBlockNumber mid blocks)
    (fresh : chain.Complete mid high new) (ascending : Ascending new) :
    Rests cfg chain (blocks ++ new) (new.getLast?.getD block) ∧
      (new.getLast?.getD block).blockNumber ≤ high := by
  cases shape : new.getLast? with
  | none =>
    rw [getLast?_eq_none_iff] at shape
    subst shape
    rw [Option.getD_none, append_nil]
    exact ⟨rests, behind⟩
  | some newest =>
    have joined : Ascending (blocks ++ new) :=
      complete.ascending_append fresh rests.ascending ascending
    obtain ⟨marks, above, below⟩ := (fresh newest).mp
      (mem_of_getLast? shape)
    have found : (blocks ++ new).getLast? = some newest := by
      rw [getLast?_append, shape]
      rfl
    have shrunk := (complete.append fresh lower upper).shrink below
      fun block mem => joined.le_getLast found mem
    rw [Option.getD_some]
    exact ⟨⟨joined, ⟨shrunk, .inr marks.reached⟩, .inr ⟨by omega,
      marks.toHas, fun _ => mem_of_getLast? found⟩⟩, below⟩

theorem gathered_take (ascending : Ascending blocks)
    (lower : cfg.genBlockNumber ≤ mid) (upper : mid ≤ high)
    (reached : high ≤ chain.head)
    (complete : chain.Complete cfg.genBlockNumber mid blocks)
    (fresh : chain.Complete mid high new) (ascendingNew : Ascending new)
    (count : Nat) : Gathered cfg chain (blocks ++ new.take count) := by
  obtain ⟨part, above, below, taken⟩ := fresh.take ascendingNew upper count
  exact ⟨complete.ascending_append taken ascending
    (ascendingNew.sublist (take_sublist _ _)), part, by omega,
    complete.append taken lower above, .inr (by omega)⟩

end Append

theorem Gathered.rests [Externals H] (gathered : Gathered cfg chain blocks) :
    Rests cfg chain blocks
      ((lastBy BlockRef.blockNumber blocks).getD (genesisBlock cfg)) := by
  obtain ⟨ascending, high, above, covers⟩ := gathered
  cases found : lastBy BlockRef.blockNumber blocks with
  | none =>
    rw [lastBy_eq_none found] at ascending covers ⊢
    exact ⟨ascending, covers.shrink above (by simp), .inl rfl⟩
  | some newest =>
    obtain ⟨stored, largest⟩ := lastBy_eq_some found
    obtain ⟨marks, higher, below⟩ := (covers.complete newest).mp stored
    exact ⟨ascending, covers.shrink below largest,
      .inr ⟨higher, marks.toHas, fun _ => stored⟩⟩

end Facts

structure Asked (cfg : Config) (base : List (BlockRef H)) (w : Window H)
    (new : List (BlockRef H)) (chain : Chain H) (s : SyncState H) : Prop where
  kept : base <+: s.blocks
  fits : Fits cfg chain s.synced s.blocks w
  bound : s.bound = w.toBlock
  nonempty : w.fromBlock ≤ w.toBlock
  reached : w.toBlock ≤ w.lastKnownBlock
  answer : new = chain.markedIn w.fromBlock w.toBlock

/-- The answer to a range, with a block in front that is known already if the
last block synced is compared with it. -/
structure Answered (cfg : Config) (base : List (BlockRef H)) (w : Window H)
    (new : List (BlockRef H)) (chain : Chain H) (s : SyncState H) : Prop where
  kept : base <+: s.blocks
  fits : Fits cfg chain s.synced s.blocks w
  bound : s.bound = w.toBlock
  nonempty : w.fromBlock ≤ w.toBlock
  reached : w.toBlock ≤ w.lastKnownBlock
  unchecked : Unchecked cfg s.synced →
    chain.Complete (w.fromBlock - 1) w.toBlock new ∧ Ascending new
  checked : ¬Unchecked cfg s.synced → ∃ init rest, new = init :: rest ∧
      chain.Complete w.lastBlockSynced.blockNumber w.toBlock rest ∧
      Ascending rest ∧
      (cfg.genBlockNumber < w.lastBlockSynced.blockNumber →
        init.blockHash = w.lastBlockSynced.blockHash)

section Answers

variable {cfg : Config} {base new rest : List (BlockRef H)} {w : Window H}
  {init : BlockRef H} {chain : Chain H} {s : SyncState H}

section

variable (asked : Asked cfg base w new chain s)

include asked

theorem Asked.above (mode : Unchecked cfg s.synced) :
    chain.Complete (w.fromBlock - 1) w.toBlock new ∧ Ascending new := by
  have behind := (asked.fits.behind mode).1
  have start : w.fromBlock - 1 + 1 = w.fromBlock := by omega
  have complete := chain.complete_markedIn (w.fromBlock - 1) w.toBlock
  rw [start] at complete
  rw [asked.answer]
  exact ⟨complete, chain.ascending_markedIn _ _⟩

theorem Asked.genesis_lt (mode : Unchecked cfg s.synced) :
    cfg.genBlockNumber < w.fromBlock :=
  Nat.lt_of_le_of_lt asked.fits.rests.genesis_le (asked.fits.behind mode).1

theorem Asked.answered (checked : ¬Unchecked cfg s.synced)
    (complete : chain.Complete w.lastBlockSynced.blockNumber w.toBlock rest)
    (ascending : Ascending rest)
    (same : cfg.genBlockNumber < w.lastBlockSynced.blockNumber →
      init.blockHash = w.lastBlockSynced.blockHash) :
    Answered cfg base w (init :: rest) chain s where
  kept := asked.kept
  fits := asked.fits
  bound := asked.bound
  nonempty := asked.nonempty
  reached := asked.reached
  unchecked := fun mode => (checked mode).elim
  checked := fun _ => ⟨init, rest, rfl, complete, ascending, same⟩

theorem Asked.first_known (checked : ¬Unchecked cfg s.synced)
    (above : cfg.genBlockNumber < w.lastBlockSynced.blockNumber) :
    ∃ rest, new = w.lastBlockSynced :: rest := by
  have again := asked.fits.again checked
  have nonempty := asked.nonempty
  have stored : w.lastBlockSynced ∈ s.blocks := by
    rcases asked.fits.rests.place with genesis | ⟨_, _, stored⟩
    · omega
    · exact stored (free_of_checked checked)
  have marks := ((asked.fits.rests.covers.complete _).mp stored).1
  have known : w.lastBlockSynced ∈ new := by
    rw [asked.answer]
    exact Chain.mem_markedIn.mpr ⟨marks, by omega, by omega⟩
  have ascending := chain.ascending_markedIn w.fromBlock w.toBlock
  rw [← asked.answer] at ascending
  cases shape : new with
  | nil =>
    simp [shape] at known
  | cons init rest =>
    have initIn : init ∈ chain.markedIn w.fromBlock w.toBlock := by
      rw [← asked.answer, shape]
      exact mem_cons_self
    rw [shape] at known ascending
    rcases mem_cons.mp known with same | later
    · exact ⟨rest, by rw [same]⟩
    · have less := (pairwise_cons.mp ascending).1 _ later
      have least := (Chain.mem_markedIn.mp initIn).2.1
      omega

end

structure Fresh (cfg : Config) (base : List (BlockRef H)) (w : Window H)
    (new : List (BlockRef H)) (chain : Chain H) (s : SyncState H) : Prop where
  kept : base <+: s.blocks
  rests : Rests cfg chain s.blocks w.lastBlockSynced
  behind : w.lastBlockSynced.blockNumber ≤ w.toBlock
  known : w.lastKnownBlock ≤ chain.head
  bound : s.bound = w.toBlock
  reached : w.toBlock ≤ w.lastKnownBlock
  ascending : Ascending new
  continues : ∃ mid, cfg.genBlockNumber ≤ mid ∧ mid ≤ w.toBlock ∧
    chain.Covers cfg.genBlockNumber mid s.blocks ∧
    chain.Complete mid w.toBlock new

theorem Fresh.later {s' : SyncState H} (fresh : Fresh cfg base w new chain s)
    (later : s.Later s') : Fresh cfg base w new chain s' := by
  obtain ⟨tick, _, rfl⟩ := later
  exact ⟨fresh.kept, fresh.rests, fresh.behind, fresh.known, fresh.bound,
    fresh.reached, fresh.ascending, fresh.continues⟩

theorem Answered.fresh (answered : Answered cfg base w new chain s)
    (mode : Unchecked cfg s.synced) : Fresh cfg base w new chain s := by
  obtain ⟨complete, ascending⟩ := answered.unchecked mode
  obtain ⟨behind, covers⟩ := answered.fits.behind mode
  have least := answered.fits.rests.genesis_le
  have nonempty := answered.nonempty
  exact ⟨answered.kept, answered.fits.rests, by omega, answered.fits.known,
    answered.bound, answered.reached, ascending, w.fromBlock - 1, by omega,
    by omega, covers, complete⟩

theorem Answered.fresh_tail (answered : Answered cfg base w new chain s)
    (checked : ¬Unchecked cfg s.synced) (shape : new = init :: rest) :
    Fresh cfg base w rest chain s := by
  obtain ⟨_, _, same, complete, ascending, _⟩ := answered.checked checked
  obtain ⟨rfl, rfl⟩ := List.cons.inj (shape.symm.trans same)
  have again := answered.fits.again checked
  have nonempty := answered.nonempty
  have rests := answered.fits.rests
  exact ⟨answered.kept, rests, by omega, answered.fits.known,
    answered.bound, answered.reached, ascending, _, rests.genesis_le,
    by omega, rests.covers, complete⟩

structure Processed (cfg : Config) (base : List (BlockRef H)) (w : Window H)
    (chain : Chain H) (s : SyncState H) : Prop where
  kept : base <+: s.blocks
  ascending : Ascending s.blocks
  covers : chain.Covers cfg.genBlockNumber w.toBlock s.blocks
  genesis : cfg.genBlockNumber ≤ w.toBlock
  known : w.lastKnownBlock ≤ chain.head
  bound : s.bound = w.toBlock
  reached : w.toBlock ≤ w.lastKnownBlock

abbrev Stored (cfg : Config) (base : List (BlockRef H)) (w : Window H)
    (new : List (BlockRef H)) (chain : Chain H) (s : SyncState H) : Prop :=
  Processed cfg base w chain s ∧ (cfg.forceSyncChunk = false →
    Rests cfg chain s.blocks (new.getLast?.getD w.lastBlockSynced) ∧
      (new.getLast?.getD w.lastBlockSynced).blockNumber ≤ w.toBlock)

abbrev Continues (cfg : Config) (base : List (BlockRef H)) (w : Window H)
    (block : BlockRef H) (chain : Chain H) (s : SyncState H) : Prop :=
  Processed cfg base w chain s ∧ Rests cfg chain s.blocks block ∧
    block.blockNumber ≤ w.toBlock ∧
    (cfg.forceSyncChunk = true → block.blockNumber = w.toBlock)

theorem Fresh.processed {later : Chain H}
    (fresh : Fresh cfg base w new chain s) (grown : later.Extends chain) :
    Stored cfg base w new later (s.advance.commit new) := by
  obtain ⟨mid, lower, upper, covers, complete⟩ := fresh.continues
  have head := grown.head
  have known := fresh.known
  have reached := fresh.reached
  have whole : chain.Covers cfg.genBlockNumber w.toBlock (s.blocks ++ new) :=
    ⟨covers.complete.append complete lower upper, .inr (by omega)⟩
  refine ⟨⟨fresh.kept.trans (prefix_append _ _),
    covers.complete.ascending_append complete fresh.rests.ascending
      fresh.ascending, whole.grow grown, Nat.le_trans lower upper, by omega,
    fresh.bound, reached⟩, ?_⟩
  intro free
  obtain ⟨rests, below⟩ := fresh.rests.append fresh.behind lower upper
    covers.complete complete fresh.ascending
  exact ⟨rests.grow grown, below⟩

theorem Fresh.gathered {later : Chain H}
    (fresh : Fresh cfg base w new chain s) (grown : later.Extends chain)
    (count : Nat) :
    base <+: (s.advance.commit (new.take count)).blocks ∧
      Gathered cfg later (s.advance.commit (new.take count)).blocks := by
  obtain ⟨mid, lower, upper, covers, complete⟩ := fresh.continues
  have known := fresh.known
  have reached := fresh.reached
  have gathered := gathered_take fresh.rests.ascending lower upper
    (by omega) covers.complete complete fresh.ascending count
  exact ⟨fresh.kept.trans (prefix_append _ _), gathered.grow grown⟩

end Answers

def Open (cfg : Config) (base : List (BlockRef H)) (w : Window H)
    (chain : Chain H) (s : SyncState H) : Prop :=
  base <+: s.blocks ∧ Fits cfg chain s.synced s.blocks w ∧
    chain.Covers cfg.genBlockNumber s.bound s.blocks

def Ends (cfg : Config) (base : List (BlockRef H)) (chain : Chain H)
    (s : SyncState H) : Progress H → Prop
  | .next w => Open cfg base w chain s
  | .done block =>
    base <+: s.blocks ∧ Rests cfg chain s.blocks block ∧
      chain.Covers cfg.genBlockNumber s.bound s.blocks
  | .panic =>
    base <+: s.blocks ∧ Gathered cfg chain s.blocks ∧
      chain.Covers cfg.genBlockNumber s.bound s.blocks

section Range

variable {cfg : Config} {env : Environment H} {base : List (BlockRef H)}

def Interrupted (cfg : Config) (base : List (BlockRef H)) (chain : Chain H)
    (s : SyncState H) : Prop :=
  base <+: s.blocks ∧ Gathered cfg chain s.blocks

theorem Open.grow {w : Window H} {chain later : Chain H} {s s' : SyncState H}
    (ready : Open cfg base w chain s) (grown : later.Extends chain)
    (moved : s.Later s') : Open cfg base w later s' := by
  obtain ⟨tick, _, rfl⟩ := moved
  obtain ⟨kept, fits, exact⟩ := ready
  exact ⟨kept, fits.grow grown, exact.grow grown⟩

/-- What a part of `syncBlocks` does to the facts that the loop knows, unless
it fails. -/
abbrev Keeps (cfg : Config) (env : Environment H) (base : List (BlockRef H))
    {α : Type} (before : Chain H → SyncState H → Prop) (program : Sync H α)
    (after : α → Chain H → SyncState H → Prop) : Prop :=
  Triple (Sees env before) program (fun value => Sees env (after value))
    fun _ => Sees env (Interrupted cfg base)

variable (never : env.NeverReorgs)
include never

theorem latestHeader_open (w : Window H) :
    Keeps cfg env base (Open cfg base w) (latestHeader env)
      fun head chain s => Open cfg base w chain s ∧ head = chain.head := by
  apply Triple.intro
  · intro s head next sees ran
    obtain ⟨rfl, rfl⟩ := latestHeader_ok ran
    apply sees.call never rfl
    intro chain ready grown
    exact ⟨ready.grow grown s.later_advance, rfl⟩
  · intro s err next sees ran
    obtain rfl := request_error ran
    apply sees.call never rfl
    intro chain ready grown
    exact ⟨ready.1, ready.2.1.rests.gathered.grow grown⟩

theorem refreshHead_open (w : Window H) :
    Keeps cfg env base (Open cfg base w)
      (refreshHead cfg env w) fun w' chain s =>
        Open cfg base w' chain s ∧ w'.toBlock ≤ w'.lastKnownBlock := by
  rw [refreshHead]
  apply Triple.ite
  · intro beyond
    apply Triple.bind (latestHeader_open never w)
    intro head
    apply Triple.ite
    · intro above
      apply Triple.read
      intro start sees
      rintro s rfl
      have same : s.tick ≤ ({ s with synced := true } : SyncState H).tick :=
        le_rfl
      apply sees.mono same
      rintro chain ⟨⟨kept, fits, exact⟩, rfl⟩
      exact ⟨⟨kept, fits.atHead, exact⟩, le_rfl⟩
    · intro below state sees
      apply sees.mono le_rfl
      rintro chain ⟨⟨kept, fits, exact⟩, rfl⟩
      exact ⟨⟨kept, { fits with known := le_rfl }, exact⟩,
        Nat.le_of_not_lt below⟩
  · intro within state sees
    apply sees.mono le_rfl
    intro chain ready
    exact ⟨ready, Nat.le_of_not_lt within⟩

omit never in
theorem Rests.confirms {chain : Chain H} {blocks : List (BlockRef H)}
    {block : BlockRef H} {tick : Nat} (rests : Rests cfg chain blocks block)
    (grown : (env.view tick).Extends chain) :
    Confirms cfg env tick none block := by
  rcases rests.place with genesis | ⟨above, has, _⟩
  · exact .inl (Nat.le_of_eq genesis)
  · exact .inr ((grown.has_iff has.reached).mpr has)

theorem getRollupInfoByBlockRange_asked {w : Window H}
    (nonempty : w.fromBlock ≤ w.toBlock) :
    Keeps cfg env base
      (fun chain s => Open cfg base w chain s ∧ w.toBlock ≤ w.lastKnownBlock)
      (getRollupInfoByBlockRange env w.fromBlock w.toBlock)
      (Asked cfg base w) := by
  apply Triple.intro
  · intro s new next sees ran
    obtain ⟨rfl, rfl⟩ := getRollupInfoByBlockRange_ok ran
    apply sees.call never rfl
    rintro chain ⟨⟨kept, fits, _⟩, reached⟩ grown
    exact ⟨kept, fits.grow grown, rfl, nonempty, reached, rfl⟩
  · intro s err next sees ran
    obtain rfl := getRollupInfoByBlockRange_error ran
    apply sees.call never rfl
    rintro chain ⟨⟨kept, fits, _⟩, _⟩ grown
    exact ⟨kept, fits.rests.gathered.grow grown⟩

theorem processBlockRange_processed {w : Window H} (new : List (BlockRef H)) :
    Keeps cfg env base (Fresh cfg base w new)
      (processBlockRange env new) fun _ => Stored cfg base w new := by
  apply Triple.intro
  · intro s value next sees ran
    obtain rfl := processBlockRange_ok ran
    apply sees.call never rfl
    intro chain fresh grown
    exact fresh.processed grown
  · intro s err next sees ran
    obtain ⟨count, rfl⟩ := processBlockRange_error ran
    apply sees.call never rfl
    intro chain fresh grown
    exact fresh.gathered grown count

theorem lastProcessed_rests {w : Window H} (new : List (BlockRef H)) :
    Keeps cfg env base (Stored cfg base w new)
      (lastProcessed cfg env w new) (Continues cfg base w) := by
  rw [lastProcessed]
  apply Triple.ite
  · intro force
    apply Triple.intro
    · intro s block next sees ran
      obtain ⟨rfl, number, has⟩ := headerByNumber_ok ran
      apply sees.call never rfl
      rintro chain ⟨processed, _⟩ grown
      have least := processed.genesis
      have covers := processed.covers.grow grown
      refine ⟨⟨processed.kept, processed.ascending, covers, least,
        Nat.le_trans processed.known grown.head, processed.bound,
        processed.reached⟩, ⟨processed.ascending, ?_, ?_⟩,
        Nat.le_of_eq number, fun _ => number⟩
      · rw [number]
        exact covers
      · rcases Nat.eq_or_lt_of_le least with same | above
        · exact .inl (number.trans same.symm)
        · refine .inr ⟨by omega, has, ?_⟩
          intro free
          simp [force] at free
    · intro s err next sees ran
      obtain rfl := request_error ran
      apply sees.call never rfl
      rintro chain ⟨processed, _⟩ grown
      exact ⟨processed.kept, processed.ascending, _, processed.genesis,
        processed.covers.grow grown⟩
  · intro free s sees
    apply sees.mono le_rfl
    rintro chain ⟨processed, rests⟩
    obtain ⟨rests, below⟩ := rests (by simpa using free)
    exact ⟨processed, rests, below, fun force => (free force).elim⟩

omit never in
theorem nextWindow_ends {w : Window H} (block : BlockRef H) :
    Keeps cfg env base (Continues cfg base w block)
      (nextWindow cfg { w with lastBlockSynced := block })
      fun result chain s => Ends cfg base chain s result := by
  apply Triple.read
  intro start sees
  apply Triple.ite
  · rintro _ s rfl
    have same : s.tick ≤ ({ s with synced := true } : SyncState H).tick :=
      le_rfl
    apply sees.mono same
    rintro chain ⟨processed, rests, _⟩
    have covers := processed.covers
    rw [← processed.bound] at covers
    exact ⟨processed.kept, rests, covers⟩
  · intro notReached
    apply Triple.ite
    · intro mode
      apply Triple.ite
      · rintro _ s rfl
        apply sees.mono le_rfl
        rintro chain ⟨processed, rests, _⟩
        have covers := processed.covers
        rw [← processed.bound] at covers
        exact ⟨processed.kept, rests.gathered, covers⟩
      · rintro _ s rfl
        obtain ⟨tick, before, processed, rests, below, forced⟩ := sees
        refine ⟨tick, before, processed.kept, ?_, ?_⟩
        · have number := env.numbers tick
          have known := processed.known
          have reached := processed.reached
          have next : addUint64 w.toBlock 1 = w.toBlock + 1 := by
            rw [addUint64]
            omega
          refine ⟨rests, known, fun _ => ⟨?_, ?_⟩, fun force => ?_, ?_⟩
          · simp only [next]
            omega
          · simp only [next]
            exact processed.covers
          · simp only [next]
            rw [forced force]
          · intro checked
            refine (checked ?_).elim
            rcases mode with unsynced | force
            · exact .inl (by simpa using unsynced)
            · exact .inr force
        · rw [processed.bound]
          exact processed.covers
    · rintro mode s rfl
      apply sees.mono le_rfl
      rintro chain ⟨processed, rests, below, _⟩
      have checked : ¬Unchecked cfg s.synced := by
        rintro (unsynced | force)
        · exact mode (.inl (by simp [unsynced]))
        · exact mode (.inr force)
      refine ⟨processed.kept, ⟨rests, processed.known,
        fun unchecked => (checked unchecked).elim, ?_, fun _ => rfl⟩, ?_⟩
      · intro force
        exact (checked (.inr force)).elim
      · rw [processed.bound]
        exact processed.covers

variable [Externals H]

omit never in
theorem addGenesisBlock_answered {w : Window H} (new : List (BlockRef H)) :
    Keeps cfg env base (Asked cfg base w new)
      (addGenesisBlock cfg w.fromBlock new) (Answered cfg base w) := by
  apply Triple.intro
  · intro s new' next sees ran
    obtain rfl := addGenesisBlock_state ran
    apply sees.mono le_rfl
    intro chain asked
    rw [asked.answer] at ran
    obtain ⟨atGenesis, elsewhere⟩ := addGenesisBlock_ok ran
    by_cases mode : Unchecked cfg next.synced
    · have above := asked.genesis_lt mode
      have same : new' = new :=
        (elsewhere (by omega)).trans asked.answer.symm
      rw [same]
      exact ⟨asked.kept, asked.fits, asked.bound, asked.nonempty,
        asked.reached, fun _ => asked.above mode,
        fun checked => (checked mode).elim⟩
    · have again := asked.fits.again mode
      by_cases genesis : w.fromBlock = cfg.genBlockNumber
      · obtain ⟨init, rest, rfl, ascending, complete⟩ :=
          atGenesis genesis (free_of_checked mode)
        rw [again] at complete
        exact asked.answered mode complete ascending (by omega)
      · have least := asked.fits.rests.genesis_le
        obtain ⟨rest, shape⟩ := asked.first_known mode (by omega)
        have ascending := chain.ascending_markedIn w.fromBlock w.toBlock
        rw [← asked.answer, shape] at ascending
        rw [elsewhere genesis, ← asked.answer, shape]
        exact asked.answered mode
          (Chain.complete_of_markedIn (asked.answer.symm.trans shape))
          (pairwise_cons.mp ascending).2 fun _ => rfl
  · intro s err next sees ran
    obtain ⟨rfl, below⟩ := addGenesisBlock_error ran
    apply sees.mono le_rfl
    intro chain asked
    have least := asked.fits.rests.genesis_le
    by_cases mode : Unchecked cfg next.synced
    · have above := asked.genesis_lt mode
      omega
    · have again := asked.fits.again mode
      omega

variable [DecidableEq H]

theorem checkReceived_fresh {w : Window H} (new : List (BlockRef H)) :
    Keeps cfg env base (Answered cfg base w new)
      (checkReceived cfg env w.lastBlockSynced new) fun result chain s =>
        ∃ rest, result = .blocks rest ∧ Fresh cfg base w rest chain s := by
  apply Triple.intro
  · rintro s result next ⟨tick, before, answered⟩ ran
    have fresh : ∃ rest, result = .blocks rest ∧ s.Later next ∧
        Fresh cfg base w rest (env.view tick) s := by
      obtain ⟨_, _, ⟨⟩, ran⟩ := bind_ok ran
      cases synced : s.synced with
      | false =>
        rw [if_neg (by simp [synced])] at ran
        cases ran
        exact ⟨new, rfl, .refl s, answered.fresh (.inl synced)⟩
      | true =>
        rw [if_pos synced] at ran
        by_cases force : cfg.forceSyncChunk = true
        · rw [if_pos force] at ran
          obtain ⟨rfl, later⟩ := checkAgain_accepts
            (answered.fits.rests.confirms (never _ _ before)) ran
          exact ⟨new, rfl, later, answered.fresh (.inr force)⟩
        · have checked : ¬Unchecked cfg s.synced := by
            simp [Unchecked, synced, force]
          rw [if_neg force] at ran
          obtain ⟨init, rest, rfl, _, _, same⟩ := answered.checked checked
          obtain ⟨rfl, later⟩ := checkAgain_accepts
            ((Nat.lt_or_ge _ _).symm.imp_right same) ran
          exact ⟨rest, rfl, later, answered.fresh_tail checked rfl⟩
    obtain ⟨rest, same, later, fresh⟩ := fresh
    exact ⟨tick, Nat.le_trans before later.tick_le, rest, same,
      fresh.later later⟩
  · intro s err next sees ran
    have later := checkReceived_moves.error (.refl s) ran
    apply sees.mono later.tick_le
    intro chain answered
    rw [Interrupted, later.blocks_eq]
    exact ⟨answered.kept, answered.fits.rests.gathered⟩

theorem syncRange_ends (w : Window H) :
    Keeps cfg env base (Open cfg base w)
      (syncRange cfg env w)
      fun result chain s => Ends cfg base chain s result := by
  apply Triple.bind (refreshHead_open never w)
  intro w
  apply Triple.ite
  · intro empty s sees
    apply sees.mono le_rfl
    rintro chain ⟨⟨kept, fits, exact⟩, _⟩
    exact ⟨kept, fits.rests, exact⟩
  · intro nonempty
    apply Triple.bind (getRollupInfoByBlockRange_asked never
      (Nat.le_of_not_lt nonempty))
    intro new
    apply Triple.bind (addGenesisBlock_answered new)
    intro new
    apply Triple.bind (checkReceived_fresh never new)
    intro result
    cases result with
    | reorged block =>
      intro s sees
      apply sees.mono le_rfl
      rintro chain ⟨rest, impossible, _⟩
      contradiction
    | blocks new =>
      apply Triple.bind _
      · intro _
        apply Triple.bind (lastProcessed_rests never new)
        exact nextWindow_ends
      · apply (processBlockRange_processed never new).consequence
        · intro s sees
          apply sees.mono le_rfl
          rintro chain ⟨rest, same, fresh⟩
          cases same
          exact fresh
        · exact fun _ _ => id
        · exact fun _ _ => id

theorem openRange_ends (block : BlockRef H) :
    Keeps cfg env base
      (fun chain s => base <+: s.blocks ∧ Rests cfg chain s.blocks block)
      (openRange cfg env block)
      fun result chain s => Ends cfg base chain s result := by
  apply Triple.intro
  · rintro s result next ⟨tick, before, kept, rests⟩ ran
    obtain ⟨small, goes⟩ := openRange_accepts
      (rests.confirms (never _ _ (Nat.le_succ_of_le before))) ran
    rcases openRange_ok ran with ⟨back, rfl⟩ | ⟨rfl, later⟩
    · exact (goes back rfl).elim
    have rests := rests.grow (never _ _ before)
    refine ⟨s.tick, later.tick_le, ?_⟩
    obtain ⟨tick, _, rfl⟩ := later
    refine ⟨kept, ⟨rests, le_rfl, ?_, ?_, ?_⟩, rests.covers⟩
    · intro mode
      have next : firstBlock cfg s block = block.blockNumber + 1 :=
        firstBlock_unchecked mode small
      simp only [next]
      exact ⟨Nat.lt_succ_self _, rests.covers⟩
    · intro force
      exact firstBlock_unchecked (.inr force) small
    · intro checked
      exact firstBlock_checked (synced_of_checked checked)
        (free_of_checked checked)
  · intro s err next sees ran
    have later := openRange_error ran
    apply sees.mono later.tick_le
    rintro chain ⟨kept, rests⟩
    rw [Interrupted, later.blocks_eq]
    exact ⟨kept, rests.gathered⟩

end Range

section Steps

variable [DecidableEq H] [Externals H] {cfg : Config} {env : Environment H}

/-- Invariant of the loop on a growing chain: the stored blocks are complete up
to some number, up to the bound if the last call did not fail, and up to the
block from which the loop continues. -/
structure Good (cfg : Config) (chain : Chain H) (s : SyncState H) : Prop where
  gathered : Gathered cfg chain s.blocks
  exact : s.outcome ≠ .failed →
    chain.Covers cfg.genBlockNumber s.bound s.blocks
  place :
    match s.phase with
    | .stopped => True
    | .waiting => Rests cfg chain s.blocks s.lastBlockSynced
    | .called => Rests cfg chain s.blocks s.lastBlockSynced
    | .syncing w => Fits cfg chain s.synced s.blocks w ∧
        chain.Covers cfg.genBlockNumber s.bound s.blocks

/-- What a step on a growing chain does: it keeps the invariant and the stored
blocks. -/
structure Advances (cfg : Config) (before : List (BlockRef H))
    (chain : Chain H) (s : SyncState H) : Prop where
  good : Good cfg chain s
  kept : before <+: s.blocks

variable (never : env.NeverReorgs) {base : List (BlockRef H)}
  {s : SyncState H}
include never

omit [DecidableEq H] in
theorem conclude_advances {before : Chain H → SyncState H → Prop}
    {program : Sync H (Progress H)}
    (ends : Keeps cfg env base before program fun progress chain s =>
      Ends cfg base chain s progress) (start : Sees env before s) :
    Sees env (Advances cfg base) (conclude cfg env (program s)) := by
  cases ran : program s with
  | ok progress next =>
    have ends := ends.ok start ran
    cases progress with
    | next w =>
      refine ends.mono (Nat.le_refl next.tick) ?_
      rintro chain ⟨kept, fits, exact⟩
      exact ⟨⟨fits.rests.gathered, fun _ => exact, fits, exact⟩, kept⟩
    | done block =>
      refine ends.mono (Nat.le_refl next.tick) ?_
      rintro chain ⟨kept, rests, exact⟩
      exact ⟨⟨rests.gathered, fun _ => exact, rests⟩, kept⟩
    | panic =>
      refine ends.mono (Nat.le_refl next.tick) ?_
      rintro chain ⟨kept, gathered, exact⟩
      exact ⟨⟨gathered, fun _ => exact, trivial⟩, kept⟩
  | error err next =>
    have ends := ends.error start ran
    rw [conclude]
    cases asked : getLastBlock env next with
    | ok block after =>
      obtain ⟨rfl, rfl⟩ := getLastBlock_ok asked
      refine ends.call never rfl ?_
      rintro chain ⟨kept, gathered⟩ grown
      have gathered := gathered.grow grown
      exact ⟨⟨gathered, fun running => (running rfl).elim,
        gathered.rests⟩, kept⟩
    | error err after =>
      obtain rfl := request_error asked
      refine ends.call never rfl ?_
      rintro chain ⟨kept, gathered⟩ grown
      exact ⟨⟨gathered.grow grown, fun running => (running rfl).elim,
        trivial⟩, kept⟩

omit [DecidableEq H] never in
theorem startSync_advances (sees : Sees env (Good cfg) s)
    (stopped : s.phase = .stopped) :
    Sees env (Advances cfg s.blocks)
      (match startSync cfg env s with
      | .ok _ s =>
        { s with
          phase := .waiting
          outcome := .running }
      | .error _ s => s) := by
  cases ran : startSync cfg env s with
  | ok value next =>
    obtain ⟨remaining, rfl⟩ := startSync_ok ran
    apply sees.mono (Nat.le_add_right _ _)
    intro chain good
    have rests := good.gathered.rests
    exact ⟨⟨good.gathered, fun _ => rests.covers, rests⟩, prefix_refl _⟩
  | error err next =>
    obtain ⟨tick, order, rfl⟩ := startSync_error ran
    apply sees.mono order
    intro chain good
    refine ⟨⟨good.gathered, good.exact, ?_⟩, prefix_refl _⟩
    simp only [stopped]

omit [DecidableEq H] [Externals H] in
theorem checkLatestBlock_advances
    (sees : Sees env (fun chain s => Good cfg chain s ∧
      Rests cfg chain s.blocks s.lastBlockSynced) s) :
    Sees env (Advances cfg s.blocks)
      (match checkLatestBlock cfg env s with
      | .ok phase s => { s with phase := phase }
      | .error _ s => { s with phase := .waiting }) := by
  obtain ⟨tick, before, good, rests⟩ := sees
  cases ran : checkLatestBlock cfg env s with
  | ok phase next =>
    cases checkLatestBlock_ok ran with
    | synced =>
      exact ⟨tick, before, ⟨good.gathered, good.exact, rests⟩, prefix_refl _⟩
    | reached =>
      exact ⟨tick, Nat.le_succ_of_le before,
        ⟨good.gathered, good.exact, rests⟩, prefix_refl _⟩
    | above =>
      exact ⟨tick, Nat.le_succ_of_le before,
        ⟨good.gathered, good.exact, trivial⟩, prefix_refl _⟩
    | reset =>
      have head := (never _ _ before).head
      have same : (s.blocks.filter fun block =>
          block.blockNumber ≤ (env.view s.tick).head) = s.blocks := by
        apply filter_eq_self.mpr
        intro block stored
        have reached := ((rests.covers.complete block).mp stored).1.reached
        simpa using Nat.le_trans reached head
      refine ⟨tick, Nat.le_succ_of_le (Nat.le_succ_of_le before), ?_⟩
      simp only [same]
      exact ⟨⟨good.gathered, good.exact, rests⟩, prefix_refl _⟩
  | error err next =>
    obtain ⟨later, order, rfl⟩ := checkLatestBlock_error ran
    exact ⟨tick, Nat.le_trans before order,
      ⟨good.gathered, good.exact, rests⟩, prefix_refl _⟩

theorem step_advances (sees : Sees env (Good cfg) s) :
    Sees env (Advances cfg s.blocks) (step cfg env s) := by
  rw [step.eq_def]
  cases phase : s.phase with
  | stopped => exact startSync_advances sees phase
  | waiting =>
    apply conclude_advances never (openRange_ends never s.lastBlockSynced)
    apply sees.mono le_rfl
    intro chain good
    have place := good.place
    rw [phase] at place
    exact ⟨prefix_refl _, place⟩
  | called =>
    apply checkLatestBlock_advances never
    apply sees.mono le_rfl
    intro chain good
    have place := good.place
    rw [phase] at place
    exact ⟨good, place⟩
  | syncing w =>
    apply conclude_advances never (syncRange_ends never w)
    apply sees.mono le_rfl
    intro chain good
    have place := good.place
    rw [phase] at place
    exact ⟨prefix_refl _, place⟩

end Steps

end BridgeService.BlockSync
