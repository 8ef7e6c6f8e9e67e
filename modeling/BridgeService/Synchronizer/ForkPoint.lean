import BridgeService.Synchronizer.SyncCalls

/-!
# The search for the fork point

On a chain that does not move during the call, `checkReorg` compares its block
and then one stored block after the other, from the newest but one downwards.
The result is the first of them that is on the chain.  The block it starts from
may be the newest stored one, in which case no stored block is left out, or may
only be held in memory.
-/

namespace BridgeService.BlockSync

open ChainView ErrorState Rows List

variable {H α : Type}

/-- From some position on, no call fails and all of them see one chain. -/
structure Environment.Fixed (env : Environment H) (chain : Chain H)
    (first : Nat) : Prop where
  view : ∀ tick, first ≤ tick → env.view tick = chain
  quiet : ∀ tick, first ≤ tick → env.fault tick = false

theorem Environment.Fixed.later {env : Environment H} {chain : Chain H}
    {s s' : SyncState H} (fixed : env.Fixed chain s.tick)
    (later : s.Later s') : env.Fixed chain s'.tick where
  view tick after := fixed.view tick (Nat.le_trans later.tick_le after)
  quiet tick after := fixed.quiet tick (Nat.le_trans later.tick_le after)

/-- The comparison of `checkReorg` accepts a block. -/
def Accepts [DecidableEq H] (cfg : Config) (chain : Chain H)
    (block : BlockRef H) : Bool :=
  ¬(chain.hash block.blockNumber ≠ block.blockHash ∧
    block.blockNumber > cfg.genBlockNumber)

/-- What the search is given to compare the first block with is the canonical
block of that number. -/
def ComparesWith (chain : Chain H) (block : BlockRef H)
    (received : Option (BlockRef H)) : Prop :=
  ∀ other, received = some other →
    chain.Has other ∧ other.blockNumber = block.blockNumber

theorem comparesWith_none (chain : Chain H) (block : BlockRef H) :
    ComparesWith chain block none := by
  simp [ComparesWith]

section Search

variable {cfg : Config} {env : Environment H} {chain : Chain H}
  {s : SyncState H}

theorem request_fixed (fixed : env.Fixed chain s.tick) {failure : SyncErr}
    {answer : Chain H → List (BlockRef H) → Except SyncErr α} {value : α}
    (answered : answer chain s.blocks = .ok value) :
    request env failure answer s = .ok value s.advance := by
  rw [request, fixed.quiet _ le_rfl, fixed.view _ le_rfl,
    answered]
  rfl

variable {block : BlockRef H} {received : Option (BlockRef H)}

theorem comparedBlock_fixed (fixed : env.Fixed chain s.tick)
    (reached : block.blockNumber ≤ chain.head)
    (compares : ComparesWith chain block received) :
    ∃ other s', s.Later s' ∧
      comparedBlock env block received s = .ok other s' ∧
      other.blockHash = chain.hash block.blockNumber := by
  cases received with
  | some other =>
    obtain ⟨has, number⟩ := compares other rfl
    refine ⟨other, s, .refl s, rfl, ?_⟩
    rw [← number, has.hash]
  | none =>
    refine ⟨⟨block.blockNumber, chain.hash block.blockNumber⟩, s.advance,
      s.later_advance, ?_, rfl⟩
    have asked : headerByNumber env block.blockNumber s =
        .ok ⟨block.blockNumber, chain.hash block.blockNumber⟩ s.advance := by
      apply request_fixed fixed
      rw [if_pos reached]
    apply (bind_of_ok asked).trans
    rw [if_pos rfl]
    rfl

variable [DecidableEq H]

theorem checkReorgRounds_round (cfg : Config)
    (fixed : env.Fixed chain s.tick) (depth : Nat)
    (reached : block.blockNumber ≤ chain.head)
    (compares : ComparesWith chain block received) :
    ∃ s', s.Later s' ∧ ∀ rounds,
      checkReorgRounds cfg env (rounds + 1) depth block received s =
        if Accepts cfg chain block then .ok (some block) s'
        else
          match (orderBy BlockRef.blockNumber
              s'.blocks).reverse[depth + 1]? with
          | none => .ok none s'.advance
          | some lb =>
            checkReorgRounds cfg env rounds (depth + 1) lb none
              s'.advance := by
  obtain ⟨other, s', later, compared, hash⟩ :=
    comparedBlock_fixed fixed reached compares
  refine ⟨s', later, ?_⟩
  intro rounds
  rw [checkReorgRounds, bind_of_ok compared, Accepts, hash]
  split
  · next rejected =>
    rw [if_neg (by simpa using rejected)]
    have asked : getPreviousBlock env (depth + 1) s' =
        .ok (orderBy BlockRef.blockNumber s'.blocks).reverse[depth + 1]?
          s'.advance :=
      request_fixed (fixed.later later) rfl
    rw [bind_of_ok asked]
    split
    · next missing =>
      rw [missing]
      rfl
    · next lb found => rw [found]
  · next accepted =>
    rw [if_pos (decide_eq_true accepted)]
    rfl

theorem checkReorgRounds_fixed (cfg : Config)
    (fixed : env.Fixed chain s.tick) {depth : Nat} {rest : List (BlockRef H)}
    (shape : (orderBy BlockRef.blockNumber s.blocks).reverse.drop (depth + 1) =
      rest)
    (reached : ∀ other, other ∈ block :: rest → other.blockNumber ≤ chain.head)
    (compares : ComparesWith chain block received) :
    ∃ s', s.Later s' ∧ ∀ rounds, rest.length < rounds →
      checkReorgRounds cfg env rounds depth block received s =
        .ok ((block :: rest).find? (Accepts cfg chain)) s' := by
  induction rest generalizing s depth block received with
  | nil =>
    obtain ⟨s', later, round⟩ := checkReorgRounds_round cfg fixed depth
      (reached block mem_cons_self) compares
    have missing : (orderBy BlockRef.blockNumber
        s'.blocks).reverse[depth + 1]? = none := by
      rw [later.blocks_eq]
      simpa using shape
    by_cases accepted : Accepts cfg chain block = true
    · refine ⟨s', later, ?_⟩
      intro rounds enough
      obtain ⟨rounds, rfl⟩ := Nat.exists_eq_add_one_of_ne_zero
        (Nat.ne_of_gt enough)
      rw [round, if_pos accepted, find?_cons_of_pos accepted]
    · refine ⟨s'.advance, later.trans s'.later_advance, ?_⟩
      intro rounds enough
      obtain ⟨rounds, rfl⟩ := Nat.exists_eq_add_one_of_ne_zero
        (Nat.ne_of_gt enough)
      rw [round, if_neg accepted, find?_cons_of_neg accepted, missing]
      rfl
  | cons previous rest induction =>
    obtain ⟨s', later, round⟩ := checkReorgRounds_round cfg fixed depth
      (reached block mem_cons_self) compares
    have moved := later.trans s'.later_advance
    have found : (orderBy BlockRef.blockNumber
        s'.blocks).reverse[depth + 1]? = some previous := by
      rw [later.blocks_eq, ← head?_drop, shape]
      rfl
    have next : (orderBy BlockRef.blockNumber
        s'.advance.blocks).reverse.drop (depth + 1 + 1) = rest := by
      rw [moved.blocks_eq, ← tail_drop, shape]
      rfl
    by_cases accepted : Accepts cfg chain block = true
    · refine ⟨s', later, ?_⟩
      intro rounds enough
      obtain ⟨rounds, rfl⟩ := Nat.exists_eq_add_one_of_ne_zero
        (Nat.ne_zero_of_lt enough)
      rw [round, if_pos accepted, find?_cons_of_pos accepted]
    · obtain ⟨last, onward, search⟩ := induction (fixed.later moved) next
        (fun other mem =>
          reached other (mem_cons_of_mem _ mem))
        (comparesWith_none chain previous)
      refine ⟨last, moved.trans onward, ?_⟩
      intro rounds enough
      obtain ⟨rounds, rfl⟩ := Nat.exists_eq_add_one_of_ne_zero
        (Nat.ne_zero_of_lt enough)
      rw [round, if_neg accepted, find?_cons_of_neg accepted, found]
      apply search
      rw [length_cons] at enough
      omega

variable [Externals H]

/-- What `checkReorg` makes of the block at which its rounds stop. -/
def answerFor (cfg : Config) (latestStoredBlock : BlockRef H) :
    Option (BlockRef H) → Option (BlockRef H)
  | none => some (genesisBlock cfg)
  | some block =>
    if latestStoredBlock.blockHash ≠ block.blockHash then some block
    else none

theorem checkReorg_fixed (fixed : env.Fixed chain s.tick)
    {latestStoredBlock : BlockRef H}
    (reached : ∀ other, other ∈ latestStoredBlock :: s.blocks →
      other.blockNumber ≤ chain.head)
    (compares : ComparesWith chain latestStoredBlock received) :
    ∃ found s', s.Later s' ∧ found = (latestStoredBlock ::
        (orderBy BlockRef.blockNumber s.blocks).reverse.drop 1).find?
          (Accepts cfg chain) ∧
      (∀ rounds, s.blocks.length < rounds →
        checkReorgRounds cfg env rounds 0 latestStoredBlock received s =
          .ok found s') ∧
      checkReorg cfg env latestStoredBlock received s =
        .ok (answerFor cfg latestStoredBlock found) s' := by
  have stored : ∀ other, other ∈ latestStoredBlock ::
      (orderBy BlockRef.blockNumber s.blocks).reverse.drop (0 + 1) →
        other.blockNumber ≤ chain.head := by
    intro other mem
    apply reached
    rcases mem_cons.mp mem with rfl | later
    · exact mem_cons_self
    · apply mem_cons_of_mem
      simpa using mem_of_mem_drop later
  obtain ⟨s', later, search⟩ := checkReorgRounds_fixed cfg fixed rfl stored
    compares
  have fewer : ((orderBy BlockRef.blockNumber s.blocks).reverse.drop
      (0 + 1)).length ≤ s.blocks.length := by
    simp [(orderBy_perm s.blocks).length_eq]
  refine ⟨_, s', later, rfl, ?_, ?_⟩
  · intro rounds enough
    exact search rounds (Nat.lt_of_le_of_lt fewer enough)
  · have here : (get : Sync H (SyncState H)) s = .ok s s := rfl
    rw [checkReorg, bind_of_ok here,
      bind_of_ok (search _ (Nat.lt_succ_of_le fewer))]
    rw [Nat.zero_add]
    generalize (latestStoredBlock :: _).find? _ = found
    cases found with
    | none => rfl
    | some block =>
      simp only [answerFor]
      split <;> rfl

end Search

/-- What a synchronizer has stored, next to a chain.  A block is known by its
hash, the numbers are distinct and above the genesis block, and the canonical
blocks come before the others. -/
structure StoredView (cfg : Config) (chain : Chain H)
    (blocks : List (BlockRef H)) (latest : BlockRef H) : Prop where
  hashes : ∀ first, first ∈ latest :: blocks → ∀ second,
    second ∈ latest :: blocks → first.blockHash = second.blockHash →
      first = second
  numbers : (blocks.map BlockRef.blockNumber).Nodup
  aboveGenesis : ∀ block, block ∈ latest :: blocks →
    cfg.genBlockNumber < block.blockNumber
  reached : ∀ block, block ∈ latest :: blocks → block.blockNumber ≤ chain.head
  closed : ∀ block, block ∈ blocks → chain.Has block →
    ∀ lower, lower ∈ blocks → lower.blockNumber ≤ block.blockNumber →
      chain.Has lower

section ForkPoint

variable {cfg : Config} {env : Environment H} {chain : Chain H}
  {s : SyncState H} {latest : BlockRef H}

inductive GoesBackTo (cfg : Config) (chain : Chain H)
    (blocks : List (BlockRef H)) : BlockRef H → Prop
  | stored {block : BlockRef H} (mem : block ∈ blocks)
      (canonical : chain.Has block) : GoesBackTo cfg chain blocks block
  | genesis {block : BlockRef H} (number : block.blockNumber =
      cfg.genBlockNumber) : GoesBackTo cfg chain blocks block

variable {block other : BlockRef H}

theorem GoesBackTo.canonical (back : GoesBackTo cfg chain s.blocks block)
    (view : StoredView cfg chain s.blocks latest) (stored : other ∈ s.blocks)
    (below : other.blockNumber ≤ block.blockNumber) : chain.Has other := by
  cases back with
  | stored member canonical =>
    exact view.closed block member canonical other stored below
  | genesis number =>
    have above := view.aboveGenesis other (mem_cons_of_mem _ stored)
    omega

theorem StoredView.reset_exact (view : StoredView cfg chain s.blocks latest)
    (fixed : env.Fixed chain s.tick) {s' : SyncState H} (later : s.Later s')
    (back : GoesBackTo cfg chain s.blocks block) :
    ∃ after, resetState env block.blockNumber s' = .ok () after ∧
      ∀ other, other ∈ after.blocks ↔ other ∈ s.blocks ∧
        other.blockNumber ≤ block.blockNumber ∧ chain.Has other := by
  have reset : resetState env block.blockNumber s' = .ok () (s'.cut block) :=
    bind_of_ok (request_fixed (fixed.later later) rfl)
  refine ⟨_, reset, ?_⟩
  intro other
  rw [SyncState.cut, later.blocks_eq]
  simp only [mem_filter, decide_eq_true_eq]
  constructor
  · rintro ⟨stored, below⟩
    exact ⟨stored, below, back.canonical view stored below⟩
  · rintro ⟨stored, below, _⟩
    exact ⟨stored, below⟩

variable [DecidableEq H]

theorem StoredView.accepts_iff (view : StoredView cfg chain s.blocks latest)
    (mem : block ∈ latest :: s.blocks) :
    Accepts cfg chain block = true ↔ chain.Has block := by
  have above := view.aboveGenesis block mem
  simp only [Accepts, decide_eq_true_eq]
  constructor
  · intro accepted
    refine ⟨view.reached block mem, ?_⟩
    exact by_contra fun different => accepted ⟨different, above⟩
  · intro has rejected
    exact rejected.1 has.hash

variable [Externals H]

theorem StoredView.result (view : StoredView cfg chain s.blocks latest)
    {found result : Option (BlockRef H)}
    (search : found = (latest ::
      (orderBy BlockRef.blockNumber s.blocks).reverse.drop 1).find?
        (Accepts cfg chain))
    (answer : result = answerFor cfg latest found) :
    chain.Has latest ∧ result = none ∨ ¬chain.Has latest ∧ ((∀ other, other ∈
            (orderBy BlockRef.blockNumber s.blocks).reverse.drop 1 →
              ¬chain.Has other) ∧ result = some (genesisBlock cfg) ∨
          ∃ block, ((orderBy BlockRef.blockNumber s.blocks).reverse.drop
              1).find? (Accepts cfg chain) = some block ∧
            block ∈ s.blocks ∧ chain.Has block ∧ result = some block) := by
  have stored : ∀ other, other ∈
      (orderBy BlockRef.blockNumber s.blocks).reverse.drop 1 →
        other ∈ s.blocks := by
    intro other mem
    simpa using mem_of_mem_drop mem
  by_cases canonical : chain.Has latest
  · have accepted := (view.accepts_iff mem_cons_self).mpr canonical
    rw [find?_cons_of_pos accepted] at search
    subst search
    exact .inl ⟨canonical, by simpa [answerFor] using answer⟩
  · refine .inr ⟨canonical, ?_⟩
    have rejected : ¬Accepts cfg chain latest = true := fun accepted =>
      canonical ((view.accepts_iff mem_cons_self).mp accepted)
    rw [find?_cons_of_neg rejected] at search
    cases found with
    | none =>
      refine .inl ⟨?_, answer⟩
      intro other mem has
      apply find?_eq_none.mp search.symm other mem
      exact (view.accepts_iff
        (mem_cons_of_mem _ (stored other mem))).mpr has
    | some block =>
      have member := stored block (mem_of_find?_eq_some search.symm)
      have has := (view.accepts_iff (mem_cons_of_mem _ member)).mp
        (find?_some search.symm)
      refine .inr ⟨block, search.symm, member, has, ?_⟩
      have different : latest.blockHash ≠ block.blockHash := by
        intro same
        apply canonical
        rw [view.hashes latest mem_cons_self block
          (mem_cons_of_mem _ member) same]
        exact has
      rw [answer]
      exact if_pos different

section

variable (view : StoredView cfg chain s.blocks latest)
  (stored : latest ∈ s.blocks)
  (newest : ∀ other, other ∈ s.blocks → other.blockNumber ≤ latest.blockNumber)
  (rejected : ¬chain.Has latest)

include view stored newest rejected

omit [DecidableEq H] [Externals H] in
theorem StoredView.mem_older (mem : other ∈ s.blocks)
    (has : chain.Has other) :
    other ∈ (orderBy BlockRef.blockNumber s.blocks).reverse.drop 1 := by
  have member : other ∈ (orderBy BlockRef.blockNumber s.blocks).reverse := by
    simpa using mem
  rw [reverse_orderBy_eq_cons view.numbers stored newest] at member
  rcases mem_cons.mp member with rfl | older
  · exact (rejected has).elim
  · exact older

omit [Externals H] in
theorem StoredView.newest_canonical
    (found : ((orderBy BlockRef.blockNumber s.blocks).reverse.drop 1).find?
      (Accepts cfg chain) = some block)
    (mem : other ∈ s.blocks) (has : chain.Has other) :
    other.blockNumber ≤ block.blockNumber := by
  apply find?_largest
    ((pairwise_reverse_orderBy s.blocks).sublist (drop_sublist 1 _)) found
  · exact view.mem_older stored newest rejected mem has
  · exact (view.accepts_iff (mem_cons_of_mem _ mem)).mpr has

end

/-- `checkReorg` ends and finds the fork point. -/
theorem fork_point_found (fixed : env.Fixed chain s.tick)
    (view : StoredView cfg chain s.blocks latest)
    {received : Option (BlockRef H)}
    (compares : ComparesWith chain latest received) :
    ∃ found result s', (∀ rounds, s.blocks.length < rounds →
        checkReorgRounds cfg env rounds 0 latest received s = .ok found s') ∧
      checkReorg cfg env latest received s = .ok result s' ∧
      (result = none ↔ chain.hash latest.blockNumber = latest.blockHash) ∧
      ∀ block, result = some block →
        (latest ∈ s.blocks → (∀ other, other ∈ s.blocks →
            other.blockNumber ≤ latest.blockNumber) →
          (block ∈ s.blocks ∧ chain.Has block ∧
              ∀ other, other ∈ s.blocks → chain.Has other →
                other.blockNumber ≤ block.blockNumber) ∨
            block.blockNumber = cfg.genBlockNumber ∧
              ∀ other, other ∈ s.blocks → ¬chain.Has other) ∧
        (block ∈ s.blocks ∧ chain.Has block ∨
          block.blockNumber = cfg.genBlockNumber) ∧
        ∃ after, resetState env block.blockNumber s' = .ok () after ∧
          ∀ other, other ∈ after.blocks ↔ other ∈ s.blocks ∧
            other.blockNumber ≤ block.blockNumber ∧ chain.Has other := by
  obtain ⟨found, s', later, search, rounds, ran⟩ :=
    checkReorg_fixed fixed view.reached compares
  have canonical_iff : chain.Has latest ↔
      chain.hash latest.blockNumber = latest.blockHash :=
    ⟨fun has => has.hash,
      fun hash => ⟨view.reached latest mem_cons_self, hash⟩⟩
  refine ⟨found, _, s', rounds, ran, ?_⟩
  rw [← canonical_iff]
  rcases view.result search rfl with ⟨canonical, answer⟩ |
    ⟨rejected, ⟨none, answer⟩ | ⟨block, first, stored, has, answer⟩⟩
  · rw [answer]
    exact ⟨by simpa using canonical, by simp⟩
  · rw [answer]
    refine ⟨by simpa using rejected, ?_⟩
    rintro block same
    obtain rfl := Option.some.inj same
    refine ⟨?_, .inr rfl, view.reset_exact fixed later (.genesis rfl)⟩
    intro member newest
    refine .inr ⟨rfl, ?_⟩
    intro other mem has
    exact none other (view.mem_older member newest rejected mem has) has
  · rw [answer]
    refine ⟨by simpa using rejected, ?_⟩
    rintro other same
    obtain rfl := Option.some.inj same
    refine ⟨?_, .inl ⟨stored, has⟩,
      view.reset_exact fixed later (.stored stored has)⟩
    intro member newest
    refine .inl ⟨stored, has, ?_⟩
    intro other mem canonical
    exact view.newest_canonical member newest rejected first mem
      canonical

end ForkPoint

section Samples

def forkedChain : Chain Digest :=
  { head := 9
    hash := fun number => .zero (number + 1)
    marked := fun _ => true }

def forkedEnvironment : Environment Digest :=
  { view := fun _ => forkedChain
    fault := fun _ => false
    committed := fun _ => 0
    numbers := fun _ => by decide }

def forkedConfig : Config :=
  { networkID := 0
    genBlockNumber := 1
    syncChunkSize := 4
    forceSyncChunk := false }

def forkedBlocks : List (BlockRef Digest) :=
  [⟨2, .zero 3⟩, ⟨4, .zero 50⟩, ⟨6, .zero 70⟩]

theorem fork_point_sample :
    ∃ s', checkReorg forkedConfig forkedEnvironment ⟨6, .zero 70⟩ none
        { initial forkedConfig with blocks := forkedBlocks } =
      .ok (some ⟨2, .zero 3⟩) s' := by
  have fixed : forkedEnvironment.Fixed forkedChain
      ({ initial forkedConfig with blocks := forkedBlocks } :
        SyncState Digest).tick :=
    ⟨fun _ _ => rfl, fun _ _ => rfl⟩
  have has_iff : ∀ block, block ∈ forkedBlocks →
      (forkedChain.Has block ↔ block = ⟨2, .zero 3⟩) := by
    intro block mem
    constructor
    · intro has
      have hash := has.hash
      simp only [forkedBlocks, mem_cons, not_mem_nil,
        or_false] at mem
      rcases mem with rfl | rfl | rfl
      · rfl
      · exact absurd hash (by decide)
      · exact absurd hash (by decide)
    · rintro rfl
      exact ⟨by decide, rfl⟩
  have view : StoredView forkedConfig forkedChain forkedBlocks
      ⟨6, .zero 70⟩ :=
    { hashes := by decide
      numbers := by decide
      aboveGenesis := by decide
      reached := by decide
      closed := by
        intro block mem has lower stored below
        rw [has_iff block mem] at has
        subst has
        rw [has_iff lower stored]
        revert lower
        decide }
  obtain ⟨_, result, s', _, ran, none_iff, back⟩ :=
    fork_point_found fixed view (comparesWith_none _ _)
  cases result with
  | none => exact absurd (none_iff.mp rfl) (by decide)
  | some block =>
    obtain ⟨newest, _, _⟩ := back block rfl
    rcases newest (by decide) (by decide) with ⟨stored, has, _⟩ | ⟨_, none⟩
    · rw [(has_iff block stored).mp has] at ran
      exact ⟨s', ran⟩
    · exact absurd ((has_iff _ mem_cons_self).mpr rfl)
        (none _ mem_cons_self)

end Samples

end BridgeService.BlockSync
