import BridgeService.Storage.ExitTables

/-!
# Deposits and their blocks

Every deposit refers to a block of its network, and the deposits of a network
follow the order of its blocks.  Deleting the last blocks of a network
therefore deletes the last deposits of its exit tree, and counting the deposits
up to a block number finds the end of the deposits of these blocks.
-/

namespace BridgeService

open List

variable {H : Type}

namespace Tables

/-- The deposits of every network follow the order of its blocks. -/
structure Chained (t : Tables H) : Prop where
  blockIDs : t.block.Pairwise fun first second => first.id < second.id
  dated : ∀ row, row ∈ t.deposit → ∃ block, block ∈ t.block ∧
    block.id = row.blockID ∧ block.networkID = row.networkID
  ordered : ∀ first second, first ∈ t.deposit → second ∈ t.deposit →
    first.networkID = second.networkID →
    first.depositCnt ≤ second.depositCnt →
    ∀ early late, t.blockNumOf first = some early →
      t.blockNumOf second = some late → early ≤ late

theorem chained_empty : (Tables.empty : Tables H).Chained where
  blockIDs := List.Pairwise.nil
  dated := nofun
  ordered := nofun

variable {t t' : Tables H}

section Numbers

theorem block_eq_of_id
    (blockIDs : t.block.Pairwise fun first second => first.id < second.id)
    {first second : BlockRow H} (firstIn : first ∈ t.block)
    (secondIn : second ∈ t.block) (same : first.id = second.id) :
    first = second := by
  have distinct : (t.block.map BlockRow.id).Nodup :=
    pairwise_map.mpr (blockIDs.imp fun less => Nat.ne_of_lt less)
  exact inj_on_of_nodup_map distinct firstIn secondIn same

variable {row : DepositRow H}

theorem blockNumOf_eq
    (blockIDs : t.block.Pairwise fun first second => first.id < second.id)
    {block : BlockRow H} (stored : block ∈ t.block)
    (sameID : block.id = row.blockID)
    (sameNetwork : block.networkID = row.networkID) :
    t.blockNumOf row = some block.blockNum := by
  cases search : t.block.find? (fun block =>
      block.id == row.blockID && block.networkID == row.networkID) with
  | none =>
    have rejected := find?_eq_none.mp search block stored
    simp [sameID, sameNetwork] at rejected
  | some found =>
    have selected := find?_some search
    simp only [Bool.and_eq_true, beq_iff_eq] at selected
    have same : found = block := block_eq_of_id blockIDs
      (mem_of_find?_eq_some search) stored
      (selected.1.trans sameID.symm)
    rw [blockNumOf, search, same]
    rfl

theorem exists_block_of_blockNumOf {number : Nat}
    (found : t.blockNumOf row = some number) :
    ∃ block, block ∈ t.block ∧ block.id = row.blockID ∧
      block.networkID = row.networkID ∧ block.blockNum = number := by
  rw [blockNumOf, Option.map_eq_some_iff] at found
  obtain ⟨block, search, numbered⟩ := found
  have selected := find?_some search
  simp only [Bool.and_eq_true, beq_iff_eq] at selected
  exact ⟨block, mem_of_find?_eq_some search, selected.1, selected.2,
    numbered⟩

theorem Chained.exists_number (chained : t.Chained)
    (stored : row ∈ t.deposit) : ∃ number, t.blockNumOf row = some number := by
  obtain ⟨block, blockIn, sameID, sameNetwork⟩ := chained.dated row stored
  exact ⟨_, blockNumOf_eq chained.blockIDs blockIn sameID sameNetwork⟩

theorem Chained.getDeposit_found (chained : t.Chained)
    (stored : row ∈ t.deposit) :
    ∃ deposit, t.getDeposit row.depositCnt row.networkID = .ok deposit := by
  obtain ⟨number, numbered⟩ := chained.exists_number stored
  cases search : t.deposit.findSome? fun other =>
      if other.networkID = row.networkID ∧
          other.depositCnt = row.depositCnt then
        (t.blockNumOf other).map other.toDeposit
      else none with
  | none =>
    rw [findSome?_eq_none_iff] at search
    have missing := search row stored
    rw [if_pos ⟨rfl, rfl⟩, numbered] at missing
    contradiction
  | some deposit =>
    refine ⟨deposit, ?_⟩
    rw [getDeposit, search]

end Numbers

section Changes

theorem Chained.of_fewer (chained : t.Chained) (block : t'.block = t.block)
    (fewer : ∀ row, row ∈ t'.deposit → ∃ old, old ∈ t.deposit ∧
      old.networkID = row.networkID ∧ old.depositCnt = row.depositCnt ∧
      old.blockID = row.blockID) : t'.Chained where
  blockIDs := by
    rw [block]
    exact chained.blockIDs
  dated := by
    intro row stored
    obtain ⟨old, oldIn, network, _, blockID⟩ := fewer row stored
    rw [block, ← network, ← blockID]
    exact chained.dated old oldIn
  ordered := by
    intro first second firstIn secondIn sameNetwork less early late
      firstNumber secondNumber
    obtain ⟨oldFirst, oldFirstIn, firstNetwork, firstCount, firstBlock⟩ :=
      fewer first firstIn
    obtain ⟨oldSecond, oldSecondIn, secondNetwork, secondCount,
      secondBlock⟩ := fewer second secondIn
    apply chained.ordered oldFirst oldSecond oldFirstIn oldSecondIn
    · rw [firstNetwork, secondNetwork, sameNetwork]
    · rw [firstCount, secondCount]
      exact less
    · rw [← firstNumber, blockNumOf, blockNumOf, block, firstNetwork,
        firstBlock]
    · rw [← secondNumber, blockNumOf, blockNumOf, block, secondNetwork,
        secondBlock]

theorem Chained.congr (chained : t.Chained) (block : t'.block = t.block)
    (deposit : t'.deposit = t.deposit) : t'.Chained := by
  apply chained.of_fewer block
  intro row stored
  rw [deposit] at stored
  exact ⟨row, stored, rfl, rfl, rfl⟩

theorem Chained.deleteDeposits (chained : t.Chained)
    (gone : DepositRow H → Bool) : (t.deleteDeposits gone).Chained := by
  refine chained.of_fewer rfl ?_
  intro row stored
  exact ⟨row, (mem_filter.mp stored).1, rfl, rfl, rfl⟩

theorem Chained.push (chained : t.Chained) {row : DepositRow H}
    {block : BlockRow H} (stored : block ∈ t.block)
    (sameID : block.id = row.blockID)
    (sameNetwork : block.networkID = row.networkID)
    (last : ∀ other, other ∈ t.block →
      other.networkID = block.networkID → other.blockNum ≤ block.blockNum)
    (next : ∀ old, old ∈ t.deposit → old.networkID = row.networkID →
      old.depositCnt < row.depositCnt)
    (deposit : t'.deposit = t.deposit ++ [row])
    (blocks : t'.block = t.block) : t'.Chained := by
  have number : t.blockNumOf row = some block.blockNum :=
    blockNumOf_eq chained.blockIDs stored sameID sameNetwork
  have sameNumber : ∀ row, t'.blockNumOf row = t.blockNumOf row := by
    intro row
    rw [blockNumOf, blockNumOf, blocks]
  constructor
  · rw [blocks]
    exact chained.blockIDs
  · intro other otherIn
    rw [deposit, mem_append, mem_singleton] at otherIn
    rw [blocks]
    rcases otherIn with old | rfl
    · exact chained.dated other old
    · exact ⟨block, stored, sameID, sameNetwork⟩
  · intro first second firstIn secondIn networks less early late
      firstNumber secondNumber
    rw [sameNumber] at firstNumber secondNumber
    rw [deposit, mem_append, mem_singleton] at firstIn secondIn
    rcases secondIn with secondOld | rfl
    · rcases firstIn with firstOld | rfl
      · exact chained.ordered first second firstOld secondOld networks less
          early late firstNumber secondNumber
      · have smaller := next second secondOld networks.symm
        omega
    · obtain ⟨other, otherIn, _, otherNetwork, otherNumber⟩ :=
        exists_block_of_blockNumOf firstNumber
      rw [number] at secondNumber
      rw [← otherNumber, ← Option.some.inj secondNumber]
      apply last other otherIn
      rw [otherNetwork, networks, sameNetwork]

theorem Chained.pushBlock (chained : t.Chained) {block : BlockRow H}
    (fresh : ∀ row, row ∈ t.block → row.id < block.id)
    (deposit : t'.deposit = t.deposit)
    (blocks : t'.block = t.block ++ [block]) : t'.Chained := by
  have blockIDs : t'.block.Pairwise fun first second =>
      first.id < second.id := by
    rw [blocks, pairwise_append]
    refine ⟨chained.blockIDs, pairwise_singleton _ _, ?_⟩
    intro old oldIn new newIn
    rw [mem_singleton.mp newIn]
    exact fresh old oldIn
  have dated : ∀ row, row ∈ t'.deposit → ∃ old, old ∈ t.block ∧
      old.id = row.blockID ∧ old.networkID = row.networkID := by
    intro row stored
    rw [deposit] at stored
    exact chained.dated row stored
  have sameNumber : ∀ row, row ∈ t'.deposit →
      t'.blockNumOf row = t.blockNumOf row := by
    intro row stored
    obtain ⟨old, oldIn, sameID, sameNetwork⟩ := dated row stored
    rw [blockNumOf_eq chained.blockIDs oldIn sameID sameNetwork]
    apply blockNumOf_eq blockIDs _ sameID sameNetwork
    rw [blocks]
    exact mem_append_left _ oldIn
  constructor
  · exact blockIDs
  · intro row stored
    obtain ⟨old, oldIn, same⟩ := dated row stored
    refine ⟨old, ?_, same⟩
    rw [blocks]
    exact mem_append_left _ oldIn
  · intro first second firstIn secondIn networks less early late
      firstNumber secondNumber
    rw [sameNumber first firstIn] at firstNumber
    rw [sameNumber second secondIn] at secondNumber
    rw [deposit] at firstIn secondIn
    exact chained.ordered first second firstIn secondIn networks less early
      late firstNumber secondNumber

end Changes

section Owners

def OwnBlock (t : Tables H) (blockID networkID : Nat) : Prop :=
  ∃ block, block ∈ t.block ∧ block.id = blockID ∧ block.networkID = networkID

/-- Every row refers to a block of its own network, or is an entry of the
trusted sequencer. -/
structure Owned (t : Tables H) : Prop where
  positive : ∀ block, block ∈ t.block → 0 < block.id
  claim : ∀ row, row ∈ t.claim → t.OwnBlock row.blockID row.networkID
  token : ∀ row, row ∈ t.tokenWrapped → t.OwnBlock row.blockID row.networkID
  exitRoot : ∀ row, row ∈ t.exitRoot →
    row.blockID = 0 ∨ t.OwnBlock row.blockID row.networkID

theorem owned_empty : (Tables.empty : Tables H).Owned :=
  ⟨nofun, nofun, nofun, nofun⟩

variable {blockID : Nat}

theorem OwnBlock.mono {networkID : Nat} (own : t.OwnBlock blockID networkID)
    (blocks : ∀ block, block ∈ t.block → block ∈ t'.block) :
    t'.OwnBlock blockID networkID := by
  obtain ⟨block, stored, same⟩ := own
  exact ⟨block, blocks block stored, same⟩

theorem Owned.pushBlock (owned : t.Owned) {block : BlockRow H}
    (positive : 0 < block.id) (blocks : t'.block = t.block ++ [block])
    (claim : t'.claim = t.claim) (token : t'.tokenWrapped = t.tokenWrapped)
    (exitRoot : t'.exitRoot = t.exitRoot) : t'.Owned := by
  have more : ∀ old, old ∈ t.block → old ∈ t'.block := by
    intro old oldIn
    rw [blocks]
    exact mem_append_left _ oldIn
  constructor
  · intro other otherIn
    rw [blocks] at otherIn
    rcases Rows.mem_push.mp otherIn with old | rfl
    · exact owned.positive other old
    · exact positive
  · intro row stored
    rw [claim] at stored
    exact (owned.claim row stored).mono more
  · intro row stored
    rw [token] at stored
    exact (owned.token row stored).mono more
  · intro row stored
    rw [exitRoot] at stored
    exact (owned.exitRoot row stored).imp_right fun own => own.mono more

def goneIDs (t : Tables H) (blockNumber networkID : Nat) : List Nat :=
  (t.block.filter fun row =>
    blockNumber < row.blockNum && row.networkID == networkID).map BlockRow.id

theorem OwnBlock.not_mem_goneIDs {networkID other blockNumber : Nat}
    (own : t.OwnBlock blockID networkID)
    (blockIDs : t.block.Pairwise fun first second => first.id < second.id)
    (different : networkID ≠ other) :
    blockID ∉ t.goneIDs blockNumber other := by
  obtain ⟨block, stored, sameID, sameNetwork⟩ := own
  intro removed
  obtain ⟨gone, goneIn, goneID⟩ := mem_map.mp removed
  obtain ⟨goneStored, late⟩ := mem_filter.mp goneIn
  rw [Bool.and_eq_true, beq_iff_eq] at late
  rw [block_eq_of_id blockIDs goneStored stored (goneID.trans sameID.symm),
    sameNetwork] at late
  exact different late.2

theorem Owned.zero_not_mem_goneIDs (owned : t.Owned)
    (blockNumber networkID : Nat) :
    0 ∉ t.goneIDs blockNumber networkID := by
  intro removed
  obtain ⟨gone, goneIn, goneID⟩ := mem_map.mp removed
  have positive := owned.positive gone (mem_filter.mp goneIn).1
  omega

theorem OwnBlock.reset {networkID blockNumber other : Nat}
    (own : t.OwnBlock blockID networkID)
    (stays : blockID ∉ t.goneIDs blockNumber other) :
    (t.reset blockNumber other).OwnBlock blockID networkID := by
  obtain ⟨block, stored, sameID, sameNetwork⟩ := own
  refine ⟨block, mem_filter.mpr ⟨stored, ?_⟩, sameID, sameNetwork⟩
  by_contra removed
  apply stays
  rw [← sameID]
  apply mem_map_of_mem
  exact mem_filter.mpr ⟨stored, by simpa using removed⟩

theorem Owned.reset (owned : t.Owned) (blockNumber networkID : Nat) :
    (t.reset blockNumber networkID).Owned where
  positive := by
    intro block stored
    exact owned.positive block (mem_filter.mp stored).1
  claim := by
    intro row stored
    obtain ⟨rowIn, stays⟩ := mem_filter.mp stored
    exact (owned.claim row rowIn).reset (of_decide_eq_true stays)
  token := by
    intro row stored
    obtain ⟨rowIn, stays⟩ := mem_filter.mp stored
    exact (owned.token row rowIn).reset (of_decide_eq_true stays)
  exitRoot := by
    intro row stored
    obtain ⟨rowIn, stays⟩ := mem_filter.mp stored
    exact (owned.exitRoot row rowIn).imp_right fun own =>
      own.reset (of_decide_eq_true stays)

end Owners

section Counting

variable {height networkID blockNumber : Nat}

def UpTo (t : Tables H) (networkID blockNumber : Nat) (row : DepositRow H) :
    Prop :=
  row ∈ t.deposit ∧ row.networkID = networkID ∧
    ∃ number, t.blockNumOf row = some number ∧ number ≤ blockNumber

private theorem mem_counted {row : DepositRow H} :
    row ∈ t.deposit.filter (fun row =>
      row.networkID == networkID &&
        (t.blockNumOf row).any fun num => num ≤ blockNumber) ↔
      t.UpTo networkID blockNumber row := by
  simp [UpTo, mem_filter, Option.any_eq_true]

theorem getNumberDeposits_cases (t : Tables H)
    (networkID blockNumber : Nat) :
    ((∀ row, ¬t.UpTo networkID blockNumber row) ∧
        t.getNumberDeposits networkID blockNumber = 0) ∨
      ∃ last, t.UpTo networkID blockNumber last ∧
        (∀ row, t.UpTo networkID blockNumber row →
          row.depositCnt ≤ last.depositCnt) ∧
        t.getNumberDeposits networkID blockNumber =
          (last.depositCnt + 1) % 2 ^ 32 := by
  cases largest : ((t.deposit.filter fun row =>
      row.networkID == networkID &&
        (t.blockNumOf row).any fun num => num ≤ blockNumber).map
          DepositRow.depositCnt).max? with
  | none =>
    refine .inl ⟨?_, by simp only [getNumberDeposits, largest]⟩
    rw [max?_eq_none_iff, map_eq_nil_iff] at largest
    intro row counted
    rw [← mem_counted, largest] at counted
    contradiction
  | some count =>
    obtain ⟨countIn, bound⟩ := max?_eq_some_iff.mp largest
    obtain ⟨last, lastIn, rfl⟩ := mem_map.mp countIn
    refine .inr ⟨last, mem_counted.mp lastIn, ?_,
      by simp only [getNumberDeposits, largest]⟩
    intro row counted
    exact bound _ (mem_map_of_mem (mem_counted.mpr counted))

variable [Externals H]

theorem getNumberDeposits_le (tree : t.TreeTables height)
    (networkID blockNumber : Nat) :
    t.getNumberDeposits networkID blockNumber ≤
      (t.leavesOf networkID).length := by
  rcases t.getNumberDeposits_cases networkID blockNumber with
    ⟨_, counted⟩ | ⟨last, ⟨lastIn, onNetwork, _⟩, _, counted⟩
  · rw [counted]
    exact Nat.zero_le _
  · have inside := tree.count_lt lastIn
    rw [onNetwork] at inside
    rw [counted]
    exact (Nat.mod_le _ _).trans inside

section

variable (chained : t.Chained) (tree : t.TreeTables height)
  (fits : (t.leavesOf networkID).length < 2 ^ 32)

include chained tree fits

theorem Chained.lt_getNumberDeposits_iff {row : DepositRow H}
    (stored : row ∈ t.deposit) (onNetwork : row.networkID = networkID)
    {number : Nat} (numbered : t.blockNumOf row = some number) :
    row.depositCnt < t.getNumberDeposits networkID blockNumber ↔
      number ≤ blockNumber := by
  rcases t.getNumberDeposits_cases networkID blockNumber with
    ⟨none, counted⟩ | ⟨last, ⟨lastIn, lastNetwork, lastNumber⟩, bound,
      counted⟩
  · rw [counted]
    constructor
    · intro impossible
      exact absurd impossible (Nat.not_lt_zero _)
    · intro early
      exact absurd ⟨stored, onNetwork, number, numbered, early⟩ (none row)
  · have inside := tree.count_lt lastIn
    rw [lastNetwork] at inside
    rw [counted, Nat.mod_eq_of_lt (by omega), Nat.lt_succ_iff]
    constructor
    · intro less
      obtain ⟨lastNumber, lastNumbered, early⟩ := lastNumber
      exact (chained.ordered row last stored lastIn
        (onNetwork.trans lastNetwork.symm) less number lastNumber numbered
          lastNumbered).trans early
    · intro early
      exact bound row ⟨stored, onNetwork, number, numbered, early⟩

theorem Chained.getNumberDeposits_eq
    (last : ∀ block, block ∈ t.block → block.networkID = networkID →
      block.blockNum ≤ blockNumber) :
    t.getNumberDeposits networkID blockNumber =
      (t.leavesOf networkID).length := by
  apply Nat.le_antisymm (getNumberDeposits_le tree networkID blockNumber)
  by_contra fewer
  obtain ⟨row, stored, onNetwork, count⟩ :=
    tree.exists_deposit (Nat.not_le.mp fewer)
  obtain ⟨block, blockIn, sameID, sameNetwork⟩ := chained.dated row stored
  have counted := (chained.lt_getNumberDeposits_iff tree fits stored
    onNetwork (blockNumOf_eq chained.blockIDs blockIn sameID
      sameNetwork)).mpr (last block blockIn (sameNetwork.trans onNetwork))
  omega

theorem Chained.cutsAt_reset (blockNumber : Nat) :
    t.CutsAt networkID (t.getNumberDeposits networkID blockNumber) fun row =>
      row.blockID ∈ (t.block.filter fun row =>
        blockNumber < row.blockNum && row.networkID == networkID).map
          BlockRow.id where
  gone_iff := by
    intro row stored
    obtain ⟨block, blockIn, sameID, sameNetwork⟩ := chained.dated row stored
    have numbered := blockNumOf_eq chained.blockIDs blockIn sameID sameNetwork
    have removed : row.blockID ∈ (t.block.filter fun row =>
        blockNumber < row.blockNum && row.networkID == networkID).map
          BlockRow.id ↔
        blockNumber < block.blockNum ∧ row.networkID = networkID := by
      simp only [mem_map, mem_filter, Bool.and_eq_true,
        decide_eq_true_eq, beq_iff_eq]
      constructor
      · rintro ⟨other, ⟨otherIn, later, otherNetwork⟩, otherID⟩
        have same := block_eq_of_id chained.blockIDs otherIn blockIn
          (otherID.trans sameID.symm)
        subst same
        exact ⟨later, sameNetwork.symm.trans otherNetwork⟩
      · rintro ⟨later, onNetwork⟩
        exact ⟨block, ⟨blockIn, later, sameNetwork.trans onNetwork⟩, sameID⟩
    rw [decide_eq_true_eq, removed]
    constructor
    · rintro ⟨later, onNetwork⟩
      refine ⟨?_, onNetwork⟩
      rw [← Nat.not_lt, chained.lt_getNumberDeposits_iff tree fits stored
        onNetwork numbered]
      exact Nat.not_le.mpr later
    · rintro ⟨beyond, onNetwork⟩
      refine ⟨?_, onNetwork⟩
      rw [← Nat.not_lt, chained.lt_getNumberDeposits_iff tree fits stored
        onNetwork numbered] at beyond
      exact Nat.not_le.mp beyond

end

omit [Externals H] in
theorem Chained.reset (chained : t.Chained) (blockNumber networkID : Nat) :
    (t.reset blockNumber networkID).Chained := by
  have kept : ∀ block, block ∈ (t.reset blockNumber networkID).block →
      block ∈ t.block := fun block stored => (mem_filter.mp stored).1
  have old : ∀ {row number},
      (t.reset blockNumber networkID).blockNumOf row = some number →
        t.blockNumOf row = some number := by
    intro row number numbered
    obtain ⟨block, blockIn, sameID, sameNetwork, rfl⟩ :=
      exists_block_of_blockNumOf numbered
    exact blockNumOf_eq chained.blockIDs (kept block blockIn) sameID
      sameNetwork
  constructor
  · exact chained.blockIDs.filter _
  · intro row stored
    obtain ⟨rowIn, stays⟩ := mem_filter.mp stored
    obtain ⟨block, blockIn, sameID, sameNetwork⟩ := chained.dated row rowIn
    refine ⟨block, mem_filter.mpr ⟨blockIn, ?_⟩, sameID, sameNetwork⟩
    by_contra removed
    have gone : row.blockID ∈ (t.block.filter fun row =>
        blockNumber < row.blockNum && row.networkID == networkID).map
          BlockRow.id := by
      rw [← sameID]
      apply mem_map_of_mem
      apply mem_filter.mpr
      exact ⟨blockIn, by simpa using removed⟩
    simp [gone] at stays
  · intro first second firstIn secondIn networks less early late
      firstNumber secondNumber
    exact chained.ordered first second (mem_filter.mp firstIn).1
      (mem_filter.mp secondIn).1 networks less early late
      (old firstNumber) (old secondNumber)

end Counting

end Tables

end BridgeService
