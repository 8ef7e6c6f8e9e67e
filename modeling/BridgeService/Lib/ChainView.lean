import Mathlib.Data.List.Basic
import Mathlib.Data.List.Pairwise

/-!
# Views of a chain of blocks

What a node answers at one instant: a head, the hash of every block up to it,
and which of the blocks are marked.  A reader collects the marked blocks of a
chain in ascending order.  A collection is complete over a range of numbers if
it holds exactly the marked blocks there, and it stays complete when the chain
grows.  Two chains with a block in common agree below it.
-/

namespace ChainView

open List

variable {H : Type}

structure BlockRef (H : Type) where
  blockNumber : Nat
  blockHash : H
deriving DecidableEq

/-- Hashes and marks above the head have no meaning. -/
structure Chain (H : Type) where
  head : Nat
  hash : Nat → H
  marked : Nat → Bool

def Ascending (blocks : List (BlockRef H)) : Prop :=
  blocks.Pairwise fun first second => first.blockNumber < second.blockNumber

theorem Ascending.le_getLast {blocks : List (BlockRef H)}
    (ascending : Ascending blocks) {newest block : BlockRef H}
    (found : blocks.getLast? = some newest) (mem : block ∈ blocks) :
    block.blockNumber ≤ newest.blockNumber := by
  obtain ⟨earlier, rfl⟩ := getLast?_eq_some_iff.mp found
  obtain ⟨_, _, smaller⟩ := pairwise_append.mp ascending
  rcases mem_append.mp mem with before | here
  · exact Nat.le_of_lt (smaller block before newest mem_cons_self)
  · obtain rfl := mem_singleton.mp here
    exact Nat.le_refl _

namespace Chain

structure Has (chain : Chain H) (block : BlockRef H) : Prop where
  reached : block.blockNumber ≤ chain.head
  hash : chain.hash block.blockNumber = block.blockHash

structure Marks (chain : Chain H) (block : BlockRef H) : Prop
    extends Has chain block where
  marked : chain.marked block.blockNumber = true

def markedIn (chain : Chain H) (low high : Nat) : List (BlockRef H) :=
  ((List.range (chain.head + 1)).filter fun number =>
    low ≤ number ∧ number ≤ high ∧ chain.marked number).map fun number =>
      { blockNumber := number
        blockHash := chain.hash number }

theorem mem_markedIn {chain : Chain H} {low high : Nat} {block : BlockRef H} :
    block ∈ chain.markedIn low high ↔
      chain.Marks block ∧ low ≤ block.blockNumber ∧
        block.blockNumber ≤ high := by
  simp only [markedIn, mem_map, mem_filter, mem_range,
    decide_eq_true_eq]
  constructor
  · rintro ⟨number, ⟨reached, above, below, marked⟩, rfl⟩
    exact ⟨⟨⟨Nat.le_of_lt_succ reached, rfl⟩, marked⟩, above, below⟩
  · rintro ⟨marks, above, below⟩
    have reached := marks.reached
    refine ⟨block.blockNumber, ⟨by omega, above, below, marks.marked⟩, ?_⟩
    rw [marks.hash]

theorem ascending_markedIn (chain : Chain H) (low high : Nat) :
    Ascending (chain.markedIn low high) := by
  apply List.Pairwise.map
  · intro first second less
    exact less
  · exact (pairwise_lt_range).filter _

structure Extends (later earlier : Chain H) : Prop where
  head : earlier.head ≤ later.head
  hash : ∀ number, number ≤ earlier.head →
    later.hash number = earlier.hash number
  marked : ∀ number, number ≤ earlier.head →
    later.marked number = earlier.marked number

theorem Extends.has_iff {later earlier : Chain H} {block : BlockRef H}
    (grown : later.Extends earlier)
    (reached : block.blockNumber ≤ earlier.head) :
    later.Has block ↔ earlier.Has block := by
  have bound := grown.head
  constructor
  · intro here
    exact ⟨reached, (grown.hash _ reached).symm.trans here.hash⟩
  · intro here
    exact ⟨by omega, (grown.hash _ reached).trans here.hash⟩

theorem Extends.marks_iff {later earlier : Chain H} {block : BlockRef H}
    (grown : later.Extends earlier)
    (reached : block.blockNumber ≤ earlier.head) :
    later.Marks block ↔ earlier.Marks block := by
  constructor
  · intro here
    exact ⟨(grown.has_iff reached).mp here.toHas,
      (grown.marked _ reached).symm.trans here.marked⟩
  · intro here
    exact ⟨(grown.has_iff reached).mpr here.toHas,
      (grown.marked _ reached).trans here.marked⟩

/-- The blocks are the marked blocks above a number, up to another one. -/
def Complete (chain : Chain H) (low high : Nat)
    (blocks : List (BlockRef H)) : Prop :=
  ∀ block, block ∈ blocks ↔
    chain.Marks block ∧ low < block.blockNumber ∧ block.blockNumber ≤ high

theorem complete_markedIn (chain : Chain H) (low high : Nat) :
    chain.Complete low high (chain.markedIn (low + 1) high) :=
  fun _ => mem_markedIn

theorem complete_nil (chain : Chain H) {low high : Nat}
    (empty : high ≤ low) : chain.Complete low high [] := by
  intro block
  constructor
  · intro mem
    contradiction
  · rintro ⟨_, above, below⟩
    omega

section Complete

variable {chain later : Chain H} {low mid high : Nat}
  {blocks new : List (BlockRef H)}

theorem Complete.grow (complete : chain.Complete low high blocks)
    (grown : later.Extends chain)
    (settled : high ≤ chain.head ∨ high ≤ low) :
    later.Complete low high blocks := by
  intro block
  rw [complete block]
  constructor
  · rintro ⟨marks, above, below⟩
    exact ⟨(grown.marks_iff marks.reached).mpr marks, above, below⟩
  · rintro ⟨marks, above, below⟩
    have reached : block.blockNumber ≤ chain.head := by omega
    exact ⟨(grown.marks_iff reached).mp marks, above, below⟩

theorem Complete.append (complete : chain.Complete low mid blocks)
    (fresh : chain.Complete mid high new) (lower : low ≤ mid)
    (upper : mid ≤ high) : chain.Complete low high (blocks ++ new) := by
  intro block
  rw [mem_append, complete block, fresh block]
  constructor
  · rintro (⟨marks, above, below⟩ | ⟨marks, above, below⟩)
    · exact ⟨marks, above, Nat.le_trans below upper⟩
    · exact ⟨marks, Nat.lt_of_le_of_lt lower above, below⟩
  · rintro ⟨marks, above, below⟩
    by_cases old : block.blockNumber ≤ mid
    · exact .inl ⟨marks, above, old⟩
    · exact .inr ⟨marks, by omega, below⟩

theorem Complete.ascending_append (complete : chain.Complete low mid blocks)
    (fresh : chain.Complete mid high new) (ascending : Ascending blocks)
    (ascendingNew : Ascending new) : Ascending (blocks ++ new) := by
  apply pairwise_append.mpr
  refine ⟨ascending, ascendingNew, ?_⟩
  intro first firstIn second secondIn
  have below := ((complete first).mp firstIn).2.2
  have above := ((fresh second).mp secondIn).2.1
  exact Nat.lt_of_le_of_lt below above

theorem Complete.shrink (complete : chain.Complete low high blocks)
    (upper : mid ≤ high)
    (bounded : ∀ block, block ∈ blocks → block.blockNumber ≤ mid) :
    chain.Complete low mid blocks := by
  intro block
  constructor
  · intro mem
    obtain ⟨marks, above, _⟩ := (complete block).mp mem
    exact ⟨marks, above, bounded block mem⟩
  · rintro ⟨marks, above, below⟩
    exact (complete block).mpr ⟨marks, above, Nat.le_trans below upper⟩

theorem Complete.tail {first : BlockRef H}
    (complete : chain.Complete low high (first :: blocks))
    (ascending : Ascending (first :: blocks)) :
    chain.Complete first.blockNumber high blocks := by
  obtain ⟨smallest, _⟩ := pairwise_cons.mp ascending
  have above := ((complete first).mp mem_cons_self).2.1
  intro block
  constructor
  · intro mem
    obtain ⟨marks, _, below⟩ :=
      (complete block).mp (mem_cons_of_mem first mem)
    exact ⟨marks, smallest block mem, below⟩
  · rintro ⟨marks, otherAbove, below⟩
    have mem := (complete block).mpr
      ⟨marks, Nat.lt_trans above otherAbove, below⟩
    rcases mem_cons.mp mem with same | later
    · rw [same] at otherAbove
      omega
    · exact later

theorem Complete.take (complete : chain.Complete low high blocks)
    (ascending : Ascending blocks) (ordered : low ≤ high) (count : Nat) :
    ∃ mid, low ≤ mid ∧ mid ≤ high ∧
      chain.Complete low mid (blocks.take count) := by
  induction blocks generalizing low count with
  | nil => exact ⟨high, ordered, Nat.le_refl _, by simpa using complete⟩
  | cons first rest induction =>
    obtain ⟨smallest, ascendingRest⟩ := pairwise_cons.mp ascending
    obtain ⟨marks, above, below⟩ := (complete first).mp mem_cons_self
    have single : chain.Complete low first.blockNumber [first] := by
      intro block
      rw [mem_singleton]
      constructor
      · rintro rfl
        exact ⟨marks, above, Nat.le_refl _⟩
      · rintro ⟨other, otherAbove, otherBelow⟩
        have mem := (complete block).mpr
          ⟨other, otherAbove, Nat.le_trans otherBelow below⟩
        rcases mem_cons.mp mem with same | later
        · exact same
        · have less := smallest block later
          omega
    cases count with
    | zero =>
      exact ⟨low, Nat.le_refl _, ordered, complete_nil chain (Nat.le_refl _)⟩
    | succ count =>
      obtain ⟨mid, lower, upper, taken⟩ :=
        induction (complete.tail ascending) ascendingRest below count
      exact ⟨mid, by omega, upper,
        single.append taken (Nat.le_of_lt above) lower⟩

theorem complete_of_markedIn {first : BlockRef H}
    (read : chain.markedIn low high = first :: blocks) :
    chain.Complete first.blockNumber high blocks := by
  have ascending := chain.ascending_markedIn low high
  rw [read] at ascending
  obtain ⟨smallest, _⟩ := pairwise_cons.mp ascending
  have firstIn : first ∈ chain.markedIn low high := by simp [read]
  have above := (mem_markedIn.mp firstIn).2.1
  intro block
  constructor
  · intro mem
    have blockIn : block ∈ chain.markedIn low high := by
      rw [read]
      exact mem_cons_of_mem first mem
    obtain ⟨marks, _, below⟩ := mem_markedIn.mp blockIn
    exact ⟨marks, smallest block mem, below⟩
  · rintro ⟨marks, less, below⟩
    have mem : block ∈ chain.markedIn low high :=
      mem_markedIn.mpr ⟨marks, by omega, below⟩
    rw [read] at mem
    rcases mem_cons.mp mem with rfl | later
    · omega
    · exact later

theorem complete_of_unmarked
    (unmarked : ∀ block, block ∈ chain.markedIn low high →
      block.blockNumber ≠ low) :
    chain.Complete low high (chain.markedIn low high) := by
  intro block
  rw [mem_markedIn]
  constructor
  · intro here
    have different := unmarked block (mem_markedIn.mpr here)
    obtain ⟨marks, above, below⟩ := here
    exact ⟨marks, by omega, below⟩
  · rintro ⟨marks, above, below⟩
    exact ⟨marks, by omega, below⟩

structure Covers (chain : Chain H) (low high : Nat)
    (blocks : List (BlockRef H)) : Prop where
  complete : chain.Complete low high blocks
  settled : high ≤ low ∨ high ≤ chain.head

theorem Covers.grow (covers : chain.Covers low high blocks)
    (grown : later.Extends chain) : later.Covers low high blocks where
  complete := covers.complete.grow grown covers.settled.symm
  settled := covers.settled.imp_right fun reached =>
    Nat.le_trans reached grown.head

theorem Covers.shrink (covers : chain.Covers low high blocks)
    (upper : mid ≤ high)
    (bounded : ∀ block, block ∈ blocks → block.blockNumber ≤ mid) :
    chain.Covers low mid blocks where
  complete := covers.complete.shrink upper bounded
  settled := covers.settled.imp (Nat.le_trans upper) (Nat.le_trans upper)

end Complete

end Chain

end ChainView
