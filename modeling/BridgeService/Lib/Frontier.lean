import BridgeService.Lib.PaddedTree

/-!
# Frontiers of append-only perfect trees

An append-only tree needs one stored node for each set bit of its number of
leaves: the complete subtree to the left of the next free position at that
level.  Entries at clear bits are never read, so a frontier is specified only
at the set bits.

Two ways of obtaining a frontier are covered.  Appending one leaf changes the
entry at the lowest clear bit of the count; walking down to the last leaf and
keeping every left child gives the entries of all set bits at once.
-/

namespace PaddedTree

variable {α : Type} {combine : α → α → α}

def Filled (count level : Nat) : Prop :=
  ∀ lower, lower < level → count.testBit lower = true

theorem filled_zero (count : Nat) : Filled count 0 := by
  intro lower below
  omega

theorem filled_succ_iff (count level : Nat) :
    Filled count (level + 1) ↔
      Filled count level ∧ count.testBit level = true := by
  constructor
  · intro filled
    exact ⟨fun lower below => filled lower (by omega), filled level (by omega)⟩
  · rintro ⟨filled, set⟩ lower below
    by_cases here : lower = level
    · exact here ▸ set
    · exact filled lower (by omega)

theorem succ_div_two_pow (count level : Nat) :
    (Filled count level → (count + 1) / 2 ^ level = count / 2 ^ level + 1) ∧
      (¬Filled count level →
        (count + 1) / 2 ^ level = count / 2 ^ level) := by
  induction level with
  | zero => exact ⟨by simp, fun empty => (empty (filled_zero count)).elim⟩
  | succ level induction =>
    obtain ⟨carried, stopped⟩ := induction
    rw [div_two_pow_succ, div_two_pow_succ, filled_succ_iff]
    constructor
    · rintro ⟨filled, set⟩
      have odd := (testBit_iff_odd count level).mp set
      rw [carried filled]
      omega
    · intro notFilled
      by_cases filled : Filled count level
      · have notOdd : ¬count / 2 ^ level % 2 = 1 := by
          rw [← testBit_iff_odd]
          exact fun set => notFilled ⟨filled, set⟩
        rw [carried filled]
        omega
      · rw [stopped filled]

variable {count height : Nat} {sibling : Nat → α}

theorem succ_div_of_succ_set {level : Nat}
    (set : (count + 1).testBit level = true) :
    (count + 1) / 2 ^ (level + 1) = count / 2 ^ (level + 1) := by
  apply (succ_div_two_pow count (level + 1)).2
  intro filled
  obtain ⟨lowerFilled, bitSet⟩ := (filled_succ_iff count level).mp filled
  have odd := (testBit_iff_odd count level).mp bitSet
  have nextOdd := (testBit_iff_odd (count + 1) level).mp set
  rw [(succ_div_two_pow count level).1 lowerFilled] at nextOdd
  omega

/-- The entries at the set bits of the count are the complete subtrees to the
left of the next free position. -/
def Frontier (combine : α → α → α) (leaf : Nat → α) (height count : Nat)
    (sibling : Nat → α) : Prop :=
  ∀ level, level < height → count.testBit level = true →
    sibling level = node combine leaf level (2 * (count / 2 ^ (level + 1)))

theorem frontier_zero (leaf : Nat → α) (height : Nat) (sibling : Nat → α) :
    Frontier combine leaf height 0 sibling := by
  intro level _ set
  simp at set

private theorem complete_below {level index : Nat}
    (set : count.testBit level = true)
    (below : index / 2 ^ level = 2 * (count / 2 ^ (level + 1))) :
    index < count := by
  have position := position_of_set set
  have less : index / 2 ^ level < count / 2 ^ level := by omega
  exact Nat.lt_of_div_lt_div less

theorem Frontier.congr {first second : Nat → α}
    (frontier : Frontier combine first height count sibling)
    (agree : ∀ index, index < count → first index = second index) :
    Frontier combine second height count sibling := by
  intro level below set
  rw [frontier level below set]
  apply node_congr
  intro index here
  exact agree index (complete_below set here)

theorem Frontier.push {old new : Nat → α} {updated : Nat → α}
    (frontier : Frontier combine old height count sibling)
    (agree : ∀ index, index < count → old index = new index)
    (stored : ∀ level, level < height → Filled count level →
      count.testBit level = false →
      updated level = node combine new level (count / 2 ^ level))
    (kept : ∀ level, level < height → ¬Filled count level →
      updated level = sibling level) :
    Frontier combine new height (count + 1) updated := by
  intro level below set
  have same := succ_div_of_succ_set set
  have nextPosition := position_of_set set
  by_cases filled : Filled count level
  · have carried := (succ_div_two_pow count level).1 filled
    have clear : count.testBit level = false := by
      by_contra bit
      have odd := (testBit_iff_odd count level).mp (by simpa using bit)
      omega
    rw [stored level below filled clear]
    congr 1
    omega
  · have stopped := (succ_div_two_pow count level).2 filled
    have wasSet : count.testBit level = true := by
      rw [testBit_iff_odd, ← stopped, ← testBit_iff_odd]
      exact set
    rw [kept level below filled, frontier.congr agree level below wasSet, same]

theorem frontier_of_left_children {leaf : Nat → α}
    (left : ∀ level, level < height → sibling level =
        node combine leaf level (2 * (count / 2 ^ (level + 1)))) :
    Frontier combine leaf height (count + 1) sibling := by
  intro level below set
  rw [left level below, succ_div_of_succ_set set]

theorem Frontier.climb_eq {leaf : Nat → α} {empty : α}
    (frontier : Frontier combine leaf height count sibling)
    (clear : ∀ level, level < height → count.testBit level = false →
      sibling level = emptyNode combine empty level)
    (vacant : ∀ index, count ≤ index → leaf index = empty)
    (fits : count < 2 ^ height) :
    climb combine sibling count empty height = node combine leaf height 0 := by
  have own : ∀ level, level < height →
      sibling level =
        node combine leaf level (siblingPosition count level) := by
    intro level below
    by_cases set : count.testBit level = true
    · rw [siblingPosition, if_pos set]
      exact frontier level below set
    · have notSet : count.testBit level = false := by simpa using set
      rw [siblingPosition, if_neg set, clear level below notSet]
      symm
      apply node_eq_emptyNode
      intro index here
      apply vacant
      have position := position_of_clear notSet
      have less : count / 2 ^ level < index / 2 ^ level := by omega
      exact (Nat.lt_of_div_lt_div less).le
  have climbed := climb_own_siblings combine own
  rw [vacant count (Nat.le_refl count), Nat.div_eq_of_lt fits] at climbed
  exact climbed

end PaddedTree
