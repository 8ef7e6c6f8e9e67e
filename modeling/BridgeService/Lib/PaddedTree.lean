import Mathlib.Data.Nat.Bitwise
import Mathlib.Data.List.GetD
import Mathlib.Logic.Function.Basic

/-!
# Perfect binary trees over an indexed leaf supply

A perfect tree is described by the value of each of its nodes: the node at a
level and a position combines the two nodes below it, and level zero reads the
leaf supply.  A finite list of leaves is completed with an empty leaf, so that
one node function covers every height.

Nothing is assumed about the combining operation, except in the last section,
where pair injectivity makes a node determine all the leaves below it.
-/

namespace PaddedTree

open List

variable {α : Type}

section Nodes

variable (combine : α → α → α)

def node (leaf : Nat → α) : Nat → Nat → α
  | 0, position => leaf position
  | level + 1, position =>
    combine (node leaf level (2 * position))
      (node leaf level (2 * position + 1))

def emptyNode (empty : α) : Nat → α
  | 0 => empty
  | level + 1 => combine (emptyNode empty level) (emptyNode empty level)

/-- Leaf supply of a finite list followed by empty leaves. -/
def padded (empty : α) (leaves : List α) (position : Nat) : α :=
  leaves.getD position empty

def root (empty : α) (height : Nat) (leaves : List α) : α :=
  node combine (padded empty leaves) height 0

@[simp] theorem node_zero (leaf : Nat → α) (position : Nat) :
    node combine leaf 0 position = leaf position := rfl

theorem node_succ (leaf : Nat → α) (level position : Nat) :
    node combine leaf (level + 1) position =
      combine (node combine leaf level (2 * position))
        (node combine leaf level (2 * position + 1)) := rfl

theorem div_two_pow_succ (index level : Nat) :
    index / 2 ^ (level + 1) = index / 2 ^ level / 2 := by
  rw [Nat.pow_succ, Nat.div_div_eq_div_mul]

theorem node_congr {first second : Nat → α} {level position : Nat}
    (agree : ∀ index, index / 2 ^ level = position →
      first index = second index) :
    node combine first level position =
      node combine second level position := by
  induction level generalizing position with
  | zero => exact agree position (by simp)
  | succ level induction =>
    rw [node_succ, node_succ]
    congr 1
    · apply induction
      intro index below
      apply agree
      rw [div_two_pow_succ, below]
      omega
    · apply induction
      intro index below
      apply agree
      rw [div_two_pow_succ, below]
      omega

variable {empty : α} {leaves : List α} {index : Nat}

theorem node_eq_emptyNode {leaf : Nat → α} {level position : Nat}
    (vacant : ∀ index, index / 2 ^ level = position → leaf index = empty) :
    node combine leaf level position = emptyNode combine empty level := by
  induction level generalizing position with
  | zero => exact vacant position (by simp)
  | succ level induction =>
    have leftVacant : node combine leaf level (2 * position) =
        emptyNode combine empty level := by
      apply induction
      intro index below
      apply vacant
      rw [div_two_pow_succ, below]
      omega
    have rightVacant : node combine leaf level (2 * position + 1) =
        emptyNode combine empty level := by
      apply induction
      intro index below
      apply vacant
      rw [div_two_pow_succ, below]
      omega
    rw [node_succ, leftVacant, rightVacant, emptyNode]

theorem emptyNode_combine (empty : α) (level : Nat) :
    emptyNode combine (combine empty empty) level =
      emptyNode combine empty (level + 1) := by
  induction level with
  | zero => rfl
  | succ level induction =>
    rw [emptyNode, induction]
    rfl

theorem padded_of_length_le (outside : leaves.length ≤ index) :
    padded empty leaves index = empty := by
  simp [padded, getD_eq_getElem?_getD, outside]

theorem padded_of_lt (inside : index < leaves.length) :
    padded empty leaves index = leaves[index] := by
  simp [padded, inside]

theorem padded_append_left {extra : List α} (inside : index < leaves.length) :
    padded empty (leaves ++ extra) index = padded empty leaves index := by
  rw [padded_of_lt inside, padded_of_lt (by simp; omega)]
  exact getElem_append_left inside

@[simp] theorem padded_append_length {leaf : α} :
    padded empty (leaves ++ [leaf]) leaves.length = leaf := by
  rw [padded_of_lt (by simp)]
  simp

theorem padded_take (empty : α) (leaves : List α) (count index : Nat) :
    padded empty (leaves.take count) index =
      if index < count then padded empty leaves index else empty := by
  by_cases inside : index < count
  · rw [if_pos inside, padded, padded, getD_eq_getElem?_getD,
      getElem?_take_of_lt inside, ← getD_eq_getElem?_getD]
  · rw [if_neg inside]
    apply padded_of_length_le
    rw [length_take]
    omega

theorem root_nil (empty : α) (height : Nat) :
    root combine empty height [] = emptyNode combine empty height :=
  node_eq_emptyNode combine fun _ _ => padded_of_length_le (Nat.zero_le _)

end Nodes

section Bits

theorem testBit_iff_odd (index level : Nat) :
    index.testBit level = true ↔ index / 2 ^ level % 2 = 1 := by
  rw [Nat.testBit_eq_decide_div_mod_eq]
  simp

theorem position_of_set {index level : Nat}
    (set : index.testBit level = true) :
    index / 2 ^ level = 2 * (index / 2 ^ (level + 1)) + 1 := by
  have odd := (testBit_iff_odd index level).mp set
  rw [div_two_pow_succ]
  omega

theorem position_of_clear {index level : Nat}
    (clear : index.testBit level = false) :
    index / 2 ^ level = 2 * (index / 2 ^ (level + 1)) := by
  have notOdd : ¬index / 2 ^ level % 2 = 1 := by
    rw [← testBit_iff_odd]
    simp [clear]
  rw [div_two_pow_succ]
  omega

@[simp] theorem mask_pos_iff (index level : Nat) :
    0 < index &&& (1 <<< level) ↔ index.testBit level = true := by
  rw [Nat.one_shiftLeft, Nat.and_two_pow]
  have positive : 0 < 2 ^ level := Nat.two_pow_pos level
  cases index.testBit level <;> simp [positive]

end Bits

section Paths

variable (combine : α → α → α)

/-- Climb from a leaf towards the root with one sibling for each level. -/
def climb (sibling : Nat → α) (index : Nat) (leaf : α) : Nat → α
  | 0 => leaf
  | level + 1 =>
    if index.testBit level then
      combine (sibling level) (climb sibling index leaf level)
    else
      combine (climb sibling index leaf level) (sibling level)

/-- Position of the sibling of the ancestor of an index at a level. -/
def siblingPosition (index level : Nat) : Nat :=
  if index.testBit level then 2 * (index / 2 ^ (level + 1))
  else 2 * (index / 2 ^ (level + 1)) + 1

theorem climb_own_siblings {leaf : Nat → α} {sibling : Nat → α}
    {index height : Nat}
    (own : ∀ level, level < height → sibling level =
        node combine leaf level (siblingPosition index level)) :
    climb combine sibling index (leaf index) height =
      node combine leaf height (index / 2 ^ height) := by
  induction height with
  | zero => simp [climb]
  | succ height induction =>
    have lower := induction fun level below => own level (by omega)
    have here := own height (by omega)
    rw [climb, lower, here, node_succ]
    by_cases set : index.testBit height = true
    · rw [if_pos set, position_of_set set]
      simp [siblingPosition, set]
    · have clear : index.testBit height = false := by simpa using set
      rw [if_neg set, position_of_clear clear]
      simp [siblingPosition, clear]

theorem climb_congr {first second : Nat → α} {index : Nat} {leaf : α}
    {height : Nat}
    (agree : ∀ level, level < height → first level = second level) :
    climb combine first index leaf height =
      climb combine second index leaf height := by
  induction height with
  | zero => rfl
  | succ height induction =>
    rw [climb, climb, induction fun level below => agree level (by omega),
      agree height (by omega)]

end Paths

section Injective

variable {combine : α → α → α}

theorem leaf_eq_of_node_eq (injective : Function.Injective2 combine)
    {first second : Nat → α} {level position : Nat}
    (same : node combine first level position =
      node combine second level position) :
    ∀ index, index / 2 ^ level = position → first index = second index := by
  induction level generalizing position with
  | zero =>
    intro index below
    have here : index = position := by simpa using below
    subst index
    simpa using same
  | succ level induction =>
    intro index below
    rw [node_succ, node_succ] at same
    obtain ⟨left, right⟩ := injective same
    rw [div_two_pow_succ] at below
    by_cases odd : index / 2 ^ level % 2 = 1
    · exact induction right index (by omega)
    · exact induction left index (by omega)

variable {index height : Nat} {empty : α}

theorem leaf_eq_of_climb_eq (injective : Function.Injective2 combine)
    {tree : Nat → α} {sibling : Nat → α} {leaf : α}
    (reached : climb combine sibling index leaf height =
      node combine tree height (index / 2 ^ height)) : leaf = tree index := by
  induction height with
  | zero => simpa [climb] using reached
  | succ height induction =>
    apply induction
    rw [climb, node_succ] at reached
    by_cases set : index.testBit height = true
    · rw [if_pos set] at reached
      rw [position_of_set set]
      exact (injective reached).2
    · have clear : index.testBit height = false := by simpa using set
      rw [if_neg set] at reached
      rw [position_of_clear clear]
      exact (injective reached).1

section Paths

variable (injective : Function.Injective2 combine)
  {sibling sibling' : Nat → α} {first second : α}
  (same : climb combine sibling index first height =
    climb combine sibling' index second height)

include injective same

theorem path_eq_of_climb_eq : first = second ∧
    ∀ level, level < height → sibling level = sibling' level := by
  induction height with
  | zero => exact ⟨same, nofun⟩
  | succ height induction =>
    rw [climb, climb] at same
    have both : sibling height = sibling' height ∧
        climb combine sibling index first height =
          climb combine sibling' index second height := by
      by_cases set : index.testBit height = true
      · rw [if_pos set, if_pos set] at same
        exact injective same
      · rw [if_neg set, if_neg set] at same
        exact (injective same).symm
    obtain ⟨leaf, lower⟩ := induction both.2
    exact ⟨leaf, Nat.forall_lt_succ_right.mpr ⟨lower, both.1⟩⟩

theorem climb_injective : first = second :=
  (path_eq_of_climb_eq injective same).1

end Paths

/-- Some path leads from the leaf at a position to the root. -/
def HasLeaf (combine : α → α → α) (height : Nat) (root : α) (index : Nat)
    (leaf : α) : Prop :=
  ∃ sibling, climb combine sibling index leaf height = root

theorem hasLeaf_root (injective : Function.Injective2 combine)
    (inside : index < 2 ^ height) (leaves : List α) (leaf : α) :
    HasLeaf combine height (root combine empty height leaves) index leaf ↔
      leaf = padded empty leaves index := by
  have top : root combine empty height leaves =
      node combine (padded empty leaves) height (index / 2 ^ height) := by
    rw [Nat.div_eq_of_lt inside]
    rfl
  constructor
  · rintro ⟨sibling, reached⟩
    rw [top] at reached
    exact leaf_eq_of_climb_eq injective reached
  · rintro rfl
    refine ⟨fun level => node combine (padded empty leaves) level
      (siblingPosition index level), ?_⟩
    rw [top]
    exact climb_own_siblings combine fun _ _ => rfl

theorem padded_eq_of_root_eq (injective : Function.Injective2 combine)
    {first second : List α}
    (same : root combine empty height first =
      root combine empty height second) :
    ∀ index, index < 2 ^ height →
      padded empty first index = padded empty second index := by
  intro index inside
  exact leaf_eq_of_node_eq injective same index (Nat.div_eq_of_lt inside)

theorem eq_of_root_eq (injective : Function.Injective2 combine)
    {first second : List α} (firstFull : ∀ leaf, leaf ∈ first → leaf ≠ empty)
    (secondFull : ∀ leaf, leaf ∈ second → leaf ≠ empty)
    (firstFits : first.length ≤ 2 ^ height)
    (secondFits : second.length ≤ 2 ^ height)
    (same : root combine empty height first =
      root combine empty height second) : first = second := by
  have agree := padded_eq_of_root_eq injective same
  have notLonger : ∀ {short long : List α},
      (∀ leaf, leaf ∈ long → leaf ≠ empty) → long.length ≤ 2 ^ height →
      (∀ index, index < 2 ^ height →
        padded empty short index = padded empty long index) →
      long.length ≤ short.length := by
    intro short long full fits agree
    apply Nat.le_of_not_lt
    intro longer
    have leafEq := agree short.length (by omega)
    rw [padded_of_length_le le_rfl, padded_of_lt longer] at leafEq
    exact full _ (getElem_mem longer) leafEq.symm
  have length : first.length = second.length :=
    Nat.le_antisymm
      (notLonger firstFull firstFits fun index inside =>
        (agree index inside).symm)
      (notLonger secondFull secondFits agree)
  apply ext_getElem length
  intro index inFirst inSecond
  rw [← padded_of_lt inFirst, ← padded_of_lt inSecond]
  exact agree index (by omega)

end Injective

end PaddedTree
