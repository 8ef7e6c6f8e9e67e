import BridgeService.Bridgectrl.MerkleTree

/-!
# Trees built from a whole list of leaves

`buildMTRoot` and `computeSiblings` reduce a list of leaves level by level,
completing odd levels with the empty subtree.  Every list they meet is a
prefix of one level of the zero-padded full tree, long enough that all further
nodes of that level are empty.
-/

namespace BridgeService

open PaddedTree List

namespace MerkleTree

variable {H : Type} [Externals H]

def levelLength (count level : Nat) : Nat :=
  (max count 1 - 1) / 2 ^ level + 1

structure LevelPrefix (leaves : List H) (level length : Nat)
    (nodes : List H) : Prop where
  length_eq : nodes.length = length
  entry : ∀ position, position < length →
    nodes.getD position hashZero = treeNode leaves level position

theorem levelLength_succ (count level : Nat) :
    levelLength count (level + 1) = (levelLength count level + 1) / 2 := by
  simp only [levelLength, div_two_pow_succ]
  omega

theorem count_le_levelLength (count level : Nat) :
    count ≤ levelLength count level * 2 ^ level := by
  have reached := Nat.lt_mul_div_succ (max count 1 - 1) (Nat.two_pow_pos level)
  rw [Nat.mul_comm] at reached
  rw [levelLength]
  omega

private theorem levelPrefix_zero (leaves : List H) :
    LevelPrefix leaves 0 (levelLength leaves.length 0)
      (if leaves = [] then [zeroHashes 0] else leaves) := by
  cases leaves with
  | nil =>
    constructor
    · simp [levelLength]
    · intro position inside
      have here : position = 0 := by
        simpa [levelLength] using inside
      subst position
      simp [treeNode, padded, zeroHashes_eq_emptyNode, emptyNode]
  | cons leaf rest =>
    constructor
    · simp [levelLength]
    · intro position _
      rfl

private theorem getD_append_left {items extra : List H} {position : Nat}
    (inside : position < items.length) :
    (items ++ extra).getD position hashZero =
      items.getD position hashZero := by
  simp [getD_eq_getElem?_getD, getElem?_append_left inside]

variable {leaves nodes : List H} {level height index rollupIndex : Nat}

theorem LevelPrefix.pad (small : level ≤ 64)
    (levelNodes : LevelPrefix leaves level (levelLength leaves.length level)
      nodes) :
    LevelPrefix leaves level (2 * levelLength leaves.length (level + 1))
      (padLevel level nodes) := by
  have lengths := levelLength_succ leaves.length level
  rw [padLevel, levelNodes.length_eq]
  by_cases odd : levelLength leaves.length level % 2 = 1
  · rw [if_pos odd]
    constructor
    · rw [length_append, levelNodes.length_eq, length_singleton]
      omega
    · intro position inside
      by_cases old : position < levelLength leaves.length level
      · rw [getD_append_left (by rw [levelNodes.length_eq]; exact old)]
        exact levelNodes.entry position old
      · have last : position = nodes.length := by
          rw [levelNodes.length_eq]
          omega
        have vacant : leaves.length ≤ position * 2 ^ level := by
          rw [last, levelNodes.length_eq]
          exact count_le_levelLength leaves.length level
        rw [treeNode_eq_zeroHashes small vacant, last]
        simp [getD_eq_getElem?_getD]
  · rw [if_neg odd]
    have even : 2 * levelLength leaves.length (level + 1) =
        levelLength leaves.length level := by
      omega
    rw [even]
    exact levelNodes

theorem buildIntermediate_spec (items : List H) (half : Nat)
    (even : items.length = 2 * half) :
    (buildIntermediate items).2.length = half ∧ ∀ position, position < half →
        (buildIntermediate items).2.getD position hashZero =
          hash (items.getD (2 * position) hashZero)
            (items.getD (2 * position + 1) hashZero) := by
  induction items using buildIntermediate.induct generalizing half with
  | case1 left right rest induction =>
    cases half with
    | zero => simp at even
    | succ half =>
      have restEven : rest.length = 2 * half := by
        simp at even
        omega
      obtain ⟨length, entries⟩ := induction half restEven
      constructor
      · simp [buildIntermediate, length]
      · intro position inside
        cases position with
        | zero => simp [buildIntermediate]
        | succ position =>
          have here := entries position (by omega)
          rw [show 2 * (position + 1) = 2 * position + 1 + 1 by omega]
          simpa [buildIntermediate] using here
  | case2 items short =>
    cases items with
    | nil =>
      have empty : half = 0 := by simpa using even.symm
      subst half
      simp [buildIntermediate]
    | cons item rest =>
      cases rest with
      | nil =>
        simp at even
        omega
      | cons next rest => exact (short item next rest rfl).elim

theorem buildIntermediate_keys (items : List H) :
    (buildIntermediate items).1.map Prod.fst = (buildIntermediate items).2 := by
  induction items using buildIntermediate.induct with
  | case1 left right rest induction =>
    simpa [buildIntermediate] using induction
  | case2 items short =>
    rw [buildIntermediate]
    · rfl
    · exact short

theorem LevelPrefix.next {half : Nat}
    (levelNodes : LevelPrefix leaves level (2 * half) nodes) :
    LevelPrefix leaves (level + 1) half (buildIntermediate nodes).2 := by
  obtain ⟨length, entries⟩ :=
    buildIntermediate_spec nodes half levelNodes.length_eq
  constructor
  · exact length
  · intro position inside
    rw [entries position inside, levelNodes.entry _ (by omega),
      levelNodes.entry _ (by omega), treeNode_succ]

structure TopLevel (leaves : List H) (level : Nat)
    (top : List (H × H × H) × List H) : Prop where
  hashes : LevelPrefix leaves level (levelLength leaves.length level) top.2
  keys : 0 < level → top.1.map Prod.fst = top.2

private theorem topLevel_succ (small : level ≤ 64)
    (levelNodes : LevelPrefix leaves level (levelLength leaves.length level)
      nodes) :
    TopLevel leaves (level + 1)
      (buildIntermediate (padLevel level nodes)) where
  hashes := (levelNodes.pad small).next
  keys := fun _ => buildIntermediate_keys _

private theorem topLevel_root {top : List (H × H × H) × List H}
    (levelNodes : TopLevel leaves height top) (positive : 0 < height)
    (fits : leaves.length ≤ 2 ^ height) :
    ∃ left right, top.1 = [(treeRoot height leaves, left, right)] := by
  have single : levelLength leaves.length height = 1 := by
    have vacant : (max leaves.length 1 - 1) / 2 ^ height = 0 := by
      apply Nat.div_eq_of_lt
      have := Nat.two_pow_pos height
      omega
    rw [levelLength, vacant]
  have length : top.1.length = 1 := by
    rw [← length_map (f := Prod.fst), levelNodes.keys positive,
      levelNodes.hashes.length_eq, single]
  obtain ⟨⟨root, left, right⟩, only⟩ := length_eq_one_iff.mp length
  have entry := levelNodes.hashes.entry 0 (by omega)
  rw [← levelNodes.keys positive, only] at entry
  have rootEq : root = treeRoot height leaves := by
    simpa [treeRoot_eq_treeNode] using entry
  exact ⟨left, right, by rw [only, rootEq]⟩

private theorem fits_of_single {top : List (H × H × H) × List H}
    (levelNodes : TopLevel leaves height top) (positive : 0 < height)
    (single : top.1.length = 1) : leaves.length ≤ 2 ^ height := by
  by_contra exceeds
  have many : 2 ≤ levelLength leaves.length height := by
    have step : 1 ≤ (max leaves.length 1 - 1) / 2 ^ height := by
      apply (Nat.one_le_div_iff (Nat.two_pow_pos height)).mpr
      omega
    rw [levelLength]
    omega
  have length := levelNodes.hashes.length_eq
  rw [← levelNodes.keys positive, length_map, single] at length
  omega

private theorem buildMTRoot_levels (leaves : List H) (level : Nat)
    (small : level ≤ 64) :
    TopLevel leaves level ((List.range level).foldl
      (fun (_, leaves) h => buildIntermediate (padLevel h leaves))
      (([], if leaves = [] then [zeroHashes 0] else leaves) :
        List (H × H × H) × List H)) := by
  induction level with
  | zero =>
    exact ⟨levelPrefix_zero leaves, fun positive => by omega⟩
  | succ level induction =>
    have below := induction (by omega)
    rw [range_succ, foldl_append]
    exact topLevel_succ (by omega) below.hashes

/-- A list that fits under the tree is reduced to the root of the full tree
over its zero-padded leaves. -/
theorem buildMTRoot_eq_treeRoot (positive : 0 < height) (small : height ≤ 64)
    (fits : leaves.length ≤ 2 ^ height) :
    buildMTRoot height leaves = .ok (treeRoot height leaves) := by
  obtain ⟨left, right, top⟩ :=
    topLevel_root (buildMTRoot_levels leaves height small) positive fits
  simp only [buildMTRoot, top]

theorem buildMTRoot_ok {root : H} (small : height ≤ 64)
    (rooted : buildMTRoot height leaves = .ok root) :
    0 < height ∧ leaves.length ≤ 2 ^ height ∧
      root = treeRoot height leaves := by
  have top := buildMTRoot_levels leaves height small
  have positive : 0 < height := by
    apply Nat.pos_of_ne_zero
    rintro rfl
    contradiction
  have fits : leaves.length ≤ 2 ^ height := by
    simp only [buildMTRoot] at rooted
    split at rooted
    · next only =>
      apply fits_of_single top positive
      rw [only, length_singleton]
    · contradiction
  rw [buildMTRoot_eq_treeRoot positive small fits] at rooted
  exact ⟨positive, fits, (Except.ok.inj rooted).symm⟩

theorem buildMTRoot_too_long (small : height ≤ 64)
    (long : 2 ^ height < leaves.length) :
    buildMTRoot height leaves = .error .moreThanOneRoot := by
  cases rooted : buildMTRoot height leaves with
  | ok root =>
    obtain ⟨_, fits, _⟩ := buildMTRoot_ok small rooted
    omega
  | error err =>
    simp only [buildMTRoot] at rooted
    split at rooted
    · contradiction
    · exact rooted.symm

structure SiblingsBelow (leaves : List H) (rollupIndex level : Nat)
    (path : SiblingPath H) : Prop where
  index : path.index = rollupIndex / 2 ^ level
  siblings : path.siblings = (List.range level).map fun lower =>
    treeNode leaves lower (siblingPosition rollupIndex lower)
  top : TopLevel leaves level (path.ns, path.leaves)

private theorem index_lt_levelLength {count : Nat} (level : Nat)
    (inside : index < max count 1) :
    index / 2 ^ level < levelLength count level := by
  have monotone : index / 2 ^ level ≤ (max count 1 - 1) / 2 ^ level :=
    Nat.div_le_div_right (by omega)
  rw [levelLength]
  omega

private theorem computeSiblingsLevel_spec {path : SiblingPath H}
    (small : level ≤ 64) (inside : rollupIndex < max leaves.length 1)
    (below : SiblingsBelow leaves rollupIndex level path) :
    ∃ next, computeSiblingsLevel path level = .ok next ∧
      SiblingsBelow leaves rollupIndex (level + 1) next := by
  have padded := below.top.hashes.pad small
  have indexInside := index_lt_levelLength level inside
  have lengths := levelLength_succ leaves.length level
  rw [computeSiblingsLevel, below.index]
  by_cases odd : rollupIndex / 2 ^ level % 2 = 1
  · have set := (testBit_iff_odd rollupIndex level).mpr odd
    have position := position_of_set set
    have sibling := padded.entry (rollupIndex / 2 ^ level - 1) (by omega)
    simp only [if_pos odd, sibling, pure_bind]
    refine ⟨_, rfl, ?_⟩
    constructor
    · exact (div_two_pow_succ rollupIndex level).symm
    · rw [below.siblings, range_succ, map_append]
      simp [siblingPosition, set, position]
    · exact topLevel_succ small below.top.hashes
  · have clear : rollupIndex.testBit level = false := by
      rw [← Bool.not_eq_true, testBit_iff_odd]
      exact odd
    have position := position_of_clear clear
    have sibling := padded.entry (rollupIndex / 2 ^ level + 1) (by omega)
    have noError : ¬rollupIndex / 2 ^ level + 1 ≥
        (padLevel level path.leaves).length := by
      rw [padded.length_eq]
      omega
    simp only [if_neg odd, if_neg noError, sibling, pure_bind]
    refine ⟨_, rfl, ?_⟩
    constructor
    · exact (div_two_pow_succ rollupIndex level).symm
    · rw [below.siblings, range_succ, map_append]
      simp [siblingPosition, clear, position]
    · exact topLevel_succ small below.top.hashes

private theorem computeSiblings_levels (leaves : List H) (small : level ≤ 64)
    (inside : rollupIndex < max leaves.length 1) :
    ∃ path, (List.range level).foldlM computeSiblingsLevel
        { index := rollupIndex
          siblings := []
          ns := []
          leaves := if leaves = [] then [zeroHashes 0] else leaves } =
          .ok path ∧
      SiblingsBelow leaves rollupIndex level path := by
  induction level with
  | zero =>
    refine ⟨_, rfl, ?_⟩
    constructor
    · simp
    · rfl
    · exact ⟨levelPrefix_zero leaves, fun positive => by omega⟩
  | succ level induction =>
    obtain ⟨path, reached, below⟩ := induction (by omega)
    obtain ⟨next, step, above⟩ :=
      computeSiblingsLevel_spec (by omega) inside below
    refine ⟨next, ?_, above⟩
    rw [range_succ, foldlM_append, reached]
    simp only [foldlM_cons, foldlM_nil, bind_pure]
    exact step

private theorem length_leavesOrZero (leaves : List H) :
    (if leaves = [] then [zeroHashes 0] else leaves).length =
      max leaves.length 1 := by
  cases leaves with
  | nil => rfl
  | cons leaf rest => simp

theorem computeSiblings_spec (positive : 0 < height) (small : height ≤ 64)
    (inside : rollupIndex < max leaves.length 1)
    (fits : leaves.length ≤ 2 ^ height) :
    computeSiblings rollupIndex leaves height =
      .ok ((List.range height).map fun level =>
          treeNode leaves level (siblingPosition rollupIndex level),
        treeRoot height leaves) := by
  obtain ⟨path, reached, below⟩ := computeSiblings_levels leaves small inside
  obtain ⟨left, right, top⟩ := topLevel_root below.top positive fits
  have bounded : ¬rollupIndex ≥
      (if leaves = [] then [zeroHashes 0] else leaves).length := by
    rw [length_leavesOrZero]
    omega
  rw [computeSiblings]
  simp only [if_neg bounded, reached, bind, Except.bind]
  rw [show path.ns = [(treeRoot height leaves, left, right)] from top,
    below.siblings]
  rfl

theorem computeSiblings_ok {siblings : List H} {root : H}
    (small : height ≤ 64)
    (computed : computeSiblings rollupIndex leaves height =
      .ok (siblings, root)) :
    0 < height ∧ leaves.length ≤ 2 ^ height ∧
      rollupIndex < max leaves.length 1 := by
  have inside : rollupIndex < max leaves.length 1 := by
    by_contra outside
    have exceeds : rollupIndex ≥
        (if leaves = [] then [zeroHashes 0] else leaves).length := by
      rw [length_leavesOrZero]
      omega
    rw [computeSiblings] at computed
    simp only [if_pos exceeds] at computed
    contradiction
  obtain ⟨path, reached, below⟩ := computeSiblings_levels leaves small inside
  have bounded : ¬rollupIndex ≥
      (if leaves = [] then [zeroHashes 0] else leaves).length := by
    rw [length_leavesOrZero]
    omega
  rw [computeSiblings] at computed
  simp only [if_neg bounded, reached, bind, Except.bind] at computed
  have positive : 0 < height := by
    apply Nat.pos_of_ne_zero
    rintro rfl
    injection reached with start
    rw [← start] at computed
    contradiction
  refine ⟨positive, ?_, inside⟩
  split at computed
  · next only =>
    apply fits_of_single below.top positive
    rw [only, length_singleton]
  · contradiction

theorem computeSiblings_too_long (small : height ≤ 64)
    (inside : rollupIndex < max leaves.length 1)
    (long : 2 ^ height < leaves.length) :
    computeSiblings rollupIndex leaves height = .error .moreThanOneRoot := by
  obtain ⟨path, reached, _⟩ := computeSiblings_levels leaves small inside
  have bounded : ¬rollupIndex ≥
      (if leaves = [] then [zeroHashes 0] else leaves).length := by
    rw [length_leavesOrZero]
    omega
  cases computed : computeSiblings rollupIndex leaves height with
  | ok answer =>
    obtain ⟨_, fits, _⟩ := computeSiblings_ok small computed
    omega
  | error err =>
    rw [computeSiblings] at computed
    simp only [if_neg bounded, reached, bind, Except.bind] at computed
    split at computed
    · contradiction
    · exact computed.symm

theorem calculateRoot_eq_climb (leaf : H) (proof : List H)
    (index height : Nat) :
    calculateRoot leaf proof index height =
      climb hash (fun level => proof.getD level hashZero) index leaf
        height := by
  induction height with
  | zero => rfl
  | succ height induction =>
    rw [calculateRoot] at induction
    rw [calculateRoot, range_succ, foldl_append, induction, climb]
    simp only [foldl_cons, foldl_nil, Nat.testBit, Nat.and_comm _ 1]
    rcases Nat.mod_two_eq_zero_or_one (index >>> height) with even | odd
    · simp [Nat.one_and_eq_mod_two, even]
    · simp [Nat.one_and_eq_mod_two, odd]

theorem calculateRoot_own_siblings {proof : List H}
    (inside : index < 2 ^ height)
    (own : ∀ level, level < height → proof.getD level hashZero =
        treeNode leaves level (siblingPosition index level)) :
    calculateRoot (padded hashZero leaves index) proof index height =
      treeRoot height leaves := by
  rw [calculateRoot_eq_climb, climb_own_siblings hash own,
    Nat.div_eq_of_lt inside]
  rfl

private theorem padded_of_leavesOrZero {leaf : H}
    (found : (if leaves = [] then [zeroHashes 0] else leaves)[index]? =
      some leaf) :
    padded hashZero leaves index = leaf ∧ index < max leaves.length 1 := by
  cases leaves with
  | nil =>
    rw [if_pos rfl] at found
    obtain ⟨inside, here⟩ := List.getElem?_eq_some_iff.mp found
    obtain rfl : index = 0 := by simpa using inside
    refine ⟨?_, by simp⟩
    rw [← here]
    simp [padded, zeroHashes_eq_emptyNode, emptyNode]
  | cons first rest =>
    rw [if_neg (cons_ne_nil first rest)] at found
    obtain ⟨inside, here⟩ := List.getElem?_eq_some_iff.mp found
    refine ⟨?_, by simpa using inside⟩
    rw [padded_of_lt inside]
    exact here

/-- Both functions fail for leaves that do not fit under the tree, and
otherwise return the root of the full tree; the siblings of a leaf lead from it
to the root. -/
theorem whole_tree_computed {height : Nat} (positive : 1 ≤ height)
    (small : height ≤ 32) {leaves : List H} {index : Nat} {leaf : H}
    (found : (if leaves = [] then [zeroHashes 0] else leaves)[index]? =
      some leaf) :
    (2 ^ height < leaves.length →
      buildMTRoot height leaves = .error .moreThanOneRoot ∧
        computeSiblings index leaves height = .error .moreThanOneRoot) ∧
    (leaves.length ≤ 2 ^ height →
      buildMTRoot height leaves = .ok (treeRoot height leaves) ∧
        ∃ siblings, computeSiblings index leaves height =
            .ok (siblings, treeRoot height leaves) ∧
          siblings.length = height ∧
          calculateRoot leaf siblings index height =
            treeRoot height leaves) := by
  obtain ⟨leafEq, inside⟩ := padded_of_leavesOrZero found
  constructor
  · intro long
    exact ⟨buildMTRoot_too_long (by omega) long,
      computeSiblings_too_long (by omega) inside long⟩
  · intro fits
    have powers := Nat.two_pow_pos height
    refine ⟨buildMTRoot_eq_treeRoot positive (by omega) fits, _,
      computeSiblings_spec positive (by omega) inside fits, ?_, ?_⟩
    · simp
    · rw [← leafEq]
      apply calculateRoot_own_siblings
      · omega
      · intro level below
        simp [getD_eq_getElem?_getD, below]

theorem whole_tree_computed_sample :
    (∃ siblings, computeSiblings 1 [Digest.bytes [1], .bytes [2], .bytes [3]]
        2 = .ok (siblings, treeRoot 2
          [Digest.bytes [1], .bytes [2], .bytes [3]]) ∧
      siblings.length = 2 ∧
      calculateRoot (.bytes [2]) siblings 1 2 = treeRoot 2
        [Digest.bytes [1], .bytes [2], .bytes [3]]) ∧
    computeSiblings 4 (List.replicate 5 (Digest.bytes [1])) 2 =
      .error .moreThanOneRoot := by
  constructor
  · exact ((whole_tree_computed (by decide) (by decide) rfl).2
      (by decide)).2
  · exact ((whole_tree_computed (by decide) (by decide) rfl).1
      (by decide)).2

end MerkleTree

end BridgeService
