import BridgeService.Bridgectrl.BuildRoot
import BridgeService.Lib.Frontier

/-!
# Adding leaves to an exit tree

The siblings of an exit tree are a frontier of the leaves added so far.  The
loop of `addLeaf` climbs the path of the new leaf through the full tree of the
extended leaf list, collects the nodes of that path, and repairs the frontier
at the lowest clear bit of the count.  The stored root is therefore the root
of the zero-padded full tree, for every hash function.
-/

namespace BridgeService

open PaddedTree List

namespace MerkleTree

variable {σ H : Type} [Externals H]

/-- A tree that holds the frontier of a list of leaves. -/
structure Represents (height : Nat) (leaves : List H)
    (mt : MerkleTree H) : Prop where
  height_eq : mt.height = height
  count_eq : mt.count = leaves.length
  siblings_length : mt.siblings.length = height
  frontier : Frontier hash (padded hashZero leaves) height leaves.length
    fun level => mt.siblings.getD level hashZero

def pathNode (leaves : List H) (index level : Nat) : H × H × H :=
  (treeNode leaves (level + 1) (index / 2 ^ (level + 1)),
    treeNode leaves level (2 * (index / 2 ^ (level + 1))),
    treeNode leaves level (2 * (index / 2 ^ (level + 1)) + 1))

structure PathBelow (mt : MerkleTree H) (leaves : List H) (index h : Nat)
    (path : LeafPath H) : Prop where
  cur : path.cur = treeNode leaves h (index / 2 ^ h)
  filled : path.isFilledSubTree = true ↔ Filled index h
  length : path.siblings.length = mt.siblings.length
  stored : ∀ level, level < h → Filled index level →
    index.testBit level = false →
    path.siblings.getD level hashZero =
      treeNode leaves level (index / 2 ^ level)
  kept : ∀ level, h ≤ level ∨ ¬Filled index level →
    path.siblings.getD level hashZero = mt.siblings.getD level hashZero
  nodes : path.leaves = (List.range h).map (pathNode leaves index)

private theorem getD_set_eq {items : List H} {position : Nat} {item : H}
    (inside : position < items.length) :
    (items.set position item).getD position hashZero = item := by
  simp [getD_eq_getElem?_getD, inside]

private theorem getD_set_ne {items : List H} {position other : Nat} {item : H}
    (different : position ≠ other) :
    (items.set position item).getD other hashZero =
      items.getD other hashZero := by
  simp [getD_eq_getElem?_getD, getElem?_set_ne different]

section Loop

variable {mt : MerkleTree H} {leaves : List H} {leaf : H} {height : Nat}

private theorem pathBelow_zero :
    PathBelow mt (leaves ++ [leaf]) leaves.length 0
      { cur := leaf
        isFilledSubTree := true
        siblings := mt.siblings
        leaves := [] } where
  cur := by simp [treeNode]
  filled := by simp [filled_zero]
  length := rfl
  stored := by
    intro level below
    omega
  kept := by
    intro level _
    rfl
  nodes := rfl

variable {h : Nat}

section

variable (represents : mt.Represents height leaves)

include represents

private theorem pathBelow_set {path : LeafPath H} (below : h < height)
    (climbed : PathBelow mt (leaves ++ [leaf]) leaves.length h path)
    (set : leaves.length.testBit h = true) :
    PathBelow mt (leaves ++ [leaf]) leaves.length (h + 1)
      (addLeafLevel leaves.length path h) := by
  have position := position_of_set set
  have sibling : path.siblings.getD h hashZero =
      treeNode (leaves ++ [leaf]) h (2 * (leaves.length / 2 ^ (h + 1))) := by
    rw [climbed.kept h (.inl (Nat.le_refl h))]
    apply represents.frontier.congr _ h below set
    intro index inside
    exact (padded_append_left inside).symm
  have parent : hash (path.siblings.getD h hashZero) path.cur =
      treeNode (leaves ++ [leaf]) (h + 1) (leaves.length / 2 ^ (h + 1)) := by
    rw [sibling, climbed.cur, position, treeNode_succ]
  have bit : leaves.length &&& (1 <<< h) > 0 := (mask_pos_iff _ _).mpr set
  rw [addLeafLevel, if_pos bit]
  constructor
  · exact parent
  · rw [filled_succ_iff]
    simp [climbed.filled, set]
  · exact climbed.length
  · intro level inside filled clear
    by_cases here : level = h
    · subst level
      simp [set] at clear
    · exact climbed.stored level (by omega) filled clear
  · intro level outside
    apply climbed.kept
    rcases outside with above | notFilled
    · exact .inl (by omega)
    · exact .inr notFilled
  · rw [range_succ, map_append, ← climbed.nodes]
    simp only [map_cons, map_nil, pathNode]
    rw [parent, sibling, climbed.cur, position]

private theorem pathBelow_clear {path : LeafPath H} (below : h < height)
    (small : height ≤ 64)
    (climbed : PathBelow mt (leaves ++ [leaf]) leaves.length h path)
    (clear : leaves.length.testBit h = false) :
    PathBelow mt (leaves ++ [leaf]) leaves.length (h + 1)
      (addLeafLevel leaves.length path h) := by
  have position := position_of_clear clear
  have vacant : treeNode (leaves ++ [leaf]) h
      (2 * (leaves.length / 2 ^ (h + 1)) + 1) = zeroHashes h := by
    apply treeNode_eq_zeroHashes (by omega)
    have reached : leaves.length < (leaves.length / 2 ^ h + 1) * 2 ^ h := by
      rw [Nat.mul_comm]
      exact Nat.lt_mul_div_succ _ (Nat.two_pow_pos h)
    rw [position] at reached
    rw [length_append, length_singleton]
    exact reached
  have parent : hash path.cur (zeroHashes h) =
      treeNode (leaves ++ [leaf]) (h + 1) (leaves.length / 2 ^ (h + 1)) := by
    rw [climbed.cur, treeNode_succ, vacant, position]
  have bit : ¬leaves.length &&& (1 <<< h) > 0 := by
    rw [gt_iff_lt, mask_pos_iff, clear]
    simp
  have notFilled : ¬Filled leaves.length (h + 1) := by
    rw [filled_succ_iff, clear]
    simp
  have inside : h < path.siblings.length := by
    rw [climbed.length, represents.siblings_length]
    exact below
  rw [addLeafLevel, if_neg bit]
  constructor
  · exact parent
  · simp [notFilled]
  · by_cases filled : path.isFilledSubTree = true
    · simp [filled, climbed.length]
    · simp [filled, climbed.length]
  · intro level levelBelow filled levelClear
    by_cases here : level = h
    · subst level
      rw [if_pos (climbed.filled.mpr filled), getD_set_eq inside]
      exact climbed.cur
    · have kept := climbed.stored level (by omega) filled levelClear
      by_cases flag : path.isFilledSubTree = true
      · rw [if_pos flag, getD_set_ne (by omega)]
        exact kept
      · rw [if_neg flag]
        exact kept
  · intro level outside
    by_cases flag : path.isFilledSubTree = true
    · have different : h ≠ level := by
        rcases outside with above | unfilled
        · omega
        · intro here
          subst level
          exact unfilled (climbed.filled.mp flag)
      rw [if_pos flag, getD_set_ne different]
      apply climbed.kept
      rcases outside with above | unfilled
      · exact .inl (by omega)
      · exact .inr unfilled
    · rw [if_neg flag]
      apply climbed.kept
      rcases outside with above | unfilled
      · exact .inl (by omega)
      · exact .inr unfilled
  · rw [range_succ, map_append, ← climbed.nodes]
    simp only [map_cons, map_nil, pathNode]
    rw [parent, climbed.cur, position, vacant]

private theorem pathBelow_fold (small : height ≤ 64) (below : h ≤ height) :
    PathBelow mt (leaves ++ [leaf]) leaves.length h
      ((List.range h).foldl (addLeafLevel leaves.length)
        { cur := leaf
          isFilledSubTree := true
          siblings := mt.siblings
          leaves := [] }) := by
  induction h with
  | zero => exact pathBelow_zero
  | succ h induction =>
    have climbed := induction (by omega)
    rw [range_succ, foldl_append]
    cases bit : leaves.length.testBit h with
    | true => exact pathBelow_set represents below climbed bit
    | false => exact pathBelow_clear represents below small climbed bit

theorem addLeafPath_spec (small : height ≤ 64) :
    PathBelow mt (leaves ++ [leaf]) leaves.length height
      (addLeafPath mt leaf leaves.length) := by
  rw [addLeafPath, represents.height_eq]
  exact pathBelow_fold represents small (Nat.le_refl height)

theorem addLeafPath_cur (small : height ≤ 64)
    (room : leaves.length < 2 ^ height) :
    (addLeafPath mt leaf leaves.length).cur =
      treeRoot height (leaves ++ [leaf]) := by
  rw [(addLeafPath_spec represents small).cur, Nat.div_eq_of_lt room,
    treeRoot_eq_treeNode]

theorem Represents.push (small : height ≤ 64)
    (room : leaves.length + 1 < 2 ^ 32) :
    Represents height (leaves ++ [leaf])
      { mt with
        siblings := (addLeafPath mt leaf leaves.length).siblings
        count := (leaves.length + 1) % 2 ^ 32 } where
  height_eq := represents.height_eq
  count_eq := by
    rw [length_append, length_singleton]
    exact Nat.mod_eq_of_lt room
  siblings_length :=
    (addLeafPath_spec represents small).length.trans represents.siblings_length
  frontier := by
    have climbed : PathBelow mt (leaves ++ [leaf]) leaves.length height
        (addLeafPath mt leaf leaves.length) :=
      addLeafPath_spec represents small
    rw [length_append, length_singleton]
    apply represents.frontier.push
    · intro index inside
      exact (padded_append_left inside).symm
    · intro level below filled clear
      exact climbed.stored level below filled clear
    · intro level _ notFilled
      exact climbed.kept level (.inr notFilled)

end

end Loop

end MerkleTree

namespace MerkleTreeStore

variable {σ H : Type} [Externals H]

structure Accepting (store : MerkleTreeStore σ H) (dbTx : Querier) :
    Prop where
  setRoot : ∀ root depositID network state,
    ∃ next, store.setRoot root depositID network dbTx state = .ok () next
  bulkSet : ∀ rows state, ∃ next, store.bulkSet rows dbTx state = .ok () next

private def onState {α : Type} (call : EStateM Err σ α) :
    EStateM Err (σ × List H) α := fun (state, roots) =>
  match call state with
  | .ok value state => .ok value (state, roots)
  | .error err state => .error err (state, roots)

def recording (store : MerkleTreeStore σ H) :
    MerkleTreeStore (σ × List H) H where
  get key dbTx := onState (store.get key dbTx)
  bulkSet rows dbTx := onState (store.bulkSet rows dbTx)
  getRoot depositCount network dbTx :=
    onState (store.getRoot depositCount network dbTx)
  setRoot root depositID network dbTx := do
    onState (store.setRoot root depositID network dbTx)
    modify fun (state, roots) => (state, roots ++ [root])
  getLastDepositCount networkID dbTx :=
    onState (store.getLastDepositCount networkID dbTx)
  addRollupExitLeaves rows dbTx :=
    onState (store.addRollupExitLeaves rows dbTx)
  getLatestRollupExitLeaves dbTx :=
    onState (store.getLatestRollupExitLeaves dbTx)
  isRollupExitRoot root dbTx := onState (store.isRollupExitRoot root dbTx)

end MerkleTreeStore

namespace MerkleTree

variable {σ H : Type} [Externals H]

def addLeaves (store : MerkleTreeStore σ H) (dbTx : Querier) :
    (index : Nat) → List (Nat × H) → EStateM Err (MerkleTree H × σ) Unit
  | _, [] => pure ()
  | index, (depositID, leaf) :: rest => do
      addLeaf store depositID leaf index dbTx
      addLeaves store dbTx (index + 1) rest

def growingRoots (height : Nat) (leaves : List H) : List H → List H
  | [] => []
  | leaf :: rest =>
    treeRoot height (leaves ++ [leaf]) ::
      growingRoots height (leaves ++ [leaf]) rest

theorem growingRoots_eq (height : Nat) (leaves extra : List H) :
    growingRoots height leaves extra =
      (List.range extra.length).map fun k =>
        treeRoot height (leaves ++ extra.take (k + 1)) := by
  induction extra generalizing leaves with
  | nil => rfl
  | cons leaf rest induction =>
    rw [growingRoots, induction, length_cons, range_succ_eq_map,
      map_cons, map_map]
    simp [Function.comp_def, append_assoc]

variable {store : MerkleTreeStore σ H}

private theorem addLeaf_recording {dbTx : Querier}
    (accepting : store.Accepting dbTx) {height : Nat} {leaves : List H}
    {mt : MerkleTree H} (represents : mt.Represents height leaves)
    (small : height ≤ 32) (room : leaves.length + 1 < 2 ^ height)
    (depositID : Nat) (leaf : H) (state : σ) (roots : List H) :
    ∃ mt' state', addLeaf store.recording depositID leaf leaves.length dbTx
        (mt, (state, roots)) = .ok () (mt', (state',
            roots ++ [treeRoot height (leaves ++ [leaf])])) ∧
      mt'.Represents height (leaves ++ [leaf]) := by
  have limit : 2 ^ height ≤ 2 ^ 32 :=
    Nat.pow_le_pow_right (by omega) small
  have root : (addLeafPath mt leaf leaves.length).cur =
      treeRoot height (leaves ++ [leaf]) :=
    addLeafPath_cur represents (by omega) (by omega)
  obtain ⟨rooted, setRoot⟩ := accepting.setRoot
    (addLeafPath mt leaf leaves.length).cur depositID mt.networkID state
  obtain ⟨stored, bulkSet⟩ := accepting.bulkSet
    (pathRows depositID (addLeafPath mt leaf leaves.length)) rooted
  have recorded : store.recording.setRoot
      (addLeafPath mt leaf leaves.length).cur depositID mt.networkID dbTx
        (state, roots) =
      .ok () (rooted, roots ++ [treeRoot height (leaves ++ [leaf])]) := by
    rw [← root]
    simp only [MerkleTreeStore.recording, MerkleTreeStore.onState, bind,
      EStateM.bind, setRoot]
    rfl
  have nodes : ∀ written, store.recording.bulkSet
      (pathRows depositID (addLeafPath mt leaf leaves.length)) dbTx
        (rooted, written) = .ok () (stored, written) := by
    intro written
    simp only [MerkleTreeStore.recording, MerkleTreeStore.onState, bulkSet]
  have same : ¬leaves.length ≠ mt.count := by
    rw [represents.count_eq]
    simp
  refine ⟨_, stored, ?_, represents.push (by omega) (by omega)⟩
  rw [addLeaf_eq, if_neg same]
  simp only [recorded, nodes, represents.count_eq]

theorem addLeaves_recording {dbTx : Querier}
    (accepting : store.Accepting dbTx) {height : Nat} (small : height ≤ 32)
    (entries : List (Nat × H)) {leaves : List H} {mt : MerkleTree H}
    (represents : mt.Represents height leaves)
    (room : leaves.length + entries.length < 2 ^ height) (state : σ)
    (roots : List H) :
    ∃ mt' state', addLeaves store.recording dbTx leaves.length entries
        (mt, (state, roots)) = .ok () (mt', (state', roots ++
            growingRoots height leaves (entries.map Prod.snd))) ∧
      mt'.Represents height (leaves ++ entries.map Prod.snd) := by
  induction entries generalizing leaves mt state roots with
  | nil =>
    refine ⟨mt, state, ?_, ?_⟩
    · simp [addLeaves, growingRoots, pure, EStateM.pure]
    · simpa using represents
  | cons entry rest induction =>
    obtain ⟨depositID, leaf⟩ := entry
    rw [length_cons] at room
    obtain ⟨mt', state', added, pushed⟩ := addLeaf_recording accepting
      represents small (by omega) depositID leaf state roots
    obtain ⟨mt'', state'', others, final⟩ := induction pushed
      (by simp; omega) state' (roots ++ [treeRoot height (leaves ++ [leaf])])
    refine ⟨mt'', state'', ?_, ?_⟩
    · rw [length_append, length_singleton] at others
      simp only [addLeaves, bind, EStateM.bind, added, others]
      simp [growingRoots]
    · simpa using final

def emptyTree (height networkID : Nat) : MerkleTree H :=
  { networkID := networkID
    height := height
    count := 0
    siblings := (List.range height).map zeroHashes }

theorem emptyTree_represents (height networkID : Nat) :
    (emptyTree height networkID : MerkleTree H).Represents height [] where
  height_eq := rfl
  count_eq := rfl
  siblings_length := by simp [emptyTree]
  frontier := frontier_zero _ _ _

theorem newMerkleTree_empty {networkID : Nat} {state fresh : σ}
    (height : Nat)
    (empty : store.getLastDepositCount networkID .pool state =
      .error .storageNotFound fresh) :
    newMerkleTree store height networkID state =
      .ok (emptyTree height networkID) fresh := by
  simp only [newMerkleTree, lastCount, ErrorState.handle, initSiblings, bind,
    EStateM.bind, empty]
  rfl

/-- Leaves added one by one to a tree created over an empty store write the
roots of the zero-padded full trees, which are also the roots that
`buildMTRoot` computes from the whole lists. -/
theorem addLeaves_writes_full_tree_roots
    (store : MerkleTreeStore σ H) (dbTx : Querier)
    (accepting : store.Accepting dbTx)
    (height networkID : Nat) (low : 1 ≤ height) (high : height ≤ 32)
    (state fresh : σ)
    (empty : store.getLastDepositCount networkID .pool state =
      .error .storageNotFound fresh)
    (entries : List (Nat × H)) (fits : entries.length ≤ 2 ^ height - 1) :
    ∃ mt, newMerkleTree store height networkID state = .ok mt fresh ∧
      (∃ mt' state', addLeaves store.recording dbTx 0 entries
          (mt, (fresh, [])) =
        .ok () (mt', (state', (List.range entries.length).map fun k =>
          treeRoot height ((entries.map Prod.snd).take (k + 1))))) ∧
      (∀ k, k < entries.length →
        buildMTRoot height ((entries.map Prod.snd).take (k + 1)) =
          .ok (treeRoot height ((entries.map Prod.snd).take (k + 1)))) ∧
      ∀ level, level ≤ height → zeroHashes level = (treeRoot level [] : H) := by
  have positive := Nat.two_pow_pos height
  obtain ⟨mt', state', added, _⟩ := addLeaves_recording accepting high
    entries (emptyTree_represents height networkID) (by simp; omega) fresh []
  refine ⟨_, newMerkleTree_empty height empty, ⟨mt', state', ?_⟩, ?_, ?_⟩
  · simpa [growingRoots_eq] using added
  · intro k _
    apply buildMTRoot_eq_treeRoot low (by omega)
    simp only [length_take, length_map]
    omega
  · intro level below
    rw [zeroHashes_eq_emptyNode (by omega)]
    exact (root_nil hash hashZero level).symm

def discardingStore : MerkleTreeStore Unit Digest where
  get _ _ := throw .storageNotFound
  bulkSet _ _ := pure ()
  getRoot _ _ _ := throw .storageNotFound
  setRoot _ _ _ _ := pure ()
  getLastDepositCount _ _ := throw .storageNotFound
  addRollupExitLeaves _ _ := pure ()
  getLatestRollupExitLeaves _ := pure []
  isRollupExitRoot _ _ := pure false

theorem discardingStore_three_leaves :
    ∃ mt' state', addLeaves discardingStore.recording .tx 0
        [(1, .bytes [1]), (2, .bytes [2]), (3, .bytes [3])]
        (emptyTree 2 0, ((), [])) =
      .ok () (mt', (state', [.node (.node (.bytes [1]) (.zero 0)) (.zero 1),
          .node (.node (.bytes [1]) (.bytes [2])) (.zero 1),
          .node (.node (.bytes [1]) (.bytes [2]))
            (.node (.bytes [3]) (.zero 0))])) := by
  obtain ⟨mt, created, added, _⟩ := addLeaves_writes_full_tree_roots
    discardingStore .tx ⟨fun _ _ _ _ => ⟨(), rfl⟩, fun _ _ => ⟨(), rfl⟩⟩
    2 0 (by decide) (by decide) () () rfl
    [(1, .bytes [1]), (2, .bytes [2]), (3, .bytes [3])] (by decide)
  have tree : emptyTree 2 0 = mt := by
    rw [newMerkleTree_empty 2 rfl] at created
    exact (EStateM.Result.ok.inj created).1
  rw [tree]
  exact added

end MerkleTree

end BridgeService
