import BridgeService.Bridgectrl.Controller
import BridgeService.Storage.ExitTables
import BridgeService.Storage.Queries

/-!
# Exit trees read back from the database

The walk from the last root down to the last leaf meets the left children of
that path.  They differ from the siblings that the additions left behind, but
they agree with them at the set bits of the count, and only those entries are
ever used.
-/

namespace BridgeService

open PaddedTree Ledger ErrorState List

namespace MerkleTree

variable {H : Type} [DecidableEq H] [Externals H]

def leftPath (leaves : List H) (index h : Nat) : List H :=
  ((List.range h).map fun level =>
    treeNode leaves level (2 * (index / 2 ^ (level + 1)))).reverse

omit [DecidableEq H] in
theorem leftPath_succ (leaves : List H) (index h : Nat) :
    leftPath leaves index (h + 1) =
      treeNode leaves h (2 * (index / 2 ^ (h + 1))) ::
        leftPath leaves index h := by
  simp [leftPath, range_succ]

section Walk

variable {height : Nat} {t : Tables H} {base : World H} {dbTx : Querier}
  {network : Nat}

section

variable {index last : Nat} (tree : t.TreeTables height)
  (injective : Function.Injective2 (hash : H → H → H))
  (view : base.view dbTx = some t)
  (inside : last < (t.leavesOf network).length) (older : index ≤ last)

include tree injective view inside older

private theorem getAtHeight_triple {h : Nat} (below : h < height) :
    Triple base.Ticked
      (getAtHeight Storage.merkleTreeStore dbTx h
        (treeNode ((t.leavesOf network).take (last + 1)) (h + 1)
          (index / 2 ^ (h + 1))))
      (fun value w => base.Ticked w ∧
        value = (pathNode ((t.leavesOf network).take (last + 1)) index h).2)
      (fun _ w => base.Ticked w ∧ base.Faulty .get dbTx) := by
  have stored := tree.get_eq injective inside older below
  apply Triple.handle
  · apply (Storage.query_triple _ view).weaken
    · rintro value w ⟨ticked, answer⟩
      rw [stored] at answer
      exact ⟨ticked, (Except.ok.inj answer).symm⟩
    · rintro err w ⟨ticked, failed⟩
      rw [stored] at failed
      rcases failed with impossible | ⟨_, faulty⟩
      · contradiction
      · exact (⟨ticked, faulty⟩ : base.Ticked w ∧ base.Faulty .get dbTx)
  · intro err
    apply Triple.throw
    intro w failed
    exact failed

theorem leftChildren_triple {h : Nat} (below : h ≤ height) :
    Triple base.Ticked
      (leftChildren Storage.merkleTreeStore dbTx index h
        (treeNode ((t.leavesOf network).take (last + 1)) h (index / 2 ^ h)))
      (fun children w => base.Ticked w ∧
        children = leftPath ((t.leavesOf network).take (last + 1)) index h)
      (fun _ w => base.Ticked w ∧ base.Faulty .get dbTx) := by
  induction h with
  | zero => exact .pure fun w ticked => ⟨ticked, rfl⟩
  | succ h induction =>
    have lower := induction (by omega)
    apply Triple.bind
      (getAtHeight_triple tree injective view inside older below)
    intro value
    have next : value =
        (pathNode ((t.leavesOf network).take (last + 1)) index h).2 →
        (if index &&& (1 <<< h) > 0 then value.2 else value.1) =
          treeNode ((t.leavesOf network).take (last + 1)) h
            (index / 2 ^ h) := by
      rintro rfl
      by_cases set : index.testBit h = true
      · rw [if_pos ((mask_pos_iff index h).mpr set), position_of_set set]
        rfl
      · have clear : index.testBit h = false := by simpa using set
        rw [if_neg (fun bit => set ((mask_pos_iff index h).mp bit)),
          position_of_clear clear]
        rfl
    intro w ⟨ticked, valueEq⟩
    rw [next valueEq]
    refine (Triple.bind lower fun children => .pure ?_) w ticked
    rintro w ⟨ticked, childrenEq⟩
    refine ⟨ticked, ?_⟩
    rw [leftPath_succ, childrenEq, valueEq]
    rfl

end

end Walk

section Siblings

variable {height : Nat} {t : Tables H} {base : World H} {dbTx : Querier}

omit [DecidableEq H] in
private theorem represents_leftPath {mt : MerkleTree H} {leaves : List H}
    (sameHeight : mt.height = height) (count : mt.count = leaves.length)
    (positive : 0 < leaves.length) :
    Represents height leaves
      { mt with
        siblings := (leftPath leaves (leaves.length - 1) height).reverse } where
  height_eq := sameHeight
  count_eq := count
  siblings_length := by simp [leftPath]
  frontier := by
    have last : leaves.length = leaves.length - 1 + 1 := by omega
    have left : Frontier hash (padded hashZero leaves) height
        (leaves.length - 1 + 1) fun level =>
          ((leftPath leaves (leaves.length - 1) height).reverse).getD level
            hashZero := by
      apply frontier_of_left_children
      intro level below
      simp [leftPath, getD_eq_getElem?_getD, below]
      rfl
    rw [← last] at left
    exact left

theorem getRoot_triple (tree : t.TreeTables height) (small : height ≤ 64)
    (view : base.view dbTx = some t) {mt : MerkleTree H}
    (sameHeight : mt.height = height) :
    Triple base.Ticked (getRoot Storage.merkleTreeStore mt dbTx)
      (fun root w => base.Ticked w ∧
        mt.count ≤ (t.leavesOf mt.networkID).length ∧
        root = treeRoot height ((t.leavesOf mt.networkID).take mt.count))
      (fun _ w => base.Ticked w ∧
        ((t.leavesOf mt.networkID).length < mt.count ∨
          base.Faulty .getRoot dbTx)) := by
  rw [getRoot]
  apply Triple.ite
  · intro empty
    apply Triple.pure
    intro w ticked
    refine ⟨ticked, by omega, ?_⟩
    rw [empty, take_zero, sameHeight, zeroHashes_eq_emptyNode small]
    exact (root_nil hash hashZero height).symm
  · intro nonempty
    have answered : Triple base.Ticked
        (Storage.getRoot (mt.count - 1) mt.networkID dbTx) _ _ :=
      Storage.query_triple _ view
    apply answered.weaken
    · rintro root w ⟨ticked, answer⟩
      by_cases stored : mt.count ≤ (t.leavesOf mt.networkID).length
      · rw [tree.getRoot_eq (by omega), Except.ok.injEq,
          Nat.sub_add_cancel (by omega)] at answer
        exact ⟨ticked, stored, answer.symm⟩
      · rw [tree.getRoot_notFound (by omega)] at answer
        contradiction
    · rintro err w ⟨ticked, failed⟩
      refine ⟨ticked, ?_⟩
      rcases failed with missing | ⟨_, faulty⟩
      · left
        by_contra stored
        rw [tree.getRoot_eq (by omega)] at missing
        contradiction
      · exact .inr faulty

theorem initSiblings_triple (tree : t.TreeTables height)
    (small : height ≤ 64)
    (injective : Function.Injective2 (hash : H → H → H))
    (view : base.view dbTx = some t) (mt : MerkleTree H)
    (sameHeight : mt.height = height)
    (fits : (t.leavesOf mt.networkID).length ≤ 2 ^ height) :
    Triple base.Ticked (initSiblings Storage.merkleTreeStore mt dbTx)
      (fun siblings w => base.Ticked w ∧
        mt.count ≤ (t.leavesOf mt.networkID).length ∧
        Represents height ((t.leavesOf mt.networkID).take mt.count)
          { mt with siblings := siblings })
      (fun _ w => base.Ticked w ∧
        ((t.leavesOf mt.networkID).length < mt.count ∨
          base.Faulty .getRoot dbTx ∨ base.Faulty .get dbTx)) := by
  rw [initSiblings]
  apply Triple.ite
  · intro empty
    apply Triple.pure
    intro w ticked
    refine ⟨ticked, by omega, ?_⟩
    constructor
    · exact sameHeight
    · simp [empty]
    · simp [sameHeight]
    · rw [empty]
      exact frontier_zero _ _ _
  · intro nonempty
    apply Triple.bind
    · apply (getRoot_triple tree small view sameHeight).weaken
      · intro root w result
        exact result
      · rintro err w ⟨ticked, missing | faulty⟩
        · exact ⟨ticked, .inl missing⟩
        · exact ⟨ticked, .inr (.inl faulty)⟩
    · rintro root w ⟨ticked, stored, rootEq⟩
      have inside : mt.count - 1 < (t.leavesOf mt.networkID).length := by
        omega
      have top : (mt.count - 1) / 2 ^ height = 0 :=
        Nat.div_eq_of_lt (by omega)
      have walk := leftChildren_triple tree injective view inside
        le_rfl (Nat.le_refl height)
      rw [top, ← treeRoot_eq_treeNode, Nat.sub_add_cancel (by omega),
        ← rootEq, ← sameHeight] at walk
      refine (Triple.bind (walk.onError ?_) fun children => .pure ?_)
          w ticked
      · rintro err w ⟨ticked, faulty⟩
        exact ⟨ticked, .inr (.inr faulty)⟩
      · rintro w ⟨ticked, rfl⟩
        refine ⟨ticked, stored, ?_⟩
        have length : ((t.leavesOf mt.networkID).take mt.count).length =
            mt.count := by
          rw [length_take]
          omega
        have represents := represents_leftPath sameHeight length.symm
          (by omega)
        rw [length] at represents
        simpa only [sameHeight] using represents

end Siblings

section Methods

variable {height : Nat} {t : Tables H} {base : World H}

omit [DecidableEq H] [Externals H] in
theorem onStore_triple {α : Type} {before : World H → Prop}
    {call : EStateM Err (World H) α} {after : α → World H → Prop}
    {failed : Err → World H → Prop} (mt : MerkleTree H)
    (triple : Triple before call after failed) :
    Triple (fun state => state.1 = mt ∧ before state.2) (onStore call)
      (fun value state => state.1 = mt ∧ after value state.2)
      (fun err state => state.1 = mt ∧ failed err state.2) := by
  rintro ⟨_, w⟩ ⟨rfl, start⟩
  rw [onStore]
  cases ran : call w with
  | ok value next => exact ⟨rfl, triple.ok start ran⟩
  | error err next => exact ⟨rfl, triple.error start ran⟩

variable {networkID : Nat}

/-- The number of leaves that is read.  A read that fails is taken for the
first deposit. -/
def readCount (w : World H) (networkID : Nat) : Nat :=
  if w.fault w.tick .getLastDepositCount .pool then 1
  else (w.committed.leavesOf networkID).length

theorem lastCount_eq {w : World H} (tree : w.committed.TreeTables height)
    (fits : (w.committed.leavesOf networkID).length < 2 ^ 32) :
    lastCount Storage.merkleTreeStore networkID w =
      .ok (readCount w networkID) w.advance := by
  have counted : Storage.merkleTreeStore.getLastDepositCount networkID .pool
      w = handle (Storage.query .getLastDepositCount .pool fun t =>
        t.getLastDepositCount networkID) _ w := rfl
  rw [handle] at counted
  rw [lastCount, handle, readCount]
  cases fault : w.fault w.tick .getLastDepositCount .pool with
  | true =>
    rw [Storage.query, Storage.exec_faulty fault] at counted
    rw [bind_of_ok counted]
    rfl
  | false =>
    rw [Storage.query, Storage.exec_view fault rfl] at counted
    by_cases empty : w.committed.leavesOf networkID = []
    · rw [tree.getLastDepositCount_empty empty] at counted
      rw [bind_of_error counted, empty]
      rfl
    · rw [tree.getLastDepositCount_eq empty] at counted
      have positive := length_pos_iff.mpr empty
      rw [bind_of_ok counted, Nat.sub_add_cancel positive,
        Nat.mod_eq_of_lt fits]
      rfl

theorem lastCount_triple (tree : base.committed.TreeTables height)
    (fits : (base.committed.leavesOf networkID).length < 2 ^ 32) :
    Triple base.Ticked (lastCount Storage.merkleTreeStore networkID)
      (fun count w => base.Ticked w ∧ (base.QuietReads .pool →
        count = (base.committed.leavesOf networkID).length))
      (fun _ _ => False) := by
  rintro _ ⟨tick, rfl⟩
  rw [lastCount_eq (w := { base with tick := tick }) tree fits]
  refine ⟨⟨tick + 1, rfl⟩, fun quiet => if_neg fun fault => ?_⟩
  exact quiet.getLastDepositCount ⟨tick, fault⟩

def Held (base : World H) (height networkID : Nat)
    (state : MerkleTree H × World H) : Prop :=
  state.1.height = height ∧ state.1.networkID = networkID ∧ base.Ticked state.2

section

variable {dbTx : Querier} (tree : t.TreeTables height) (small : height ≤ 64)
  (injective : Function.Injective2 (hash : H → H → H))
  (view : base.view dbTx = some t)
  (fits : (t.leavesOf networkID).length ≤ 2 ^ height)

include tree small injective view fits

theorem refreshSiblings_triple (count : Nat) :
    Triple
      (fun state => Held base height networkID state ∧ state.1.count = count)
      (refreshSiblings Storage.merkleTreeStore dbTx)
      (fun _ state => Held base height networkID state ∧
        count ≤ (t.leavesOf networkID).length ∧
        state.1.Represents height ((t.leavesOf networkID).take count))
      (fun _ state => Held base height networkID state ∧
        ((t.leavesOf networkID).length < count ∨
          base.Faulty .getRoot dbTx ∨ base.Faulty .get dbTx)) := by
  rintro ⟨mt, w⟩ ⟨⟨sameHeight, rfl, ticked⟩, rfl⟩
  have siblings :=
    initSiblings_triple tree small injective view mt sameHeight fits w ticked
  rw [refreshSiblings]
  cases ran : initSiblings Storage.merkleTreeStore mt dbTx w with
  | ok rebuilt next =>
    rw [ran] at siblings
    exact ⟨⟨sameHeight, rfl, siblings.1⟩, siblings.2⟩
  | error err next =>
    rw [ran] at siblings
    exact ⟨⟨sameHeight, rfl, siblings.1⟩, siblings.2⟩

theorem resetLeaf_triple (depositCount : Nat) :
    Triple (Held base height networkID)
      (resetLeaf Storage.merkleTreeStore depositCount dbTx)
      (fun _ state => Held base height networkID state ∧
        depositCount ≤ (t.leavesOf networkID).length ∧
        state.1.Represents height ((t.leavesOf networkID).take depositCount))
      (fun _ state => Held base height networkID state ∧
        ((t.leavesOf networkID).length < depositCount ∨
          base.Faulty .getRoot dbTx ∨ base.Faulty .get dbTx)) := by
  rintro ⟨mt, w⟩ held
  exact refreshSiblings_triple tree small injective view fits depositCount
    ({ mt with count := depositCount }, w) ⟨held, rfl⟩

end

section

variable (tree : base.committed.TreeTables height) (small : height ≤ 32)
  (injective : Function.Injective2 (hash : H → H → H))
  (fits : (base.committed.leavesOf networkID).length < 2 ^ height)

include tree small injective fits

theorem rollbackMT_triple :
    Triple (Held base height networkID)
      (rollbackMT Storage.merkleTreeStore networkID .pool)
      (fun _ state => Held base height networkID state ∧
        (base.QuietReads .pool →
        state.1.Represents height (base.committed.leavesOf networkID)))
      (fun _ state => Held base height networkID state ∧
        ¬base.QuietReads .pool) := by
  have limit : 2 ^ height ≤ 2 ^ 32 :=
    Nat.pow_le_pow_right (by omega) small
  rintro ⟨mt, w⟩ ⟨sameHeight, sameNetwork, ticked⟩
  refine (Triple.bind ((onStore_triple mt (lastCount_triple tree
    (by omega))).onError ?_) fun count => ?_) (mt, w) ⟨rfl, ticked⟩
  · rintro err state ⟨_, impossible⟩
    exact impossible.elim
  · rintro ⟨current, w⟩ ⟨rfl, ticked, counted⟩
    refine (resetLeaf_triple tree (by omega) injective
      (show base.view .pool = some base.committed from rfl)
      (by omega) count).weaken ?_ ?_ (current, w)
        ⟨sameHeight, sameNetwork, ticked⟩
    · rintro _ state ⟨held, _, represents⟩
      refine ⟨held, fun quiet => ?_⟩
      rw [counted quiet, take_length] at represents
      exact represents
    · rintro err state ⟨held, failed⟩
      refine ⟨held, fun quiet => ?_⟩
      rcases failed with missing | faulty | faulty
      · have := counted quiet
        omega
      · exact quiet.getRoot faulty
      · exact quiet.get faulty

theorem newMerkleTree_triple :
    Triple base.Ticked
      (newMerkleTree Storage.merkleTreeStore height networkID)
      (fun mt w => base.Ticked w ∧ mt.networkID = networkID ∧
        mt.height = height ∧ (base.QuietReads .pool →
          mt.Represents height (base.committed.leavesOf networkID)))
      (fun _ w => base.Ticked w ∧ ¬base.QuietReads .pool) := by
  have limit : 2 ^ height ≤ 2 ^ 32 :=
    Nat.pow_le_pow_right (by omega) small
  refine .bind
    ((lastCount_triple tree (by omega)).onError
      fun _ _ impossible => impossible.elim) fun count => ?_
  rintro w ⟨ticked, counted⟩
  refine (Triple.bind ((initSiblings_triple tree (by omega) injective
    (show base.view .pool = some base.committed from rfl)
    { networkID := networkID
      height := height
      count := count
      siblings := [] } rfl (by simp only; omega)).onError ?_)
          fun siblings => .pure ?_) w ticked
  · rintro err w ⟨ticked, failed⟩
    refine ⟨ticked, fun quiet => ?_⟩
    rcases failed with missing | faulty | faulty
    · have := counted quiet
      simp only at missing
      omega
    · exact quiet.getRoot faulty
    · exact quiet.get faulty
  · rintro w ⟨ticked, _, represents⟩
    refine ⟨ticked, rfl, rfl, fun quiet => ?_⟩
    simp only at represents
    rw [counted quiet, take_length] at represents
    rw [counted quiet]
    exact represents

end

end Methods

end MerkleTree

end BridgeService
