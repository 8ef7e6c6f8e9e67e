import BridgeService.Bridgectrl.Recovery

/-!
# Failed reads during the recovery of a tree

A tree that is rebuilt from the store starts with the count of the last
deposit.  A read of this count that fails is taken for the count zero, and the
tree that is built is the one of the first leaf.  A read of the root or of a
node that fails is reported.
-/

namespace BridgeService

open ErrorState

namespace MerkleTree

variable {H : Type} {height networkID : Nat} {w : World H}

/-- The first read succeeds, or there is one deposit. -/
def CountRead (networkID : Nat) (w : World H) [Externals H] : Prop :=
  w.fault w.tick .getLastDepositCount .pool = false ∨
    (w.committed.leavesOf networkID).length = 1

variable [DecidableEq H] [Externals H]

omit [DecidableEq H] in
private theorem represents_iff {mt : MerkleTree H}
    (enough : readCount w networkID ≤ (w.committed.leavesOf networkID).length)
    (represents : mt.Represents height
      ((w.committed.leavesOf networkID).take (readCount w networkID))) :
    mt.Represents height (w.committed.leavesOf networkID) ↔
      CountRead networkID w := by
  constructor
  · intro whole
    have length := represents.count_eq.symm.trans whole.count_eq
    rw [List.length_take, Nat.min_eq_left enough, readCount] at length
    cases fault : w.fault w.tick .getLastDepositCount .pool with
    | false => exact .inl fault
    | true =>
      rw [fault] at length
      exact .inr length.symm
  · intro read
    have all : readCount w networkID =
        (w.committed.leavesOf networkID).length := by
      rcases read with works | one
      · rw [readCount, works]
        rfl
      · rw [readCount, one, ite_self]
    rw [all, List.take_length] at represents
    exact represents

/-- A tree that is rebuilt without an error is the committed one exactly if the
read of the count succeeds, or there is one deposit. -/
theorem recovered_tree_iff (injective : Function.Injective2 (hash : H → H → H))
    (small : height ≤ 32) (tree : w.committed.TreeTables height)
    (fits : (w.committed.leavesOf networkID).length < 2 ^ height) :
    (∀ mt w', newMerkleTree Storage.merkleTreeStore height networkID w =
        .ok mt w' →
      (mt.Represents height (w.committed.leavesOf networkID) ↔
        CountRead networkID w)) ∧
      ∀ mt mt' w', mt.height = height → mt.networkID = networkID →
        rollbackMT Storage.merkleTreeStore networkID .pool (mt, w) =
          .ok () (mt', w') →
        (mt'.Represents height (w.committed.leavesOf networkID) ↔
          CountRead networkID w) := by
  have limit : 2 ^ height ≤ 2 ^ 32 :=
    Nat.pow_le_pow_right (by omega) small
  have advanced : w.Ticked w.advance := ⟨w.tick + 1, rfl⟩
  have view : w.view .pool = some w.committed := rfl
  have counts : lastCount Storage.merkleTreeStore networkID w =
      .ok (readCount w networkID) w.advance := lastCount_eq tree (by omega)
  constructor
  · intro mt w' ran
    rw [newMerkleTree, bind_of_ok counts] at ran
    obtain ⟨siblings, next, built, rest⟩ := bind_ok ran
    cases rest
    obtain ⟨_, enough, represents⟩ := (initSiblings_triple tree (by omega)
      injective view _ rfl (Nat.le_of_lt fits)).ok advanced built
    exact represents_iff enough represents
  · intro mt mt' w' sameHeight network ran
    have counted : onStore (lastCount Storage.merkleTreeStore networkID)
        (mt, w) = .ok (readCount w networkID) (mt, w.advance) := by
      rw [onStore, counts]
    rw [rollbackMT, bind_of_ok counted] at ran
    obtain ⟨_, enough, represents⟩ := (resetLeaf_triple tree (by omega)
      injective view (Nat.le_of_lt fits) (readCount w networkID)).ok
        ⟨sameHeight, network, advanced⟩ ran
    exact represents_iff enough represents

end MerkleTree

theorem failed_count_taken_for_one :
    ∃ w mt w', Addition.runAll .pool sampleAdditions (World.start 2 [1]) =
        .ok () w ∧
      MerkleTree.newMerkleTree Storage.merkleTreeStore 2 1
        { w with fault := fun _ call _ => call = .getLastDepositCount } =
          .ok mt w' ∧
      mt.count = 1 ∧ (w.committed.leavesOf 1).length = 2 := by
  have returned : returns (Addition.runAll .pool sampleAdditions)
      (fun _ w => returns
        (MerkleTree.newMerkleTree Storage.merkleTreeStore 2 1)
        (fun mt _ => mt.count = 1 ∧ (w.committed.leavesOf 1).length = 2)
        { w with fault := fun _ call _ => call = .getLastDepositCount })
      (World.start 2 [1]) = true := by
    decide +kernel
  obtain ⟨_, w, ran, returned⟩ := exists_of_returns returned
  obtain ⟨mt, w', rebuilt, counts⟩ := exists_of_returns returned
  exact ⟨w, mt, w', ran, rebuilt, of_decide_eq_true counts⟩

theorem count_read_sample :
    ∃ w mt w', Addition.runAll .pool sampleAdditions (World.start 2 [1]) =
        .ok () w ∧
      MerkleTree.newMerkleTree Storage.merkleTreeStore 2 1 w = .ok mt w' ∧
      mt.Represents 2 (w.committed.leavesOf 1) := by
  have returned : returns (Addition.runAll .pool sampleAdditions)
      (fun _ w => returns
        (MerkleTree.newMerkleTree Storage.merkleTreeStore 2 1)
        (fun _ _ => w.fault w.tick .getLastDepositCount .pool = false) w)
      (World.start 2 [1]) = true := by
    decide +kernel
  obtain ⟨_, w, ran, returned⟩ := exists_of_returns returned
  obtain ⟨mt, w', rebuilt, works⟩ := exists_of_returns returned
  have consistent := (Addition.runAll_consistent (by decide) sampleAdditions
    sampleAdditions_below (World.start_initial 2 [1]).consistent ran).1
  exact ⟨w, mt, w', ran, rebuilt, ((MerkleTree.recovered_tree_iff
    Digest.hash_injective (by decide) consistent.tables
    (consistent.capacity 1)).1 mt w' rebuilt).mpr
      (.inl (of_decide_eq_true works))⟩

end BridgeService
