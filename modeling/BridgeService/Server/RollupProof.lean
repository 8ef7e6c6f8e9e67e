import BridgeService.Server.Walk
import BridgeService.Synchronizer.RollupRun

/-!
# Proofs in the rollup exit tree

The proof of a rollup is computed from the stored version of the rollup exit
tree with the given root.  It exists for every stored root and every rollup of
that version, and it leads from the leaf of the rollup to the root.
-/

namespace BridgeService

open ErrorState PaddedTree List

variable {H : Type} [DecidableEq H] [Externals H]

namespace BridgeServer

variable {base : World H} {dbTx : Querier} {t : Tables H} {height : Nat}
  {versions : List (Version H)}

theorem rollupProofOf_outside {leaves : List H} {rollupIndex : Nat}
    {root : H} (outside : leaves.length ≤ rollupIndex) :
    ∃ err, rollupProofOf height rollupIndex root leaves = .error err := by
  rw [rollupProofOf]
  cases computed : MerkleTree.computeSiblings rollupIndex leaves height with
  | error err => exact ⟨err, rfl⟩
  | ok result =>
    have none : leaves[rollupIndex]? = none := getElem?_eq_none outside
    by_cases same : root = result.2
    · by_cases empty : result.1.length = 0 ∨ leaves.length = 0
      · refine ⟨.noRollupLeaves, ?_⟩
        simp only [bind, Except.bind, same, ne_eq, not_true_eq_false,
          if_false, empty, if_true]
        rfl
      · refine ⟨.rollupLeafNotSynced, ?_⟩
        simp only [bind, Except.bind, same, ne_eq, not_true_eq_false,
          if_false, empty, none]
        rfl
    · refine ⟨.rootMismatch, ?_⟩
      simp only [bind, Except.bind, same, ne_eq, not_false_eq_true, if_true]
      rfl

theorem rollupProofOf_eq {leaves : List H} {rollupIndex : Nat}
    (positive : 0 < height) (small : height ≤ 64)
    (fits : leaves.length ≤ 2 ^ height) {leaf : H}
    (found : leaves[rollupIndex]? = some leaf) :
    ∃ siblings, rollupProofOf height rollupIndex (treeRoot height leaves)
        leaves = .ok (siblings, leaf) ∧
      MerkleTree.calculateRoot leaf siblings rollupIndex height =
        treeRoot height leaves := by
  obtain ⟨inside, here⟩ := List.getElem?_eq_some_iff.mp found
  have bounded : rollupIndex < max leaves.length 1 := by omega
  have padding : padded hashZero leaves rollupIndex = leaf := by
    rw [padded_of_lt inside, here]
  refine ⟨(List.range height).map fun level =>
    treeNode leaves level (siblingPosition rollupIndex level), ?_, ?_⟩
  · have nonempty : ¬(((List.range height).map fun level =>
        treeNode leaves level (siblingPosition rollupIndex level)).length =
          0 ∨ leaves.length = 0) := by
      rw [length_map, length_range]
      omega
    rw [rollupProofOf,
      MerkleTree.computeSiblings_spec positive small bounded fits]
    simp only [bind, Except.bind, ne_eq, not_true_eq_false, if_false,
      nonempty, found]
    rfl
  · rw [← padding]
    apply MerkleTree.calculateRoot_own_siblings (by omega)
    intro level below
    simp [below]

theorem getRollupExitProof_triple (s : BridgeServer)
    (cached : NodeCache H → Prop) (sameHeight : s.height = height)
    (positive : 0 < height) (small : height ≤ 64)
    (valid : Versions height t.rollupExit versions)
    (view : base.view dbTx = some t) (rollupIndex : Nat) (root : H) :
    Triple (fun state => cached state.1 ∧ base.Ticked state.2)
      (s.getRollupExitProof rollupIndex root dbTx)
      (fun result state => (cached state.1 ∧ base.Ticked state.2) ∧
        (∃ version, version ∈ versions ∧ version.root height = root ∧
          version.leaves[rollupIndex]? = some result.2) ∧
        MerkleTree.calculateRoot result.2 result.1 rollupIndex height = root)
      (fun _ state => (cached state.1 ∧ base.Ticked state.2) ∧
        ((∀ version, version ∈ versions → version.root height = root →
          version.leaves.length ≤ rollupIndex) ∨
          base.Faulty .getRollupExitLeavesByRoot dbTx)) := by
  have read : Triple base.Ticked
      (Storage.getRollupExitLeavesByRoot root dbTx)
      (fun leaves w => base.Ticked w ∧
        t.getRollupExitLeavesByRoot root = leaves)
      (fun _ w => base.Ticked w ∧
        base.Faulty .getRollupExitLeavesByRoot dbTx) := by
    apply (Storage.query_triple _ view).weaken
    · exact fun _ _ result => ⟨result.1, Except.ok.inj result.2⟩
    · rintro _ _ ⟨ticked, failed | ⟨_, fault⟩⟩
      · contradiction
      · exact ⟨ticked, fault⟩
  have answered : Triple
      (fun state : NodeCache H × World H =>
        cached state.1 ∧ base.Ticked state.2)
      (onStorage (Storage.getRollupExitLeavesByRoot root dbTx))
      (fun leaves state => (cached state.1 ∧ base.Ticked state.2) ∧
        t.getRollupExitLeavesByRoot root = leaves)
      (fun _ state => (cached state.1 ∧ base.Ticked state.2) ∧
        ((∀ version, version ∈ versions → version.root height = root →
          version.leaves.length ≤ rollupIndex) ∨
          base.Faulty .getRollupExitLeavesByRoot dbTx)) := by
    apply (onStorage_triple cached read).weaken
    · exact fun _ _ result => ⟨⟨result.1, result.2.1⟩, result.2.2⟩
    · exact fun _ _ failed =>
        ⟨⟨failed.1, failed.2.1⟩, .inr failed.2.2⟩
  refine .bind answered fun leaves => ?_
  rintro state ⟨serves, rfl⟩
  rw [sameHeight]
  by_cases known : ∃ version, version ∈ versions ∧ version.root height = root
  · obtain ⟨version, mem, rfl⟩ := known
    have fits := (valid.complete version mem).2
    rw [valid.getRollupExitLeavesByRoot mem, Version.rows,
      snapshotRows_leaves]
    cases found : version.leaves[rollupIndex]? with
    | some leaf =>
      obtain ⟨siblings, computed, climbs⟩ :=
        rollupProofOf_eq positive small fits found
      rw [Version.root, computed]
      exact ⟨serves, ⟨version, mem, rfl, found⟩, climbs⟩
    | none =>
      have outside := getElem?_eq_none_iff.mp found
      have missing : ∃ err, rollupProofOf height rollupIndex
          (version.root height) version.leaves = .error err :=
        rollupProofOf_outside outside
      obtain ⟨err, failed⟩ := missing
      rw [failed]
      refine ⟨serves, .inl ?_⟩
      intro other otherIn same
      rw [valid.eq_of_root otherIn mem same]
      exact outside
  · have unknown : ∀ version, version ∈ versions →
        version.root height ≠ root :=
      fun version mem same => known ⟨version, mem, same⟩
    have missing : ∃ err, rollupProofOf height rollupIndex root
        ([] : List H) = .error err :=
      rollupProofOf_outside (Nat.zero_le rollupIndex)
    obtain ⟨err, failed⟩ := missing
    rw [valid.getRollupExitLeavesByRoot_unknown unknown, map_nil, failed]
    refine ⟨serves, .inl ?_⟩
    intro version mem same
    exact absurd same (unknown version mem)

end BridgeServer

/-- Every stored root of the rollup exit tree has the rows of exactly one
tree. -/
structure Tables.WholeRoots (height : Nat) (t : Tables H) : Prop where
  whole : ∀ root, t.isRollupExitRoot root = true →
    (∃ n, (t.getRollupExitLeavesByRoot root).map RollupExitLeaf.rollupId =
        List.range' 1 n) ∧
      MerkleTree.buildMTRoot height
          ((t.getRollupExitLeavesByRoot root).map RollupExitLeaf.leaf) =
        .ok root
  single : ∀ root rollupID, (t.rollupExitRows root rollupID).length ≤ 1
  distinct : ∀ root other, t.isRollupExitRoot root = true →
    t.isRollupExitRoot other = true →
    (t.getRollupExitLeavesByRoot root).map RollupExitLeaf.leaf =
        (t.getRollupExitLeavesByRoot other).map RollupExitLeaf.leaf →
      root = other

theorem Versions.wholeRoots {height : Nat} {t : Tables H}
    {versions : List (Version H)} (positive : 0 < height)
    (small : height ≤ 64)
    (valid : Versions height t.rollupExit versions) :
    t.WholeRoots height := by
  have leavesOf : ∀ {version : Version H}, version ∈ versions →
      (t.getRollupExitLeavesByRoot (version.root height)).map
        RollupExitLeaf.leaf = version.leaves := by
    intro version mem
    rw [valid.getRollupExitLeavesByRoot mem, Version.rows,
      snapshotRows_leaves]
  constructor
  · intro root stored
    obtain ⟨version, mem, rfl⟩ := valid.isRollupExitRoot_iff.mp stored
    constructor
    · refine ⟨version.leaves.length, ?_⟩
      rw [valid.getRollupExitLeavesByRoot mem, Version.rows,
        snapshotRows_rollupIds]
    · rw [leavesOf mem]
      exact MerkleTree.buildMTRoot_eq_treeRoot positive small
        (valid.complete version mem).2
  · exact valid.length_rollupExitRows
  · intro root other rootStored otherStored same
    obtain ⟨version, mem, rfl⟩ :=
      valid.isRollupExitRoot_iff.mp rootStored
    obtain ⟨version', mem', rfl⟩ :=
      valid.isRollupExitRoot_iff.mp otherStored
    rw [leavesOf mem, leavesOf mem'] at same
    rw [Version.root, Version.root, same]

/-- In every run of the rollup exit tree, whatever is committed, rolled back
or deleted by a reorganisation, every stored root is that of exactly one tree,
and every rollup of that tree has a proof. -/
theorem rollup_run_roots_have_proofs {height : Nat} {start w : World H}
    (positive : 0 < height) (small : height ≤ 64)
    (initial : start.RollupInitial height) (run : RollupRun start w)
    {dbTx : Querier} {t : Tables H} (view : w.view dbTx = some t) :
    t.WholeRoots height ∧
      ∀ (s : BridgeServer) (cache : NodeCache H) (root : H) (index : Nat),
        s.height = height →
        ¬start.Faulty .getRollupExitLeavesByRoot dbTx →
        t.isRollupExitRoot root = true →
        index < (t.getRollupExitLeavesByRoot root).length →
        ∃ siblings leaf cache' w',
          s.getRollupExitProof index root dbTx (cache, w) =
            .ok (siblings, leaf) (cache', w') ∧
          ((t.getRollupExitLeavesByRoot root)[index]?).map
            RollupExitLeaf.leaf = some leaf ∧
          MerkleTree.calculateRoot leaf siblings index height = root := by
  have versioned := run.versioned small initial.versioned
  have valid : ∃ versions, Versions height t.rollupExit versions := by
    cases dbTx with
    | pool =>
      rw [← Option.some.inj view]
      exact versioned.committed.versions
    | tx => exact (versioned.dbTx t view).versions
  obtain ⟨versions, valid⟩ := valid
  refine ⟨valid.wholeRoots positive small, ?_⟩
  intro s cache root index sameHeight quiet stored inside
  obtain ⟨version, mem, rfl⟩ := valid.isRollupExitRoot_iff.mp stored
  have rows := valid.getRollupExitLeavesByRoot mem
  have length : (t.getRollupExitLeavesByRoot
      (version.root height)).length = version.leaves.length := by
    rw [rows, Version.rows, snapshotRows, length_map, length_zipIdx]
  obtain ⟨result, state, ran, _, ⟨found, foundIn, same, leaf⟩, climbs⟩ :=
    (s.getRollupExitProof_triple (fun _ => True) sameHeight positive small
      valid view index (version.root height)).exists_ok (cache, w)
      ⟨trivial, .refl w⟩ (by
    rintro _ _ ⟨_, short | fault⟩
    · have bound := short version mem rfl
      omega
    · rw [World.Faulty, versioned.fault_eq] at fault
      exact quiet fault)
  rw [valid.eq_of_root foundIn mem same] at leaf
  refine ⟨result.1, result.2, state.1, state.2, ran, ?_, climbs⟩
  rw [← getElem?_map, rows, Version.rows, snapshotRows_leaves]
  exact leaf

theorem second_rollup_has_proof :
    ∃ (w : World Digest) (root : Digest) (siblings : List Digest)
        (leaf : Digest) (cache' : NodeCache Digest) (w' : World Digest),
      RollupRun (World.start 2 [0]) w ∧
      w.committed.isRollupExitRoot root = true ∧
      BridgeServer.getRollupExitProof
          { height := 2
            finalizedGER := false }
          1 root .pool
          ({ size := 1
             entries := [] }, w) =
        .ok (siblings, leaf) (cache', w') := by
  let first := RollupCall.addRollupExitLeaf (sampleRollupLeaf 1 10)
  let second := RollupCall.addRollupExitLeaf (sampleRollupLeaf 2 20)
  let root : Digest := treeRoot 2 [.bytes [10], .bytes [20]]
  have returned : returns
      (do
        Storage.beginDBTransaction
        first.run .tx
        second.run .tx
        Storage.commit)
      (fun _ (w : World Digest) =>
        w.committed.isRollupExitRoot root &&
          decide (1 < (w.committed.getRollupExitLeavesByRoot root).length))
      (World.start 2 [0]) = true := by
    decide +kernel
  obtain ⟨_, w, ran, checked⟩ := exists_of_returns returned
  obtain ⟨stored, inside⟩ := Bool.and_eq_true_iff.mp checked
  obtain ⟨_, opened, began, ran⟩ := bind_ok ran
  obtain ⟨_, between, addedFirst, ran⟩ := bind_ok ran
  obtain ⟨_, ready, addedSecond, committed⟩ := bind_ok ran
  have run : RollupRun (World.start 2 [0]) w :=
    .tail (.tail (.tail (.single (.begin began))
      (.call first (sampleRollupLeaf_ne_zero 1 10) addedFirst))
      (.call second (sampleRollupLeaf_ne_zero 2 20) addedSecond))
      (.commit committed)
  have view : w.view .pool = some w.committed := rfl
  obtain ⟨siblings, leaf, cache', w', proved, _⟩ :=
    (rollup_run_roots_have_proofs (by decide) (by decide)
      (start_rollupInitial 2 [0]) run view).2
      { height := 2
        finalizedGER := false }
      { size := 1
        entries := [] } root 1 rfl nofun stored (of_decide_eq_true inside)
  exact ⟨w, root, siblings, leaf, cache', w', run, stored, proved⟩

end BridgeService
