import BridgeService.Synchronizer.Events
import BridgeService.Synchronizer.Processing

/-!
# Effect of a new rollup exit leaf

`addRollupExitLeaf` reads the current leaves, puts the new one in its place and
stores the result as a new version of the tree, unless a version with the same
root is already stored.  The argument only uses what a statement does to the
tables, so it is made for any description of states for which statements behave
that way.
-/

namespace BridgeService

open ErrorState List

variable {H α : Type}

/-- States described by the tables that a querier sees, such that every
statement that keeps the exit trees has the effect on them that it says. -/
structure Carries [Externals H] (dbTx : Querier)
    (holds : Tables H → World H → Prop) (lost : World H → Prop) : Prop where
  exec : ∀ {α : Type} {call : StorageCall} {t : Tables H}
    {statement : Sequences → Tables H → Except Err (α × Sequences × Tables H)},
    (∀ seqs value seqs' t', t.Issued seqs →
      statement seqs t = .ok (value, seqs', t') →
      t.SameTrees t' ∧ seqs.Le seqs' ∧ t'.Issued seqs') →
    Triple (holds t) (Storage.exec call dbTx statement)
      (fun value w => ∃ seqs seqs' t', t.Issued seqs ∧
        statement seqs t = .ok (value, seqs', t') ∧ holds t' w)
      (fun _ => lost)
  lose : ∀ t w, holds t w → lost w

theorem carries_processing [Externals H] (before : World H)
    (networkID height : Nat) :
    Carries .tx (before.Processing networkID height)
      (before.opened.Working .tx networkID height) where
  exec := exec_processing
  lose := fun _ _ processing => processing.working

section Snapshots

variable [Externals H] {dbTx : Querier} {holds : Tables H → World H → Prop}
  {lost : World H → Prop} {t : Tables H}

theorem Carries.query (carries : Carries dbTx holds lost)
    {call : StorageCall} (read : Tables H → Except Err α) :
    Triple (holds t) (Storage.query call dbTx read)
      (fun value w => holds t w ∧ read t = .ok value)
      (fun _ => lost) := by
  refine (carries.exec ?_).post ?_
  · intro seqs value seqs' t' issued ran
    obtain ⟨_, _, ⟨⟩⟩ := answer_ok ran
    exact ⟨⟨rfl, rfl, rfl⟩, .refl _, issued⟩
  · rintro value w ⟨seqs, seqs', t', _, ran, held⟩
    obtain ⟨_, answer, ⟨⟩⟩ := answer_ok ran
    exact ⟨held, answer⟩

theorem Carries.answer (carries : Carries dbTx holds lost)
    {call : StorageCall} (read : Tables H → α) :
    Triple (holds t) (Storage.query call dbTx fun t => .ok (read t))
      (fun value w => holds t w ∧ read t = value) (fun _ => lost) :=
  (carries.query _).post (fun _ _ result => ⟨result.1, Except.ok.inj result.2⟩)

omit [Externals H] in
private theorem insertedRows_eq (first : Nat) (root : H) (blockID : Nat)
    (leaves : List H) :
    ((leaves.zipIdx.map fun (leaf, i) =>
        ({ leaf := leaf
           rollupId := i + 1
           root := root
           blockID := blockID } : RollupExitInsert H)).zipIdx.map
      fun (row, i) =>
        ({ id := first + i + 1
           blockID := row.blockID
           leaf := row.leaf
           rollupId := row.rollupId
           root := row.root } : RollupExitLeaf H)) =
      snapshotRows first root blockID leaves := by
  apply ext_getElem?
  intro index
  simp only [snapshotRows, getElem?_map, getElem?_zipIdx,
    Option.map_map, Nat.zero_add]
  rfl

private theorem addRollupExitLeaves_triple (carries : Carries dbTx holds lost)
    (root : H) (blockID : Nat) (leaves : List H) :
    Triple (holds t)
      (Storage.addRollupExitLeaves
        (leaves.zipIdx.map fun (leaf, i) =>
          { leaf := leaf
            rollupId := i + 1
            root := root
            blockID := blockID }) dbTx)
      (fun _ w => ∃ first, (∀ row, row ∈ t.rollupExit → row.id ≤ first) ∧
        holds
          { t with
            rollupExit := t.rollupExit ++
              snapshotRows first root blockID leaves } w)
      (fun _ => lost) := by
  refine (carries.exec ?_).post ?_
  · intro seqs value seqs' t' issued ran
    simp only [insertedRows_eq, Except.ok.injEq, Prod.mk.injEq] at ran
    obtain ⟨_, rfl, rfl⟩ := ran
    refine ⟨⟨rfl, rfl, rfl⟩, ⟨le_rfl, le_rfl, le_rfl,
      Nat.le_add_right _ _⟩, issued.block, issued.deposit, issued.exitRoot,
      ?_⟩
    intro row stored
    rcases mem_append.mp stored with old | new
    · exact (issued.rollupExit row old).trans (Nat.le_add_right _ _)
    · obtain ⟨i, leaf, found, rfl⟩ := mem_snapshotRows.mp new
      obtain ⟨inside, _⟩ := List.getElem?_eq_some_iff.mp found
      simp only [length_map, length_zipIdx]
      omega
  · rintro _ w ⟨seqs, seqs', t', issued, ran, held⟩
    simp only [insertedRows_eq, Except.ok.injEq, Prod.mk.injEq] at ran
    obtain ⟨_, rfl, rfl⟩ := ran
    exact ⟨seqs.rollupExit, issued.rollupExit, held⟩

variable [DecidableEq H]

private theorem storeLeaves_triple (carries : Carries dbTx holds lost)
    (mt : MerkleTree H) (leaves : List H) (blockID : Nat) :
    Triple (holds t)
      (MerkleTree.storeLeaves Storage.merkleTreeStore mt leaves blockID dbTx)
      (fun _ w => ∃ root,
        MerkleTree.buildMTRoot mt.height leaves = .ok root ∧
        (t.isRollupExitRoot root = true ∧ holds t w ∨
          t.isRollupExitRoot root = false ∧ ∃ first,
            (∀ row, row ∈ t.rollupExit → row.id ≤ first) ∧
            holds
              { t with
                rollupExit := t.rollupExit ++
                  snapshotRows first root blockID leaves } w))
      (fun _ => lost) := by
  rw [MerkleTree.storeLeaves]
  cases rooted : MerkleTree.buildMTRoot mt.height leaves with
  | error err => exact fun w held => carries.lose t w held
  | ok root =>
    have rest : Triple (holds t)
        (do
          let exist ← Storage.merkleTreeStore.isRollupExitRoot root dbTx
          if !exist then
            let inserts := leaves.zipIdx.map fun (leaf, i) =>
              { leaf := leaf
                rollupId := i + 1
                root := root
                blockID := blockID }
            Storage.merkleTreeStore.addRollupExitLeaves inserts dbTx)
        (fun _ w => ∃ root',
          (.ok root : Except Err H) = .ok root' ∧
          (t.isRollupExitRoot root' = true ∧ holds t w ∨
            t.isRollupExitRoot root' = false ∧ ∃ first,
              (∀ row, row ∈ t.rollupExit → row.id ≤ first) ∧
              holds
                { t with
                  rollupExit := t.rollupExit ++
                    snapshotRows first root' blockID leaves } w))
        (fun _ => lost) := by
      refine .bind (carries.answer fun t =>
        t.isRollupExitRoot root) fun exist => ?_
      cases exist with
      | true =>
        apply Triple.pure
        rintro w ⟨held, stored⟩
        exact ⟨root, rfl, .inl ⟨stored, held⟩⟩
      | false =>
        rintro w ⟨held, unknown⟩
        refine ((addRollupExitLeaves_triple carries root blockID
          leaves).post ?_) w held
        rintro _ w ⟨first, fresh, held⟩
        exact ⟨root, rfl, .inr ⟨unknown, first, fresh, held⟩⟩
    exact rest

theorem addRollupExitLeaf_triple (carries : Carries dbTx holds lost)
    (mt : MerkleTree H) (rollupLeaf : RollupExitLeaf H) :
    Triple (holds t)
      (mt.addRollupExitLeaf Storage.merkleTreeStore rollupLeaf dbTx)
      (fun _ w => 0 < rollupLeaf.rollupId ∧
        ∃ t', RollupLeafAdded mt.height rollupLeaf t t' ∧ holds t' w)
      (fun _ => lost) := by
  refine .bind (carries.answer Tables.getLatestRollupExitLeaves)
    fun stored => ?_
  apply Triple.ite
  · intro _
    exact fun w start => carries.lose t w start.1
  · intro notZero
    dsimp only
    cases (stored ++ MerkleTree.emptyRollupLeaves rollupLeaf
        stored.length)[rollupLeaf.rollupId - 1]? with
    | none => exact fun w start => carries.lose t w start.1
    | some old =>
      apply Triple.ite
      · rintro _ w ⟨held, rfl⟩
        refine ((storeLeaves_triple carries mt _ _).post ?_) w held
        rintro _ w ⟨root, rooted, ⟨stored, held⟩ |
          ⟨unknown, first, fresh, held⟩⟩
        · exact ⟨by omega, t, .known rfl rooted stored, held⟩
        · exact ⟨by omega, _, .new first rfl rooted unknown fresh, held⟩
      · intro _
        exact fun w start => carries.lose t w start.1

end Snapshots

end BridgeService
