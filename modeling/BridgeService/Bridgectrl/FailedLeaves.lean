import BridgeService.Bridgectrl.Recovery

/-!
# Insertions that fail

The loop of `addLeaf` overwrites the sibling at the lowest clear bit of the
count before its writes can fail.  No insertion at this count reads that
sibling, and the first one that succeeds writes it again.  Failed insertions
are therefore not seen by later ones, whatever the siblings are.
-/

namespace BridgeService.MerkleTree

open PaddedTree List

variable {H : Type} [Externals H]

/-- A call of `addLeaf` at the current count that fails over some store. -/
def FailedLeaf (mt mt' : MerkleTree H) : Prop :=
  ∃ (σ : Type) (store : MerkleTreeStore σ H) (depositID : Nat) (leaf : H)
    (dbTx : Querier) (state state' : σ) (err : Err),
    addLeaf store depositID leaf mt.count dbTx (mt, state) =
      .error err (mt', state')

private def AlikeOff (level : Nat) (first second : List H) : Prop :=
  ∀ sibling, first.set level sibling = second.set level sibling

section Path

variable {index level h : Nat} {first second : List H}

private theorem AlikeOff.getElem?_eq (alike : AlikeOff level first second)
    (different : level ≠ h) : first[h]? = second[h]? := by
  have same := congrArg (fun siblings => siblings[h]?) (alike hashZero)
  simpa [different] using same

private theorem climb_alike (alike : AlikeOff level first second)
    (filled : Filled index level) (leaf : H) (below : h ≤ level) :
    ∃ cur leaves, ∀ siblings, siblings = first ∨ siblings = second →
      (List.range h).foldl (addLeafLevel index) ⟨leaf, true, siblings, []⟩ =
        ⟨cur, true, siblings, leaves⟩ := by
  induction h with
  | zero => exact ⟨leaf, [], fun _ _ => rfl⟩
  | succ h induction =>
    obtain ⟨cur, leaves, climbed⟩ := induction (by omega)
    have bit : index &&& (1 <<< h) > 0 :=
      (mask_pos_iff _ _).mpr (filled h below)
    have sibling : first[h]? = second[h]? := alike.getElem?_eq (by omega)
    refine ⟨hash (first.getD h hashZero) cur, leaves ++
      [(hash (first.getD h hashZero) cur, first.getD h hashZero, cur)], ?_⟩
    intro siblings either
    rw [range_succ, foldl_append, climbed siblings either]
    rcases either with rfl | rfl
    · simp [addLeafLevel, bit]
    · simp [addLeafLevel, bit, sibling]

private theorem siblings_kept (levels : List Nat) {path : LeafPath H}
    (written : path.isFilledSubTree = false) :
    (levels.foldl (addLeafLevel index) path).siblings = path.siblings := by
  induction levels generalizing path with
  | nil => rfl
  | cons level levels induction =>
    have step : (addLeafLevel index path level).isFilledSubTree = false ∧
        (addLeafLevel index path level).siblings = path.siblings := by
      rw [addLeafLevel]
      split
      · exact ⟨written, rfl⟩
      · simp [written]
    rw [foldl_cons, induction step.1, step.2]

private theorem addLeafPath_alike {mt : MerkleTree H}
    (alike : AlikeOff level first mt.siblings) (filled : Filled index level)
    (clear : index.testBit level = false) (below : level < mt.height)
    (leaf : H) :
    addLeafPath { mt with siblings := first } leaf index =
        addLeafPath mt leaf index ∧
      AlikeOff level (addLeafPath mt leaf index).siblings mt.siblings := by
  obtain ⟨cur, leaves, climbed⟩ :=
    climb_alike alike filled leaf (Nat.le_refl level)
  have bit : ¬index &&& (1 <<< level) > 0 := by
    simp [gt_iff_lt, mask_pos_iff, clear]
  obtain ⟨rest, height⟩ := Nat.exists_eq_add_of_le below
  have start := climbed _ (.inr rfl)
  constructor
  · simp only [addLeafPath, height, range_add, range_succ,
      foldl_append, climbed _ (.inl rfl), start, foldl_cons,
      foldl_nil, addLeafLevel, if_neg bit, if_true, alike cur]
  · intro sibling
    rw [addLeafPath, height, range_add, foldl_append,
      range_succ, foldl_append, start, siblings_kept]
    · simp [addLeafLevel, bit]
    · simp [addLeafLevel, bit]

private theorem exists_lowest_clear {count height : Nat}
    (notFilled : ¬Filled count height) :
    ∃ level, level < height ∧ Filled count level ∧
      count.testBit level = false := by
  induction height with
  | zero => exact absurd (filled_zero count) notFilled
  | succ height induction =>
    by_cases filled : Filled count height
    · refine ⟨height, Nat.lt_succ_self _, filled, ?_⟩
      simpa [filled_succ_iff, filled] using notFilled
    · obtain ⟨level, below, lowest⟩ := induction filled
      exact ⟨level, Nat.lt_succ_of_lt below, lowest⟩

end Path

/-- After any number of failed insertions, later insertions have the same
result and write the same roots to every store. -/
theorem failed_leaves_harmless {mt mt' : MerkleTree H}
    (room : mt.count < 2 ^ mt.height - 1)
    (failed : Relation.ReflTransGen FailedLeaf mt mt') (σ : Type)
    (store : MerkleTreeStore σ H) (dbTx : Querier)
    (later : List (Nat × H)) (state : σ) :
    rootsWritten store dbTx mt' later state =
      rootsWritten store dbTx mt later state := by
  have notFilled : ¬Filled mt.count mt.height := by
    intro filled
    have carried := (succ_div_two_pow mt.count mt.height).1 filled
    rw [Nat.div_eq_of_lt (by omega)] at carried
    exact Nat.succ_ne_zero _ carried.symm
  obtain ⟨level, below, filled, clear⟩ := exists_lowest_clear notFilled
  have same : ∃ siblings, mt' = { mt with siblings := siblings } ∧
      AlikeOff level siblings mt.siblings := by
    induction failed with
    | refl => exact ⟨mt.siblings, rfl, fun _ => rfl⟩
    | tail _ last induction =>
      obtain ⟨siblings, rfl, alike⟩ := induction
      obtain ⟨_, _, _, leaf, _, _, _, _, ran⟩ := last
      have path := addLeafPath_alike alike filled clear below leaf
      refine ⟨(addLeafPath mt leaf mt.count).siblings, ?_, path.2⟩
      rw [addLeaf_eq, if_neg (by simp), path.1] at ran
      dsimp only at ran
      split at ran
      · cases ran
        rfl
      · split at ran
        · cases ran
          rfl
        · contradiction
  obtain ⟨siblings, rfl, alike⟩ := same
  cases later with
  | nil => rfl
  | cons entry rest =>
    have path := (addLeafPath_alike alike filled clear below entry.2).1
    have first : addLeaf store.recording entry.1 entry.2 mt.count dbTx
        ({ mt with siblings := siblings }, (state, [])) =
          addLeaf store.recording entry.1 entry.2 mt.count dbTx
            (mt, (state, [])) := by
      simp only [addLeaf_eq, path, ne_eq, not_true_eq_false, if_false]
    simp only [rootsWritten, addLeaves, bind, EStateM.bind, first]

/-- The root of a leaf is not stored, and two other leaves follow. -/
theorem failed_leaf_forgotten :
    ∃ mt', FailedLeaf (emptyTree 2 0 : MerkleTree Digest) mt' ∧
      mt'.siblings.head? = some (.bytes [9]) ∧
      rootsWritten discardingStore .tx mt' [(1, .bytes [1]), (2, .bytes [2])]
          () =
        (.ok (), (), [.node (.node (.bytes [1]) (.zero 0)) (.zero 1),
          .node (.node (.bytes [1]) (.bytes [2])) (.zero 1)]) := by
  have failed : FailedLeaf (emptyTree 2 0 : MerkleTree Digest)
      { emptyTree 2 0 with siblings := [.bytes [9], .zero 1] } :=
    ⟨Unit, { discardingStore with setRoot := fun _ _ _ _ => throw .database },
      1, .bytes [9], .tx, (), (), .database, rfl⟩
  refine ⟨_, failed, rfl, ?_⟩
  rw [failed_leaves_harmless (by decide) (.single failed)]
  rfl

end BridgeService.MerkleTree
