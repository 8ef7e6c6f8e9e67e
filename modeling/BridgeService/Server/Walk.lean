import BridgeService.Bridgectrl.Runs
import BridgeService.Server.Proof

/-!
# Walks from stored roots

A walk from a root down to a leaf reads one node at each level, from the cache
or from the store.  Whatever the cache holds, as long as every cached pair
hashes to its key, the siblings met on the way lead back to the root.  If the
root is stored, all nodes of the walk are stored too, and the walk meets the
siblings of the tree itself.
-/

namespace BridgeService

open ErrorState PaddedTree List

variable {H : Type} [DecidableEq H] [Externals H]

/-- Every cached pair of children hashes to the node it is cached for. -/
def NodeCache.Valid (cache : NodeCache H) : Prop :=
  cache.All fun key value => hash value.1 value.2 = key

namespace BridgeServer

variable {base : World H} {dbTx : Querier} {t : Tables H} {height : Nat}

def Serves (base : World H) (state : NodeCache H × World H) : Prop :=
  NodeCache.Valid state.1 ∧ base.Ticked state.2

omit [DecidableEq H] [Externals H] in
theorem onStorage_triple {α : Type} {before : World H → Prop}
    {call : Service H α} {after : α → World H → Prop}
    {failed : Err → World H → Prop} (cached : NodeCache H → Prop)
    (triple : Triple before call after failed) :
    Triple (fun state : NodeCache H × World H =>
        cached state.1 ∧ before state.2)
      (onStorage call)
      (fun value state => cached state.1 ∧ after value state.2)
      (fun err state => cached state.1 ∧ failed err state.2) := by
  rintro ⟨cache, w⟩ ⟨kept, start⟩
  rw [onStorage]
  cases ran : call w with
  | ok value next => exact ⟨kept, triple.ok start ran⟩
  | error err next => exact ⟨kept, triple.error start ran⟩

theorem getNode_triple (tree : t.TreeTables height)
    (view : base.view dbTx = some t) (key : H) :
    Triple (Serves base) (getNode key dbTx)
      (fun value state => Serves base state ∧ hash value.1 value.2 = key)
      (fun _ state => Serves base state ∧
        ((∃ err, t.get key = .error err) ∨ base.Faulty .get dbTx)) := by
  have read : Triple base.Ticked (Storage.get key dbTx)
      (fun value w => base.Ticked w ∧ t.get key = .ok value)
      (fun err w => base.Ticked w ∧ (t.get key = .error err ∨
        err = .database ∧ base.Faulty .get dbTx)) :=
    Storage.query_triple _ view
  apply Triple.read
  rintro ⟨cache, w⟩ ⟨valid, ticked⟩
  dsimp only
  cases cached : cache.get key with
  | some hit =>
    obtain ⟨value, cache'⟩ := hit
    obtain ⟨here, valid'⟩ := valid.get cached
    rintro _ rfl
    exact ⟨⟨valid', ticked⟩, here⟩
  | none =>
    refine .bind ((onStorage_triple NodeCache.Valid read).consequence ?_
      (fun _ _ result => result) ?_) fun value =>
        .bind (.modify fun state start => ?_) fun _ =>
          .pure fun state start => start
    · rintro _ rfl
      exact And.intro valid ticked
    · rintro err state ⟨kept, ticked', missing | ⟨_, fault⟩⟩
      · exact ⟨⟨kept, ticked'⟩, .inl ⟨err, missing⟩⟩
      · exact ⟨⟨kept, ticked'⟩, .inr fault⟩
    · obtain ⟨kept, ticked', found⟩ := start
      have here := tree.hash_get found
      exact ⟨⟨Lru.All.add kept here, ticked'⟩, here⟩

private theorem nodeAtHeight_triple (tree : t.TreeTables height)
    (view : base.view dbTx = some t) (h : Nat) (key : H) :
    Triple (Serves base)
      (handle (getNode key dbTx) fun err => throw (.atHeight h err))
      (fun value state => Serves base state ∧ hash value.1 value.2 = key)
      (fun _ state => Serves base state ∧
        ((∃ err, t.get key = .error err) ∨ base.Faulty .get dbTx)) :=
  .handle (getNode_triple tree view key) fun _ =>
    .throw fun _ failed => failed

/-- The siblings of a walk, the lowest level first. -/
def siblingAt (siblings : List H) (level : Nat) : H :=
  siblings.reverse.getD level hashZero

omit [DecidableEq H] in
theorem siblingAt_cons_top (sibling : H) (siblings : List H) :
    siblingAt (sibling :: siblings) siblings.length = sibling := by
  simp [siblingAt]

omit [DecidableEq H] in
theorem siblingAt_cons_below (sibling : H) {siblings : List H} {level : Nat}
    (below : level < siblings.length) :
    siblingAt (sibling :: siblings) level = siblingAt siblings level := by
  simp [siblingAt, getD_eq_getElem?_getD, getElem?_append, below]

theorem siblingsDown_sound (tree : t.TreeTables height)
    (view : base.view dbTx = some t) (index : Nat) (h : Nat) (cur : H) :
    Triple (Serves base) (siblingsDown index dbTx h cur)
      (fun siblings state => Serves base state ∧ siblings.length = h ∧
        ∃ leaf, climb hash (siblingAt siblings) index leaf h = cur)
      (fun _ state => Serves base state) := by
  induction h generalizing cur with
  | zero =>
    exact .pure fun state serves => ⟨serves, rfl, cur, rfl⟩
  | succ h induction =>
    have extended : ∀ {left right sibling next : H} {siblings : List H},
        hash left right = cur →
        (index.testBit h = true ∧ sibling = left ∧ next = right ∨
          index.testBit h = false ∧ sibling = right ∧ next = left) →
        siblings.length = h →
        (∃ leaf, climb hash (siblingAt siblings) index leaf h = next) →
        ∃ leaf, climb hash (siblingAt (sibling :: siblings)) index leaf
          (h + 1) = cur := by
      rintro left right sibling next siblings node side rfl ⟨leaf, reached⟩
      refine ⟨leaf, ?_⟩
      rw [climb, siblingAt_cons_top,
        climb_congr hash fun level below =>
          siblingAt_cons_below sibling below, reached]
      rcases side with ⟨set, rfl, rfl⟩ | ⟨clear, rfl, rfl⟩
      · rw [if_pos set, node]
      · rw [if_neg (by simp [clear]), node]
    apply Triple.bind
      ((nodeAtHeight_triple tree view h cur).onError
        fun _ _ failed => failed.1)
    rintro ⟨left, right⟩ state ⟨serves, node⟩
    by_cases set : index.testBit h = true
    · rw [if_pos ((mask_pos_iff index h).mpr set)]
      refine (Triple.bind (induction right) fun siblings =>
        .pure ?_) state serves
      rintro state ⟨serves, length, reached⟩
      exact ⟨serves, by simp [length],
        extended node (.inl ⟨set, rfl, rfl⟩) length reached⟩
    · have clear : index.testBit h = false := by simpa using set
      rw [if_neg fun bit => set ((mask_pos_iff index h).mp bit)]
      refine (Triple.bind (induction left) fun siblings =>
        .pure ?_) state serves
      rintro state ⟨serves, length, reached⟩
      exact ⟨serves, by simp [length],
        extended node (.inr ⟨clear, rfl, rfl⟩) length reached⟩

def ownSiblings (leaves : List H) (index : Nat) : Nat → List H
  | 0 => []
  | h + 1 =>
    treeNode leaves h (siblingPosition index h) :: ownSiblings leaves index h

omit [DecidableEq H] in
theorem length_ownSiblings (leaves : List H) (index h : Nat) :
    (ownSiblings leaves index h).length = h := by
  induction h with
  | zero => rfl
  | succ h induction => rw [ownSiblings, length_cons, induction]

omit [DecidableEq H] in
theorem siblingAt_ownSiblings (leaves : List H) (index : Nat)
    {h level : Nat} (below : level < h) :
    siblingAt (ownSiblings leaves index h) level =
      treeNode leaves level (siblingPosition index level) := by
  induction h with
  | zero => omega
  | succ h induction =>
    rw [ownSiblings]
    by_cases top : level = h
    · subst top
      have length := length_ownSiblings leaves index level
      have first := siblingAt_cons_top
        (treeNode leaves level (siblingPosition index level))
        (ownSiblings leaves index level)
      rw [length] at first
      exact first
    · rw [siblingAt_cons_below _ (by rw [length_ownSiblings]; omega)]
      exact induction (by omega)

variable {network index last : Nat}

theorem siblingsDown_complete (tree : t.TreeTables height)
    (injective : Function.Injective2 (hash : H → H → H))
    (view : base.view dbTx = some t)
    (inside : last < (t.leavesOf network).length) (older : index ≤ last)
    {h : Nat} (below : h ≤ height) :
    Triple (Serves base)
      (siblingsDown index dbTx h
        (treeNode ((t.leavesOf network).take (last + 1)) h (index / 2 ^ h)))
      (fun siblings state => Serves base state ∧ siblings =
        ownSiblings ((t.leavesOf network).take (last + 1)) index h)
      (fun _ state => Serves base state ∧ base.Faulty .get dbTx) := by
  induction h with
  | zero => exact .pure fun state serves => ⟨serves, rfl⟩
  | succ h induction =>
    have lower := induction (by omega)
    have stored := tree.get_eq injective inside older below
    apply Triple.bind ((nodeAtHeight_triple tree view h _).onError ?_)
    · rintro ⟨left, right⟩ state ⟨serves, node⟩
      rw [treeNode_succ] at node
      obtain ⟨rfl, rfl⟩ := injective node
      by_cases set : index.testBit h = true
      · rw [if_pos ((mask_pos_iff index h).mpr set)]
        dsimp only
        rw [← position_of_set set]
        refine (Triple.bind lower fun siblings =>
          .pure ?_) state serves
        rintro state ⟨serves, rfl⟩
        refine ⟨serves, ?_⟩
        rw [ownSiblings, siblingPosition, if_pos set]
      · have clear : index.testBit h = false := by simpa using set
        rw [if_neg fun bit => set ((mask_pos_iff index h).mp bit)]
        dsimp only
        rw [← position_of_clear clear]
        refine (Triple.bind lower fun siblings =>
          .pure ?_) state serves
        rintro state ⟨serves, rfl⟩
        refine ⟨serves, ?_⟩
        rw [ownSiblings, siblingPosition, if_neg set,
          ← position_of_clear clear]
    · rintro err state ⟨serves, ⟨missing, absent⟩ | fault⟩
      · simp [stored] at absent
      · exact ⟨serves, fault⟩

section

variable (tree : t.TreeTables height) (view : base.view dbTx = some t)
  (s : BridgeServer) (index : Nat) (root : H)

include tree view

theorem getProof_path :
    Triple (Serves base) (s.getProof index root dbTx)
      (fun proof state => Serves base state ∧ proof.length = s.height ∧
        ∃ leaf, climb hash (fun level => proof.getD level hashZero) index
          leaf s.height = root)
      (fun _ state => Serves base state) := by
  refine .bind (siblingsDown_sound tree view index s.height root)
    fun siblings => .pure ?_
  rintro state ⟨serves, length, path⟩
  exact ⟨serves, by simpa using length, path⟩

theorem getProof_sound :
    Triple (Serves base) (s.getProof index root dbTx)
      (fun proof state => Serves base state ∧ ∃ leaf,
        MerkleTree.calculateRoot leaf proof index s.height = root)
      (fun _ state => Serves base state) := by
  apply (getProof_path tree view s index root).post
  rintro proof state ⟨serves, _, path⟩
  simpa only [MerkleTree.calculateRoot_eq_climb] using And.intro serves path

end

section

variable (tree : t.TreeTables height)
  (injective : Function.Injective2 (hash : H → H → H))
  (view : base.view dbTx = some t)
  (inside : last < (t.leavesOf network).length) (older : index ≤ last)
  (fits : index < 2 ^ height) (s : BridgeServer)
  (sameHeight : s.height = height)

include tree injective view inside older fits s sameHeight

theorem getProof_siblings :
    Triple (Serves base)
      (s.getProof index
        (treeRoot height ((t.leavesOf network).take (last + 1))) dbTx)
      (fun proof state => Serves base state ∧ proof =
        (ownSiblings ((t.leavesOf network).take (last + 1)) index
          height).reverse)
      (fun _ state => Serves base state ∧ base.Faulty .get dbTx) := by
  have walk := siblingsDown_complete tree injective view inside older
    (Nat.le_refl height)
  rw [Nat.div_eq_of_lt fits, ← treeRoot_eq_treeNode] at walk
  rw [getProof, sameHeight]
  refine .bind walk fun siblings => .pure ?_
  rintro state ⟨serves, rfl⟩
  exact ⟨serves, rfl⟩

theorem getProof_complete :
    Triple (Serves base)
      (s.getProof index
        (treeRoot height ((t.leavesOf network).take (last + 1))) dbTx)
      (fun proof state => Serves base state ∧
        MerkleTree.calculateRoot
            (padded hashZero ((t.leavesOf network).take (last + 1)) index)
            proof index height =
          treeRoot height ((t.leavesOf network).take (last + 1)))
      (fun _ state => Serves base state ∧ base.Faulty .get dbTx) := by
  apply (getProof_siblings tree injective view inside older fits s
    sameHeight).post _
  rintro proof state ⟨serves, rfl⟩
  refine ⟨serves, MerkleTree.calculateRoot_own_siblings fits ?_⟩
  intro level below
  exact siblingAt_ownSiblings _ index below

end

end BridgeServer

/-- After any interleaving of additions and deletions, every root that is
still stored has a proof for every deposit of its network up to the one it
belongs to, whatever valid nodes the cache holds. -/
theorem stored_roots_have_proofs {height : Nat} {start w : World H}
    (injective : Function.Injective2 (hash : H → H → H))
    (small : height ≤ 32) (initial : start.Initial height)
    (run : TreeRun height start w) (quiet : ¬w.Faulty .get .pool)
    (s : BridgeServer) (sameHeight : s.height = height)
    (cache : NodeCache H) (valid : cache.Valid)
    {root : RootRow H} (rootStored : root ∈ w.committed.root)
    {last : DepositRow H} (lastStored : last ∈ w.committed.deposit)
    (owner : last.id = root.depositID) {index : Nat}
    (older : index ≤ last.depositCnt) :
    ∃ proof cache' w', s.getProof index root.root .pool (cache, w) =
        .ok proof (cache', w') ∧ cache'.Valid ∧
      (∃ deposit, deposit ∈ w.committed.deposit ∧
        deposit.networkID = root.network ∧ deposit.depositCnt = index) ∧
      ∀ deposit, deposit ∈ w.committed.deposit →
        deposit.networkID = root.network → deposit.depositCnt = index →
        MerkleTree.calculateRoot deposit.leaf proof index height =
          root.root := by
  obtain ⟨consistent, _⟩ :=
    run.consistent small injective initial.consistent
  have tree := consistent.tables
  obtain ⟨network, rootEq⟩ := tree.root_of_deposit lastStored rootStored owner
  have inside := tree.count_lt lastStored
  have capacity := consistent.capacity last.networkID
  have insideIndex :
      index < (w.committed.leavesOf last.networkID).length := by
    omega
  have view : w.view .pool = some w.committed := rfl
  obtain ⟨proof, state, ran, ⟨valid', _⟩, proved⟩ :=
    (BridgeServer.getProof_complete tree injective view inside older
      (by omega) s sameHeight).exists_ok (cache, w) ⟨valid, .refl w⟩
      fun _ _ failed => quiet failed.2
  rw [rootEq, network]
  refine ⟨proof, state.1, state.2, ran, valid',
    tree.exists_deposit insideIndex, ?_⟩
  rintro deposit stored sameNetwork rfl
  have leaf := tree.leaf_at stored
  rw [sameNetwork] at leaf
  rw [padded_take, if_pos (by omega), padded,
    getD_eq_getElem?_getD, leaf] at proved
  exact proved

section Samples

def sampleReplacement : Addition Digest :=
  .ofDeposit { sampleDeposit 1 1 with amount := 2 }

/-- The second of two deposits is deleted, and another takes its place. -/
def replaceSecondDeposit : Service Digest Unit := do
  Addition.runAll .pool sampleAdditions
  Storage.resetDeposits 1 1 .pool
  BridgeController.reorgMT 1 1 .pool
  sampleReplacement.run .pool

/-- The parent of both leaves before the deletion, with its children. -/
def deletedNode : Digest × Digest × Digest :=
  let left := hashDeposit (sampleDeposit 1 0)
  let right := hashDeposit (sampleDeposit 1 1)
  (hash left right, left, right)

theorem replaceSecondDeposit_run {w : World Digest}
    (ran : replaceSecondDeposit (World.start 2 [1]) = .ok () w) :
    TreeRun 2 (World.start 2 [1]) w := by
  obtain ⟨_, first, added, ran⟩ := bind_ok ran
  obtain ⟨_, cut, deleted, ran⟩ := bind_ok ran
  obtain ⟨_, rebuilt, reset, replaced⟩ := bind_ok ran
  have run := TreeRun.of_runAll sampleAdditions sampleAdditions_below added
  have below : sampleReplacement.Below 2 := by
    show 1 + 1 < 2 ^ 2
    decide
  exact (run.tail (.delete 1 1 cut (.byResetDeposits deleted) reset)).tail
    (.add sampleReplacement below replaced)

theorem two_deposits_have_proofs :
    ∃ (w : World Digest) (root : RootRow Digest) (proof : List Digest)
        (cache' : NodeCache Digest) (w' : World Digest),
      replaceSecondDeposit (World.start 2 [1]) = .ok () w ∧
      TreeRun 2 (World.start 2 [1]) w ∧
      root ∈ w.committed.root ∧
      (∀ row, row ∈ w.committed.rht → row.key ≠ deletedNode.1) ∧
      BridgeServer.getProof
          { height := 2
            finalizedGER := false }
          0 root.root .pool
          ({ size := 1
             entries := [deletedNode] }, w) =
        .ok proof (cache', w') := by
  have returned : returns replaceSecondDeposit
      (fun _ w => (∃ row ∈ w.committed.deposit, row.depositCnt = 1) ∧
        ∀ row ∈ w.committed.rht, row.key ≠ deletedNode.1)
      (World.start 2 [1]) = true := by
    decide +kernel
  obtain ⟨_, w, ran, checked⟩ := exists_of_returns returned
  obtain ⟨⟨last, lastStored, count⟩, gone⟩ := of_decide_eq_true checked
  have run := replaceSecondDeposit_run ran
  have initial := World.start_initial (H := Digest) 2 [1]
  obtain ⟨consistent, kept⟩ := run.consistent (by decide)
    Digest.hash_injective initial.consistent
  have rootStored := consistent.tables.mem_root.mpr
    ⟨_, Tables.mem_entries.mpr ⟨last, lastStored, rfl⟩, rfl⟩
  have quiet : ¬w.Faulty .get .pool := by
    rw [World.Faulty, kept]
    rintro ⟨tick, fault⟩
    exact Bool.false_ne_true fault
  have valid : NodeCache.Valid
      { size := 1
        entries := [deletedNode] } := by
    intro key value cached
    cases mem_singleton.mp cached
    rfl
  obtain ⟨proof, cache', w', proved, _⟩ := stored_roots_have_proofs
    Digest.hash_injective (by decide) initial run quiet
    { height := 2
      finalizedGER := false } rfl _ valid rootStored lastStored rfl
    (Nat.zero_le _)
  exact ⟨w, _, proof, cache', w', ran, run, rootStored, gone, proved⟩

end Samples

end BridgeService
