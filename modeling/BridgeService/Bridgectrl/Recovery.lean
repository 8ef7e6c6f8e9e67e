import BridgeService.Bridgectrl.Runs

/-!
# Recovery of exit trees

A tree can be rebuilt from the store after a restart, after deposits have been
deleted, and after a transaction has been abandoned.  In each case it behaves
like a tree into which the surviving leaves were inserted one by one: every
later sequence of additions makes the same calls to any store, and so writes
the same roots.
-/

namespace BridgeService

open ErrorState List

namespace MerkleTree

variable {σ H : Type} [Externals H]

section Behaviour

/-- Outcome of later additions: the result, the final store, and the roots
written to it. -/
def rootsWritten (store : MerkleTreeStore σ H) (dbTx : Querier)
    (mt : MerkleTree H) (later : List (Nat × H)) (state : σ) :
    Except Err Unit × σ × List H :=
  match addLeaves store.recording dbTx mt.count later (mt, (state, [])) with
  | .ok _ (_, (state, roots)) => (.ok (), state, roots)
  | .error err (_, (state, roots)) => (.error err, state, roots)

/-- Two trees cannot be told apart by later additions within the height. -/
def SameRoots (height : Nat) (first second : MerkleTree H) : Prop :=
  ∀ (σ : Type) (store : MerkleTreeStore σ H) (dbTx : Querier)
    (later : List (Nat × H)) (state : σ),
    first.count + later.length < 2 ^ height →
      rootsWritten store dbTx first later state =
        rootsWritten store dbTx second later state

variable {height : Nat} {leaves : List H} {first second : MerkleTree H}

private theorem addLeaf_same (small : height ≤ 32)
    (firstRepresents : first.Represents height leaves)
    (secondRepresents : second.Represents height leaves)
    (sameNetwork : first.networkID = second.networkID)
    (room : leaves.length + 1 < 2 ^ height)
    (store : MerkleTreeStore σ H) (depositID : Nat) (leaf : H)
    (dbTx : Querier) (state : σ) :
    (∃ err next first' second',
      addLeaf store depositID leaf leaves.length dbTx (first, state) =
          .error err (first', next) ∧
        addLeaf store depositID leaf leaves.length dbTx (second, state) =
          .error err (second', next)) ∨
      ∃ next first' second',
        addLeaf store depositID leaf leaves.length dbTx (first, state) =
            .ok () (first', next) ∧
          addLeaf store depositID leaf leaves.length dbTx (second, state) =
            .ok () (second', next) ∧
          first'.Represents height (leaves ++ [leaf]) ∧
          second'.Represents height (leaves ++ [leaf]) ∧
          first'.networkID = second'.networkID := by
  have limit : 2 ^ height ≤ 2 ^ 32 :=
    Nat.pow_le_pow_right (by omega) small
  have firstPath : PathBelow first (leaves ++ [leaf]) _ height _ :=
    addLeafPath_spec firstRepresents (by omega)
  have secondPath : PathBelow second (leaves ++ [leaf]) _ height _ :=
    addLeafPath_spec secondRepresents (by omega)
  have cur : (addLeafPath second leaf leaves.length).cur =
      (addLeafPath first leaf leaves.length).cur := by
    rw [firstPath.cur, secondPath.cur]
  have rows : pathRows depositID (addLeafPath second leaf leaves.length) =
      pathRows depositID (addLeafPath first leaf leaves.length) := by
    rw [pathRows, pathRows, firstPath.nodes, secondPath.nodes]
  rw [addLeaf_eq, addLeaf_eq, if_neg (by simp [firstRepresents.count_eq]),
    if_neg (by simp [secondRepresents.count_eq])]
  have sameCall : store.setRoot (addLeafPath first leaf leaves.length).cur
      depositID second.networkID dbTx state =
      store.setRoot (addLeafPath first leaf leaves.length).cur depositID
        first.networkID dbTx state := by
    rw [sameNetwork]
  simp only [cur, rows, sameCall]
  cases store.setRoot (addLeafPath first leaf leaves.length).cur depositID
      first.networkID dbTx state with
  | error err next => exact .inl ⟨err, next, _, _, rfl, rfl⟩
  | ok value rooted =>
    dsimp only
    cases store.bulkSet
        (pathRows depositID (addLeafPath first leaf leaves.length)) dbTx
        rooted with
    | error err next => exact .inl ⟨err, next, _, _, rfl, rfl⟩
    | ok value next =>
      refine .inr ⟨next, _, _, rfl, rfl, ?_, ?_, sameNetwork⟩
      · rw [firstRepresents.count_eq]
        exact firstRepresents.push (by omega) (by omega)
      · rw [secondRepresents.count_eq]
        exact secondRepresents.push (by omega) (by omega)

theorem addLeaf_networkID {store : MerkleTreeStore σ H} {depositID : Nat}
    {leaf : H} {index : Nat} {dbTx : Querier} {mt mt' : MerkleTree H}
    {state state' : σ}
    (ran : addLeaf store depositID leaf index dbTx (mt, state) =
      .ok () (mt', state')) : mt'.networkID = mt.networkID := by
  rw [addLeaf_eq] at ran
  split at ran
  · contradiction
  · dsimp only at ran
    split at ran
    · contradiction
    · split at ran
      · contradiction
      · injection ran with _ states
        rw [← (Prod.mk.inj states).1]

private theorem addLeaves_same (small : height ≤ 32)
    (store : MerkleTreeStore σ H) (dbTx : Querier)
    (later : List (Nat × H)) {leaves : List H} {first second : MerkleTree H}
    (firstRepresents : first.Represents height leaves)
    (secondRepresents : second.Represents height leaves)
    (sameNetwork : first.networkID = second.networkID)
    (room : leaves.length + later.length < 2 ^ height) (state : σ) :
    (∃ err next first' second',
      addLeaves store dbTx leaves.length later (first, state) =
          .error err (first', next) ∧
        addLeaves store dbTx leaves.length later (second, state) =
          .error err (second', next)) ∨
      ∃ next first' second',
        addLeaves store dbTx leaves.length later (first, state) =
            .ok () (first', next) ∧
          addLeaves store dbTx leaves.length later (second, state) =
            .ok () (second', next) := by
  induction later generalizing leaves first second state with
  | nil => exact .inr ⟨state, first, second, rfl, rfl⟩
  | cons entry rest induction =>
    obtain ⟨depositID, leaf⟩ := entry
    rw [length_cons] at room
    rcases addLeaf_same small firstRepresents secondRepresents sameNetwork
      (by omega) store depositID leaf dbTx state with
      ⟨err, next, first', second', firstRan, secondRan⟩ |
      ⟨next, first', second', firstRan, secondRan, firstNext, secondNext,
        network⟩
    · refine .inl ⟨err, next, first', second', ?_, ?_⟩
      · simp only [addLeaves, bind, EStateM.bind, firstRan]
      · simp only [addLeaves, bind, EStateM.bind, secondRan]
    · have others := induction firstNext secondNext network
        (by simp; omega) next
      rw [length_append, length_singleton] at others
      simp only [addLeaves, bind, EStateM.bind, firstRan, secondRan]
      exact others

theorem sameRoots_of_represents (small : height ≤ 32)
    (firstRepresents : first.Represents height leaves)
    (secondRepresents : second.Represents height leaves)
    (sameNetwork : first.networkID = second.networkID) :
    SameRoots height first second := by
  intro σ store dbTx later state room
  rw [firstRepresents.count_eq] at room
  rw [rootsWritten, rootsWritten, firstRepresents.count_eq,
    secondRepresents.count_eq]
  rcases addLeaves_same small store.recording dbTx later firstRepresents
    secondRepresents sameNetwork room (state, []) with
    ⟨err, next, first', second', firstRan, secondRan⟩ |
    ⟨next, first', second', firstRan, secondRan⟩
  · rw [firstRan, secondRan]
  · rw [firstRan, secondRan]

end Behaviour

section Inserted

variable {height : Nat}

/-- A tree that behaves like the tree into which the leaves were inserted one
by one, over any store that accepted them. -/
def BehavesAsInserted (height networkID : Nat) (leaves : List H)
    (mt : MerkleTree H) : Prop :=
  ∀ (τ : Type) (other : MerkleTreeStore τ H) (dbTx : Querier)
    (entries : List (Nat × H)) (before after : τ) (inserted : MerkleTree H),
    entries.map Prod.snd = leaves →
    addLeaves other dbTx 0 entries (emptyTree height networkID, before) =
      .ok () (inserted, after) →
    SameRoots height mt inserted

private theorem addLeaves_ok_represents (small : height ≤ 32)
    {store : MerkleTreeStore σ H} {dbTx : Querier}
    (entries : List (Nat × H)) {leaves : List H} {mt mt' : MerkleTree H}
    {state state' : σ} (represents : mt.Represents height leaves)
    (room : leaves.length + entries.length < 2 ^ height)
    (ran : addLeaves store dbTx leaves.length entries (mt, state) =
      .ok () (mt', state')) :
    mt'.Represents height (leaves ++ entries.map Prod.snd) ∧
      mt'.networkID = mt.networkID := by
  induction entries generalizing leaves mt state with
  | nil =>
    have same : mt = mt' := by
      injection ran with _ states
      exact (Prod.mk.inj states).1
    rw [← same]
    simpa using represents
  | cons entry rest induction =>
    obtain ⟨depositID, leaf⟩ := entry
    rw [length_cons] at room
    simp only [addLeaves, bind, EStateM.bind] at ran
    rcases addLeaf_same small represents represents rfl (by omega) store
      depositID leaf dbTx state with
      ⟨err, next, first, _, failed, _⟩ |
      ⟨next, first, _, added, _, pushed, _, _⟩
    · simp [failed] at ran
    · rw [added] at ran
      have network : first.networkID = mt.networkID := addLeaf_networkID added
      have others := induction pushed (by simp; omega)
        (by simpa using ran)
      simpa [network] using others

theorem behavesAsInserted_of_represents (small : height ≤ 32)
    {leaves : List H} {mt : MerkleTree H}
    (represents : mt.Represents height leaves)
    (fits : leaves.length < 2 ^ height) :
    BehavesAsInserted height mt.networkID leaves mt := by
  intro τ other dbTx entries before after inserted sameLeaves ran
  have length : entries.length = leaves.length := by
    rw [← sameLeaves, length_map]
  obtain ⟨insertedRepresents, network⟩ := addLeaves_ok_represents small
    entries (emptyTree_represents height mt.networkID) (by simp; omega) ran
  rw [nil_append, sameLeaves] at insertedRepresents
  exact sameRoots_of_represents small represents insertedRepresents
    network.symm

end Inserted

end MerkleTree

section Rebuilding

variable {H : Type} [Externals H] {height networkID count : Nat}
  {w w' : World H} {t : Tables H}

private theorem held_of_shape {base : World H} {mt : MerkleTree H}
    (consistent : base.Consistent height)
    (registered : base.exitTrees networkID = some mt) {dbTx : Querier}
    (framed : base.Framed dbTx w) :
    ∃ held, w.exitTrees networkID = some held ∧
      MerkleTree.Held w height networkID (held, w) := by
  obtain ⟨sameNetwork, represents⟩ := consistent.trees networkID mt registered
  have shape := framed.shape networkID
  rw [registered, Option.map_some, Option.map_eq_some_iff] at shape
  obtain ⟨held, tree, same⟩ := shape
  obtain ⟨network, heightEq⟩ := Prod.mk.inj same
  exact ⟨held, tree, heightEq.trans represents.height_eq,
    network.trans sameNetwork, .refl w⟩

variable [DecidableEq H]

private theorem reorgMT_represents (small : height ≤ 32)
    (injective : Function.Injective2 (hash : H → H → H))
    (tree : t.TreeTables height) (view : w.view .tx = some t)
    (fits : (t.leavesOf networkID).length < 2 ^ height)
    (enough : count ≤ (t.leavesOf networkID).length)
    (quiet : w.QuietReads .tx) {held : MerkleTree H}
    (registered : w.exitTrees networkID = some held)
    (shape : MerkleTree.Held w height networkID (held, w)) :
    ∃ w' mt, BridgeController.reorgMT count networkID .tx w = .ok () w' ∧
      w'.exitTrees networkID = some mt ∧ mt.networkID = networkID ∧
      mt.Represents height ((t.leavesOf networkID).take count) := by
  obtain ⟨_, state, ran, ⟨_, network, _⟩, _, represents⟩ :=
    (MerkleTree.resetLeaf_triple tree (by omega) injective view (by omega)
      count).exists_ok (held, w) shape (by
    rintro _ _ ⟨_, short | root | get⟩
    · omega
    · exact quiet.getRoot root
    · exact quiet.get get)
  rw [BridgeController.reorgMT,
    BridgeController.onTree_registered registered, ran]
  exact ⟨_, state.1, rfl, by simp [World.setTree], network, represents⟩

private theorem rollbackMT_represents (small : height ≤ 32)
    (injective : Function.Injective2 (hash : H → H → H))
    (tree : w.committed.TreeTables height)
    (fits : (w.committed.leavesOf networkID).length < 2 ^ height)
    (quiet : w.QuietReads .pool) {held : MerkleTree H}
    (registered : w.exitTrees networkID = some held)
    (shape : MerkleTree.Held w height networkID (held, w)) :
    ∃ w' mt, BridgeController.rollbackMT networkID .pool w = .ok () w' ∧
      w'.exitTrees networkID = some mt ∧ mt.networkID = networkID ∧
      mt.Represents height (w.committed.leavesOf networkID) := by
  obtain ⟨_, state, ran, ⟨_, network, _⟩, represents⟩ :=
    (MerkleTree.rollbackMT_triple tree small injective fits).exists_ok
      (held, w) shape fun _ _ failed => failed.2 quiet
  rw [BridgeController.rollbackMT,
    BridgeController.onTree_registered registered, ran]
  exact ⟨_, state.1, rfl, by simp [World.setTree], network, represents quiet⟩

omit [Externals H] [DecidableEq H] in
private theorem begin_framed {opened : World H}
    (ran : Storage.beginDBTransaction w = .ok () opened) :
    w.Framed .tx opened ∧ opened.view .tx = some w.committed := by
  rw [Storage.beginDBTransaction] at ran
  split at ran
  · contradiction
  · cases ran
    exact ⟨⟨fun _ => rfl, rfl, fun _ => rfl⟩, rfl⟩

/-- Rebuilding a tree from the store, after a restart, after the deletion of
its last deposits, or after an abandoned transaction, gives a tree that
behaves like one into which the surviving leaves were inserted one by one. -/
theorem rebuilt_trees_behave_as_inserted {start w : World H}
    (injective : Function.Injective2 (hash : H → H → H))
    (small : height ≤ 32) (initial : start.Initial height)
    (additions : List (Addition H))
    (below : ∀ addition, addition ∈ additions → addition.Below height)
    (ran : Addition.runAll .pool additions start = .ok () w)
    (quiet : ∀ dbTx, start.QuietReads dbTx) (networkID : Nat)
    (registered : start.exitTrees networkID =
      some (MerkleTree.emptyTree height networkID))
    {leaves : List H}
    (inserted : additions.flatMap (Addition.leafFor networkID) = leaves) :
    (∃ w' mt, MerkleTree.newMerkleTree Storage.merkleTreeStore height
          networkID w = .ok mt w' ∧
        mt.BehavesAsInserted height networkID leaves) ∧
      (∀ count opened deleted, count ≤ leaves.length →
        Storage.beginDBTransaction w = .ok () opened →
        Deleted .tx networkID count opened deleted →
        ∃ w' mt, BridgeController.reorgMT count networkID .tx deleted =
            .ok () w' ∧ w'.exitTrees networkID = some mt ∧
          mt.BehavesAsInserted height networkID (leaves.take count)) ∧
      ∀ more opened left, Storage.beginDBTransaction w = .ok () opened →
        (Addition.runAll .tx more opened = .ok () left ∨
          ∃ err, Addition.runAll .tx more opened = .error err left) →
        ∃ w' mt, BridgeController.rollbackMT networkID .pool left = .ok () w' ∧
          w'.exitTrees networkID = some mt ∧
          mt.BehavesAsInserted height networkID leaves := by
  obtain ⟨consistent, appended⟩ := Addition.runAll_consistent small additions
    below initial.consistent ran
  have stored : w.committed.leavesOf networkID = leaves := by
    rw [appended, initial.committed, inserted]
    rfl
  have fits := consistent.capacity networkID
  have framed := (runAll_framed additions).ok (.refl start .pool) ran
  obtain ⟨current, registered, _⟩ :=
    held_of_shape initial.consistent registered framed
  have quiet : ∀ dbTx, w.QuietReads dbTx :=
    fun dbTx => quiet_of_framed framed (quiet dbTx)
  refine ⟨?_, ?_, ?_⟩
  · obtain ⟨mt, w', read, _, rfl, _, represents⟩ :=
      (MerkleTree.newMerkleTree_triple consistent.tables small injective
        fits).exists_ok w (.refl w) fun _ _ failed => failed.2 (quiet .pool)
    refine ⟨w', mt, read, ?_⟩
    rw [← stored]
    exact MerkleTree.behavesAsInserted_of_represents small
      (represents (quiet .pool)) fits
  · intro count opened deleted enough began removed
    obtain ⟨framed, view⟩ := begin_framed began
    obtain ⟨t', cut, rfl⟩ := removed.effect consistent.tables view
    have kept := framed_write framed opened.seqs t'
    obtain ⟨held, tree, shape⟩ := held_of_shape consistent registered kept
    have length : (t'.leavesOf networkID).length = count := by
      rw [cut.same, stored, length_take]
      omega
    rw [stored] at fits
    obtain ⟨w', mt, reset, rebuilt, rfl, represents⟩ :=
      reorgMT_represents small injective cut.tables rfl
        (by omega) (Nat.le_of_eq length.symm)
        (quiet_of_framed kept (quiet .tx)) tree shape
    refine ⟨w', mt, reset, rebuilt, ?_⟩
    rw [take_of_length_le (Nat.le_of_eq length), cut.same, stored]
      at represents
    apply MerkleTree.behavesAsInserted_of_represents small represents
    rw [length_take]
    omega
  · intro more opened left began added
    obtain ⟨framed, _⟩ := begin_framed began
    have kept : w.Framed .tx left := by
      rcases added with added | ⟨err, failed⟩
      · exact (runAll_framed more).ok framed added
      · exact (runAll_framed more).error framed failed
    obtain ⟨held, tree, shape⟩ := held_of_shape consistent registered kept
    have same : left.committed = w.committed := kept.committed rfl
    rw [← same] at fits stored
    obtain ⟨w', mt, rolledBack, rebuilt, rfl, represents⟩ :=
      rollbackMT_represents small injective
        (by rw [same]; exact consistent.tables) fits
        (quiet_of_framed kept (quiet .pool)) tree shape
    refine ⟨w', mt, rolledBack, rebuilt, ?_⟩
    rw [← stored]
    exact MerkleTree.behavesAsInserted_of_represents small represents fits

theorem two_deposits_rebuilt :
    ∃ w opened, Addition.runAll .pool sampleAdditions (World.start 2 [1]) =
        .ok () w ∧
      Storage.beginDBTransaction w = .ok () opened ∧
      (∃ w' mt, MerkleTree.newMerkleTree Storage.merkleTreeStore 2 1 w =
          .ok mt w' ∧
        mt.BehavesAsInserted 2 1
          [hashDeposit (sampleDeposit 1 0),
            hashDeposit (sampleDeposit 1 1)]) ∧
      (∃ deleted w' mt, Storage.resetDeposits 1 1 .tx opened =
          .ok () deleted ∧
        BridgeController.reorgMT 1 1 .tx deleted = .ok () w' ∧
        w'.exitTrees 1 = some mt ∧
        mt.BehavesAsInserted 2 1 [hashDeposit (sampleDeposit 1 0)]) ∧
      ∃ left w' mt, Addition.runAll .tx [.ofDeposit (sampleDeposit 1 2)]
          opened = .ok () left ∧
        BridgeController.rollbackMT 1 .pool left = .ok () w' ∧
        w'.exitTrees 1 = some mt ∧
        mt.BehavesAsInserted 2 1
          [hashDeposit (sampleDeposit 1 0),
            hashDeposit (sampleDeposit 1 1)] := by
  have returned : returns (do
      Addition.runAll .pool sampleAdditions
      Storage.beginDBTransaction)
      (fun _ opened =>
        returns (Storage.resetDeposits 1 1 .tx) (fun _ _ => true) opened &&
          returns (Addition.runAll .tx [.ofDeposit (sampleDeposit 1 2)])
            (fun _ _ => true) opened)
      (World.start 2 [1] : World Digest) = true := by
    decide +kernel
  obtain ⟨_, opened, ran, checked⟩ := exists_of_returns returned
  obtain ⟨_, w, ran, began⟩ := bind_ok ran
  obtain ⟨resets, adds⟩ := Bool.and_eq_true_iff.mp checked
  obtain ⟨_, deleted, removed, _⟩ := exists_of_returns resets
  obtain ⟨_, left, added, _⟩ := exists_of_returns adds
  obtain ⟨restarted, reorganised, abandoned⟩ :=
    rebuilt_trees_behave_as_inserted Digest.hash_injective (by decide)
      (World.start_initial 2 [1]) sampleAdditions sampleAdditions_below ran
      (fun _ => ⟨nofun, nofun, nofun⟩) 1 rfl rfl
  obtain ⟨w₁, mt₁, reset⟩ := reorganised 1 opened deleted (by decide) began
    (.byResetDeposits removed)
  obtain ⟨w₂, mt₂, rolledBack⟩ := abandoned _ opened left began (.inl added)
  exact ⟨w, opened, ran, began, restarted, ⟨deleted, w₁, mt₁, removed, reset⟩,
    left, w₂, mt₂, added, rolledBack⟩

end Rebuilding

end BridgeService
