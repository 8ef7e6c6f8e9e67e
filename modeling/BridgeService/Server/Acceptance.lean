import BridgeService.Server.ClaimProof
import BridgeService.Server.RollupProof
import BridgeService.Storage.Roots

/-!
# Proofs that the contract accepts

Whatever a method returns is a proof for some leaf under the exit root that the
chosen entry has for the network.  The contract accepts it for a deposit
exactly if the tree with that root has the leaf of the deposit at its position.
-/

namespace BridgeService

open ErrorState PaddedTree List

variable {H α : Type} [DecidableEq H] [Externals H]

section Selection

variable {base : World H} {dbTx : Querier} {t : Tables H}

/-- A program answers what is read from the tables, unless a statement
fails. -/
def Service.Answers (call : Service H α) (base : World H) (dbTx : Querier)
    (answer : Except Err α) : Prop :=
  Triple base.Ticked call
    (fun value w => base.Ticked w ∧ answer = .ok value)
    (fun err w => base.Ticked w ∧
      (answer = .error err ∨ ∃ statement, base.Faulty statement dbTx))

omit [DecidableEq H] [Externals H] in
theorem Storage.query_answers {call : StorageCall}
    (read : Tables H → Except Err α) (view : base.view dbTx = some t) :
    (Storage.query call dbTx read).Answers base dbTx (read t) := by
  refine (Storage.query_triple read view).onError ?_
  rintro err w ⟨ticked, failed | ⟨_, fault⟩⟩
  · exact ⟨ticked, .inl failed⟩
  · exact ⟨ticked, .inr ⟨call, fault⟩⟩

omit [Externals H] in
private theorem completeFromL1_answers {row : ExitRootRow H}
    (view : base.view dbTx = some t)
    (incomplete : row.exitRoots.length ≠ 2) :
    (Storage.completeFromL1 row.globalExitRoot dbTx).Answers base dbTx
      (t.entryRoots row) := by
  have read : (Storage.getL1ExitRootByGER row.globalExitRoot dbTx).Answers
      base dbTx (t.getL1ExitRootByGER row.globalExitRoot) :=
    Storage.query_answers _ view
  rw [Tables.entryRoots, if_neg incomplete]
  refine .bind (.handle read fun err => ?_) fun l1GER =>
    .pure ?_
  · cases err with
    | _ =>
      refine .throw ?_
      rintro w ⟨ticked, failed | fault⟩
      · exact ⟨ticked, .inl (by rw [failed])⟩
      · exact ⟨ticked, .inr fault⟩
  · rintro w ⟨ticked, found⟩
    exact ⟨ticked, by rw [found]⟩

omit [Externals H] in
theorem Storage.getLatestTrustedExitRoot_answers
    (view : base.view dbTx = some t) (networkID : Nat) :
    (Storage.getLatestTrustedExitRoot networkID dbTx).Answers base dbTx
      (t.trustedExitRoot networkID) := by
  refine .bind ((Storage.query_answers _ view).onError ?_) fun row => ?_
  · rintro err w ⟨ticked, failed | fault⟩
    · refine ⟨ticked, .inl ?_⟩
      split at failed
      · next here =>
        rw [Tables.trustedExitRoot, here, ← Except.error.inj failed]
      · contradiction
    · exact ⟨ticked, .inr fault⟩
  · rintro w ⟨ticked, found⟩
    split at found
    · contradiction
    next here =>
    rw [Except.ok.inj found] at here
    rw [Tables.trustedExitRoot, here]
    dsimp only
    refine Triple.ite (fun complete => ?_) (fun incomplete => ?_) w ticked
    · refine .pure fun w ticked => ⟨ticked, ?_⟩
      rw [Tables.entryRoots, if_pos complete]
    · refine .bind ((completeFromL1_answers view
        incomplete).onError ?_) fun exitRoots => .pure ?_
      · rintro err w ⟨ticked, failed | fault⟩
        · exact ⟨ticked, .inl (by rw [failed])⟩
        · exact ⟨ticked, .inr fault⟩
      · rintro w ⟨ticked, found⟩
        exact ⟨ticked, by rw [found]⟩

omit [Externals H] in
theorem Storage.getLatestExitRoot_answers
    (view : base.view dbTx = some t) (destNetwork : Nat) :
    (Storage.getLatestExitRoot destNetwork dbTx).Answers base dbTx
      (if destNetwork ≠ 0 then t.trustedExitRoot destNetwork
        else t.getLatestL1SyncedExitRoot) := by
  rw [Storage.getLatestExitRoot]
  split
  · exact Storage.getLatestTrustedExitRoot_answers view destNetwork
  · exact Storage.query_answers _ view

end Selection

section Paths

variable {height index : Nat} {root leaf : H} {proof : List H}

omit [DecidableEq H] in
theorem calculateRoot_eq_iff_hasLeaf
    (injective : Function.Injective2 (hash : H → H → H)) {other : H}
    (reached : MerkleTree.calculateRoot other proof index height = root) :
    MerkleTree.calculateRoot leaf proof index height = root ↔
      HasLeaf hash height root index leaf := by
  rw [MerkleTree.calculateRoot_eq_climb] at reached ⊢
  constructor
  · intro same
    exact ⟨_, same⟩
  · rintro ⟨sibling, same⟩
    rw [climb_injective injective (same.trans reached.symm)]
    exact reached

omit [DecidableEq H] in
theorem calculateRoot_injective
    (injective : Function.Injective2 (hash : H → H → H)) {other : H} :
    MerkleTree.calculateRoot leaf proof index height =
        MerkleTree.calculateRoot other proof index height ↔
      leaf = other := by
  constructor
  · intro same
    rw [MerkleTree.calculateRoot_eq_climb,
      MerkleTree.calculateRoot_eq_climb] at same
    exact climb_injective injective same
  · intro same
    rw [same]

theorem BridgeServer.rollupProofOf_ok {leaves : List H} (small : height ≤ 64)
    (computed : BridgeServer.rollupProofOf height index root leaves =
      .ok (proof, leaf)) :
    leaves[index]? = some leaf ∧
      MerkleTree.calculateRoot leaf proof index height = root := by
  have parts : ∃ siblings, MerkleTree.computeSiblings index leaves height =
      .ok (siblings, root) ∧ leaves[index]? = some leaf := by
    rw [BridgeServer.rollupProofOf] at computed
    cases path : MerkleTree.computeSiblings index leaves height with
    | error err =>
      rw [path] at computed
      contradiction
    | ok found =>
      obtain ⟨siblings, top⟩ := found
      rw [path] at computed
      by_cases same : root = top
      · by_cases empty : siblings.length = 0 ∨ leaves.length = 0
        · simp only [bind, Except.bind, same, ne_eq, not_true_eq_false,
            if_false, empty, if_true] at computed
          contradiction
        · simp only [bind, Except.bind, same, ne_eq, not_true_eq_false,
            if_false, empty] at computed
          split at computed
          · contradiction
          · next value found =>
            have both := Except.ok.inj computed
            simp only [Prod.mk.injEq] at both
            exact ⟨siblings, by rw [same], by rw [found, both.2]⟩
      · simp only [bind, Except.bind, same, ne_eq, not_false_eq_true,
          if_true] at computed
        contradiction
  obtain ⟨siblings, path, found⟩ := parts
  obtain ⟨positive, fits, inside⟩ := MerkleTree.computeSiblings_ok small path
  rw [MerkleTree.computeSiblings_spec positive small inside fits] at path
  simp only [Except.ok.injEq, Prod.mk.injEq] at path
  obtain ⟨own, answered, climbs⟩ :=
    BridgeServer.rollupProofOf_eq positive small fits found
  rw [path.2, computed] at answered
  simp only [Except.ok.injEq, Prod.mk.injEq] at answered
  rw [path.2, ← answered.1] at climbs
  exact ⟨found, climbs⟩

end Paths

namespace BridgeServer

variable {base : World H} {dbTx : Querier} {t : Tables H}
  {s : BridgeServer} {height networkID depositCnt : Nat}

omit [DecidableEq H] in
theorem onStorage_answers {call : Service H α} {answer : Except Err α}
    (answers : call.Answers base dbTx answer) :
    Triple (Serves base) (onStorage call)
      (fun value state => Serves base state ∧ answer = .ok value)
      (fun err state => Serves base state ∧
        (answer = .error err ∨
          ∃ statement, base.Faulty statement dbTx)) := by
  apply (onStorage_triple NodeCache.Valid answers).weaken
  · exact fun _ _ result => ⟨⟨result.1, result.2.1⟩, result.2.2⟩
  · exact fun _ _ failed => ⟨⟨failed.1, failed.2.1⟩, failed.2.2⟩

omit [DecidableEq H] [Externals H] in
theorem orFail_triple {before : NodeCache H × World H → Prop}
    {call : Serving H α} {wrap : Err → Err}
    {after : α → NodeCache H × World H → Prop}
    {failed : NodeCache H × World H → Prop}
    (triple : Triple before call after fun _ => failed) :
    Triple before (orFail wrap call) after fun _ => failed := by
  refine .handle triple fun err => ?_
  cases err with
  | _ => exact .throw fun _ holds => holds

theorem getRollupExitProof_sound (small : s.height ≤ 64)
    (view : base.view dbTx = some t) (rollupIndex : Nat) (root : H) :
    Triple (Serves base) (s.getRollupExitProof rollupIndex root dbTx)
      (fun result state => Serves base state ∧
        ((t.getRollupExitLeavesByRoot root)[rollupIndex]?).map
          RollupExitLeaf.leaf = some result.2 ∧
        MerkleTree.calculateRoot result.2 result.1 rollupIndex s.height = root)
      (fun _ => Serves base) := by
  have read : (Storage.getRollupExitLeavesByRoot root dbTx).Answers base
      dbTx (.ok (t.getRollupExitLeavesByRoot root)) :=
    Storage.query_answers _ view
  refine .bind
    ((onStorage_answers read).onError fun _ _ failed => failed.1)
      fun leaves => ?_
  rintro state ⟨serves, found⟩
  rw [Except.ok.inj found]
  cases computed : rollupProofOf s.height rollupIndex root
      (leaves.map RollupExitLeaf.leaf) with
  | error err => exact serves
  | ok result =>
    obtain ⟨leaf, climbs⟩ := rollupProofOf_ok small computed
    rw [getElem?_map] at leaf
    exact ⟨serves, leaf, climbs⟩

theorem merkleProofs_sound (tree : t.TreeTables height)
    (injective : Function.Injective2 (hash : H → H → H))
    (sameHeight : s.height = height) (small : height ≤ 64)
    (view : base.view dbTx = some t) (texts : ProofTexts)
    (ger : GlobalExitRoot H) :
    Triple (Serves base)
      (s.merkleProofs texts depositCnt networkID ger dbTx)
      (fun proof state => Serves base state ∧ ∃ root,
        t.localExitRoot networkID ger.exitRoots = some root ∧
        ∀ leaf, proof.Accepted height depositCnt networkID leaf ↔
          HasLeaf hash height root depositCnt leaf)
      (fun _ => Serves base) := by
  subst sameHeight
  have exitRoot : ∀ index : Nat, Triple (Serves base)
      (exitRootAt ger index)
      (fun root state => Serves base state ∧
        ger.exitRoots[index]? = some root)
      (fun _ => Serves base) := by
    intro index
    rw [exitRootAt.eq_def]
    split
    · exact .throw fun _ serves => serves
    · next found => exact .pure fun _ serves => ⟨serves, found⟩
  refine .ite (fun l1 => ?_) fun l2 => ?_
  · refine .bind (exitRoot 0) fun root => ?_
    rintro state ⟨serves, first⟩
    refine Triple.bind (orFail_triple (getProof_sound tree view s depositCnt
      root)) (fun merkleProof => .pure ?_) state serves
    rintro state ⟨serves, leaf, reached⟩
    refine ⟨serves, root, by rw [Tables.localExitRoot, if_pos l1, first], ?_⟩
    intro other
    rw [ClaimProof.Accepted, if_pos l1, first,
      ← calculateRoot_eq_iff_hasLeaf injective reached, Option.some.injEq,
      eq_comm]
  · refine .bind (exitRoot 1) fun rollupExitRoot => ?_
    rintro state ⟨serves, second⟩
    refine Triple.bind (orFail_triple (getRollupExitProof_sound small view
      (networkID - 1) rollupExitRoot)) (fun answer => ?_) state serves
    obtain ⟨rollupMerkleProof, rollupLeaf⟩ := answer
    rintro state ⟨serves, found, climbs⟩
    refine Triple.bind (orFail_triple (getProof_sound tree view s depositCnt
      rollupLeaf)) (fun merkleProof => .pure ?_) state serves
    rintro state ⟨serves, leaf, reached⟩
    refine ⟨serves, rollupLeaf, ?_, ?_⟩
    · rw [Tables.localExitRoot, if_neg l2, second]
      exact found
    · intro other
      rw [ClaimProof.Accepted, if_neg l2, second,
        ← calculateRoot_eq_iff_hasLeaf injective reached,
        Option.some.injEq, ← climbs, calculateRoot_injective injective,
        eq_comm]

end BridgeServer

omit [DecidableEq H] in
theorem Tables.TreeTables.getDeposit_eq {t : Tables H} {height : Nat}
    (tree : t.TreeTables height) {d : DepositRow H} (stored : d ∈ t.deposit)
    {deposit : Deposit H}
    (found : t.getDeposit d.depositCnt d.networkID = .ok deposit) :
    ∃ number, deposit = d.toDeposit number := by
  rw [Tables.getDeposit] at found
  split at found
  · contradiction
  next answer here =>
  rw [Except.ok.inj found] at here
  obtain ⟨row, rowIn, matching⟩ := exists_of_findSome?_eq_some here
  split at matching
  · next same =>
    obtain ⟨number, _, value⟩ := Option.map_eq_some_iff.mp matching
    have entry := tree.ledger.eq_of_position
      (mem_entries.mpr ⟨row, rowIn, rfl⟩) (mem_entries.mpr ⟨d, stored, rfl⟩)
      same.1 same.2
    have ids : (t.deposit.map DepositRow.id).Nodup := by
      have distinct := tree.ledger.ids_nodup
      rw [entries, map_map] at distinct
      exact distinct
    have sameID : row.id = d.id := congrArg Ledger.Entry.id entry
    rw [inj_on_of_nodup_map ids rowIn stored sameID] at value
    exact ⟨number, value.symm⟩
  · contradiction

section Calls

variable {base : World H} {dbTx : Querier} {t : Tables H}
  {s : BridgeServer} {height : Nat} {d : DepositRow H}

open BridgeServer

/-- A proof is accepted for the leaves that the tree under the entry of the
call has at the position of the deposit. -/
def ClaimProof.Proves (height : Nat) (t : Tables H) (s : BridgeServer)
    (call : ClaimProofCall H) (d : DepositRow H) (proof : ClaimProof H) :
    Prop :=
  ∃ entry root, t.claimEntry s call d.networkID d.destNet = .ok entry ∧
    t.localExitRoot d.networkID entry.exitRoots = some root ∧
    ∀ leaf, proof.Accepted height d.depositCnt d.networkID leaf ↔
      HasLeaf hash height root d.depositCnt leaf

theorem ClaimProofCall.run_sound (tree : t.TreeTables height)
    (injective : Function.Injective2 (hash : H → H → H))
    (sameHeight : s.height = height) (small : height ≤ 64)
    (view : base.view dbTx = some t) (stored : d ∈ t.deposit)
    (call : ClaimProofCall H) :
    Triple (Serves base) (call.run s d.depositCnt d.networkID dbTx)
      (fun proof state => Serves base state ∧
        proof.Proves height t s call d)
      (fun _ => Serves base) := by
  have proofs : ∀ texts entry,
      t.claimEntry s call d.networkID d.destNet = .ok entry →
      Triple (Serves base)
        (s.merkleProofs texts d.depositCnt d.networkID entry dbTx)
        (fun proof state => Serves base state ∧
          proof.Proves height t s call d)
        (fun _ => Serves base) := by
    intro texts entry chosen
    apply (merkleProofs_sound tree injective sameHeight small view texts
      entry).weaken
    · rintro proof state ⟨serves, root, under, accepted⟩
      exact ⟨serves, entry, root, chosen, under, accepted⟩
    · exact fun _ _ failed => failed
  have reads : ∀ {α : Type} {call : Service H α} {answer : Except Err α},
      call.Answers base dbTx answer →
      Triple (Serves base) (onStorage call)
        (fun value state => Serves base state ∧ answer = .ok value)
        (fun _ => Serves base) :=
    fun answers => (onStorage_answers answers).onError
      fun _ _ failed => failed.1
  have deposit : (Storage.getDeposit d.depositCnt d.networkID dbTx).Answers
      base dbTx (t.getDeposit d.depositCnt d.networkID) :=
    Storage.query_answers _ view
  have l1Entry : ∀ ger, (Storage.getL1ExitRootByGER ger dbTx).Answers base
      dbTx (t.getL1ExitRootByGER ger) :=
    fun ger => Storage.query_answers _ view
  cases call with
  | latest =>
    refine .bind (reads deposit) fun found => ?_
    rintro state ⟨serves, answer⟩
    obtain ⟨number, rfl⟩ := tree.getDeposit_eq stored answer
    have latest := Storage.getLatestExitRoot_answers view d.destNet
    refine Triple.ite (fun _ => ?_) (fun _ => ?_) state serves
    · exact fun _ serves => serves
    refine .ite (fun own => ?_) fun other => ?_
    · refine .bind (reads (Storage.getLatestTrustedExitRoot_answers
        view d.networkID)) fun entry => ?_
      rintro state ⟨serves, chosen⟩
      apply proofs _ entry _ state serves
      exact (if_pos own).trans chosen
    · refine .bind (reads latest) fun entry => ?_
      rintro state ⟨serves, chosen⟩
      apply proofs _ entry _ state serves
      exact (if_neg other).trans chosen
  | byGER ger =>
    have rest : Triple (Serves base) (do
        let globalExitRoot ← orFail .gettingGlobalExitRoot
          (onStorage (Storage.getL1ExitRootByGER ger dbTx))
        s.merkleProofs proofTextsByGER d.depositCnt d.networkID
          globalExitRoot dbTx)
        (fun proof state => Serves base state ∧
          proof.Proves height t s (.byGER ger) d)
        (fun _ => Serves base) := by
      refine .bind (orFail_triple (reads (l1Entry ger)))
        fun entry => ?_
      rintro state ⟨serves, chosen⟩
      exact proofs _ entry chosen state serves
    refine .ite (fun api => ?_) fun _ => rest
    subst api
    refine .bind (orFail_triple (reads deposit)) fun _ => ?_
    rintro state ⟨serves, _⟩
    exact rest state serves
  | forCompressed ger =>
    have rest : Triple (Serves base) (do
        let globalExitRoot ←
          onStorage (Storage.getL1ExitRootByGER ger dbTx)
        s.merkleProofs proofTexts d.depositCnt d.networkID globalExitRoot dbTx)
        (fun proof state => Serves base state ∧
          proof.Proves height t s (.forCompressed ger) d)
        (fun _ => Serves base) := by
      refine .bind (reads (l1Entry ger)) fun entry => ?_
      rintro state ⟨serves, chosen⟩
      exact proofs _ entry chosen state serves
    refine .ite (fun api => ?_) fun _ => rest
    subst api
    refine .bind (reads deposit) fun _ => ?_
    rintro state ⟨serves, _⟩
    refine Triple.ite (fun _ => ?_) (fun _ => rest) state serves
    exact fun _ serves => serves

end Calls

end BridgeService
