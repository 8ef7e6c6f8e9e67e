import BridgeService.Lib.Frontier
import BridgeService.Server.Acceptance
import BridgeService.Storage.Chain

/-!
# The data for moving an exit tree backward

To move the exit tree of a network back to a count of deposits, the contract
asks for the leaf at that count with its proof, and for the frontier of the
leaves before it.  The service reads the proof under the last root of the
network.  The frontier is the part of the proof at the set bits of the count.
-/

namespace BridgeService

open ErrorState PaddedTree List

variable {H : Type} [DecidableEq H] [Externals H]

structure BackwardLETData (H : Type) where
  root : H
  leafHash : H
  rollupMerkleProof : List H
  frontier : List H
deriving DecidableEq

namespace BridgeServer

def getLeaf (index networkID : Nat) : Serving H H :=
  handle
    (do
      let deposit ← onStorage (Storage.getDeposit index networkID .pool)
      pure (hashDeposit deposit))
    fun
    | .storageNotFound => pure hashZero
    | err => throw err

def computeFrontierFromProof (s : BridgeServer) (n : Nat) (proof : List H) :
    Except Err (List H) :=
  if proof.length ≠ s.height then
    .error (.proofLength proof.length s.height)
  else
    .ok ((List.range s.height).map fun i =>
      if (n >>> i) &&& 1 = 1 then proof.getD i hashZero else hashZero)

def getBackwardLETData (s : BridgeServer) (depositCnt netId : Nat) :
    Serving H (BackwardLETData H) :=
  if netId = 0 then throw .backwardLETOfL1
  else do
    let leafHash ← getLeaf depositCnt netId
    let root ← onStorage (Storage.getLastComputedRoot netId .pool)
    let rollupMerkleProof ← s.getProof depositCnt root .pool
    let frontier ← MonadExcept.ofExcept
      (s.computeFrontierFromProof depositCnt rollupMerkleProof)
    pure
      { root := root
        leafHash := leafHash
        rollupMerkleProof := rollupMerkleProof
        frontier := frontier }

end BridgeServer

/-- The root that the contract computes from a frontier and a count. -/
def frontierRoot (frontier : List H) (count : Nat) : Nat → H
  | 0 => hashZero
  | level + 1 =>
    if count.testBit level then
      hash (frontier.getD level hashZero) (frontierRoot frontier count level)
    else
      hash (frontierRoot frontier count level) (zeroHashes level)

/-- The answer leads from the leaf at a count to the root of all leaves, and
its frontier is that of the leaves before the count. -/
structure BackwardLETData.Valid (data : BackwardLETData H) (height count : Nat)
    (leaves : List H) : Prop where
  root : data.root = treeRoot height leaves
  leaf : leaves[count]? = some data.leafHash
  proof : MerkleTree.calculateRoot data.leafHash data.rollupMerkleProof count
    height = data.root
  length : data.frontier.length = height
  frontier : frontierRoot data.frontier count height =
    treeRoot height (leaves.take count)
  clear : ∀ level, level < height → count.testBit level = false →
    data.frontier[level]? = some hashZero

section Frontiers

omit [DecidableEq H]

theorem frontierRoot_eq_climb (frontier : List H) (count height : Nat) :
    frontierRoot frontier count height = climb hash
        (fun level =>
          if count.testBit level then frontier.getD level hashZero
          else zeroHashes level)
        count hashZero height := by
  induction height with
  | zero => rfl
  | succ height induction =>
    rw [frontierRoot, climb, induction]
    by_cases set : count.testBit height = true
    · simp [set]
    · simp [set]

theorem frontierRoot_take {leaves frontier : List H} {height count : Nat}
    (small : height ≤ 64) (fits : count < 2 ^ height)
    (left : ∀ level, level < height → count.testBit level = true →
      frontier.getD level hashZero =
        treeNode leaves level (siblingPosition count level)) :
    frontierRoot frontier count height =
      treeRoot height (leaves.take count) := by
  rw [frontierRoot_eq_climb]
  have own : Frontier hash (padded hashZero leaves) height count
      fun level =>
        if count.testBit level then frontier.getD level hashZero
        else zeroHashes level := by
    intro level below set
    dsimp only
    rw [if_pos set, left level below set, siblingPosition, if_pos set]
    rfl
  have before : ∀ index, index < count →
      padded hashZero leaves index =
        padded hashZero (leaves.take count) index := by
    intro index inside
    rw [padded_take, if_pos inside]
  apply (own.congr before).climb_eq
  · intro level below clear
    have inTable : level ≤ 64 := below.le.trans small
    rw [if_neg (by simp [clear]), zeroHashes_eq_emptyNode inTable]
  · intro index outside
    rw [padded_take, if_neg (Nat.not_lt.mpr outside)]
  · exact fits

end Frontiers

namespace BridgeServer

variable {base : World H} {t : Tables H} {s : BridgeServer} {height : Nat}

omit [DecidableEq H] in
theorem onStorage_found {α : Type} {call : Service H α}
    {value : α} (quiet : ∀ statement, ¬base.Faulty statement .pool)
    (answers : call.Answers base .pool (.ok value)) :
    Triple (Serves base) (onStorage call)
      (fun found state => found = value ∧ Serves base state)
      fun _ _ => False := by
  apply (onStorage_answers answers).weaken
  · rintro found state ⟨serves, same⟩
    exact ⟨(Except.ok.inj same).symm, serves⟩
  · rintro err state ⟨_, impossible | ⟨statement, tick, fault⟩⟩
    · contradiction
    · exact quiet statement ⟨tick, fault⟩

omit [DecidableEq H] in
theorem getLeaf_triple
    (quiet : ∀ statement, ¬base.Faulty statement .pool)
    (view : base.view .pool = some t) {index networkID : Nat}
    {deposit : Deposit H}
    (found : t.getDeposit index networkID = .ok deposit) :
    Triple (Serves base) (getLeaf index networkID)
      (fun leaf state => leaf = hashDeposit deposit ∧ Serves base state)
      fun _ _ => False := by
  have answers : (Storage.getDeposit index networkID .pool).Answers base .pool
      (.ok deposit) := by
    rw [← found]
    exact Storage.query_answers _ view
  have body : Triple (Serves base)
      (do
        let deposit ← onStorage (Storage.getDeposit index networkID .pool)
        pure (hashDeposit deposit))
      (fun leaf state => leaf = hashDeposit deposit ∧ Serves base state)
      fun _ _ => False := by
    apply Triple.bind (onStorage_found quiet answers)
    intro other
    apply Triple.of_pure
    rintro rfl
    exact .pure fun _ serves => ⟨rfl, serves⟩
  apply Triple.handle body
  intro err state impossible
  exact impossible.elim

omit [DecidableEq H] in
theorem getLastComputedRoot_triple
    (quiet : ∀ statement, ¬base.Faulty statement .pool)
    (view : base.view .pool = some t) {networkID : Nat} {root : H}
    (found : t.getLastComputedRoot networkID = .ok root) :
    Triple (Serves base)
      (onStorage (Storage.getLastComputedRoot networkID .pool))
      (fun answer state => answer = root ∧ Serves base state)
      fun _ _ => False := by
  apply onStorage_found quiet
  have read : (Storage.query .getLastComputedRoot .pool fun t =>
      t.getLastComputedRoot networkID).Answers base .pool (.ok root) := by
    rw [← found]
    exact Storage.query_answers _ view
  apply Triple.handle read
  rintro err state ⟨ticked, impossible | fault⟩
  · contradiction
  · exact ⟨ticked, .inr fault⟩

omit [DecidableEq H] in
theorem computeFrontierFromProof_ok {n : Nat} {proof : List H}
    (length : proof.length = s.height) :
    ∃ frontier, s.computeFrontierFromProof n proof = .ok frontier ∧
      frontier.length = s.height ∧
      ∀ level, level < s.height → frontier[level]? =
        some (if n.testBit level then proof.getD level hashZero
          else hashZero) := by
  refine ⟨_, if_neg (not_not.mpr length), by simp, ?_⟩
  intro level below
  rw [getElem?_map, getElem?_range below, Option.map_some]
  simp only [Nat.testBit_eq_decide_div_mod_eq, Nat.and_one_is_mod,
    Nat.shiftRight_eq_div_pow, decide_eq_true_eq]

omit [DecidableEq H] in
theorem valid_of_siblings {leaves proof frontier : List H} {leaf : H}
    {count : Nat} (small : height ≤ 64) (fits : count < 2 ^ height)
    (found : leaves[count]? = some leaf)
    (own : ∀ level, level < height → proof.getD level hashZero =
      treeNode leaves level (siblingPosition count level))
    (length : frontier.length = height)
    (entries : ∀ level, level < height → frontier[level]? =
      some (if count.testBit level then proof.getD level hashZero
        else hashZero)) :
    BackwardLETData.Valid
      { root := treeRoot height leaves
        leafHash := leaf
        rollupMerkleProof := proof
        frontier := frontier } height count leaves where
  root := rfl
  leaf := found
  proof := by
    have climbed := MerkleTree.calculateRoot_own_siblings fits own
    rw [padded, getD_eq_getElem?_getD, found] at climbed
    exact climbed
  length := length
  frontier := by
    apply frontierRoot_take small fits
    intro level below set
    rw [← own level below, getD_eq_getElem?_getD, entries level below,
      if_pos set]
    rfl
  clear := by
    intro level below clear
    rw [entries level below, if_neg (by simp [clear])]

theorem getBackwardLETData_valid (tree : t.TreeTables height)
    (chained : t.Chained)
    (injective : Function.Injective2 (hash : H → H → H))
    (quiet : ∀ statement, ¬base.Faulty statement .pool)
    (view : base.view .pool = some t) (sameHeight : s.height = height)
    (small : height ≤ 64) {networkID count : Nat} (l2 : networkID ≠ 0)
    (capacity : (t.leavesOf networkID).length ≤ 2 ^ height)
    (inside : count < (t.leavesOf networkID).length) :
    Triple (Serves base) (s.getBackwardLETData count networkID)
      (fun data state => data.Valid height count (t.leavesOf networkID) ∧
        Serves base state)
      fun _ _ => False := by
  obtain ⟨row, stored, network, position⟩ := tree.exists_deposit inside
  subst network position
  obtain ⟨deposit, found⟩ := chained.getDeposit_found stored
  obtain ⟨number, rfl⟩ := tree.getDeposit_eq stored found
  have nonempty : 0 < (t.leavesOf row.networkID).length := by omega
  have whole : (t.leavesOf row.networkID).take
      ((t.leavesOf row.networkID).length - 1 + 1) =
        t.leavesOf row.networkID := by
    rw [Nat.sub_add_cancel nonempty, take_length]
  have walk := getProof_siblings tree injective view
    (Nat.sub_lt nonempty Nat.one_pos) (Nat.le_sub_one_of_lt inside)
    (inside.trans_le capacity) s sameHeight
  rw [whole] at walk
  rw [getBackwardLETData, if_neg l2]
  apply Triple.bind (getLeaf_triple quiet view found)
  intro leaf
  apply Triple.of_pure
  rintro rfl
  apply Triple.bind (getLastComputedRoot_triple quiet view
    (tree.getLastComputedRoot_eq nonempty))
  intro root
  apply Triple.of_pure
  rintro rfl
  apply Triple.bind (walk.onError fun _ _ failed => quiet _ failed.2)
  rintro proof state ⟨serves, rfl⟩
  have length : (ownSiblings (t.leavesOf row.networkID) row.depositCnt
      height).reverse.length = s.height := by
    rw [length_reverse, length_ownSiblings, sameHeight]
  obtain ⟨frontier, computed, frontierLength, entries⟩ :=
    computeFrontierFromProof_ok (n := row.depositCnt) length
  rw [computed]
  rw [sameHeight] at frontierLength entries
  refine ⟨valid_of_siblings small (inside.trans_le capacity)
    (tree.leaf_at stored) ?_ frontierLength entries, serves⟩
  intro level below
  exact siblingAt_ownSiblings _ _ below

end BridgeServer

end BridgeService
