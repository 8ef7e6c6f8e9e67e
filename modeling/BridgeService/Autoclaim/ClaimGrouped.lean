import BridgeService.Bridgectrl.Hash

/-!
# Grouped claims of the auto claim service

The service asks for the pending bridges and for a proof of each, splits both
lists into chunks, and sends one compressed transaction for the bridges of a
chunk whose gas can be estimated.  A chunk without such a bridge ends the pass.
-/

namespace BridgeService

open List

structure PendingBridge where
  leafType : Nat
  origNet : Nat
  origAddr : String
  amount : String
  destNet : Nat
  destAddr : String
  metadata : String
  globalIndex : String
  depositCnt : Nat
  networkId : Nat
deriving DecidableEq

structure GetProofResponse where
  merkleProof : List String
  rollupMerkleProof : List String
  mainExitRoot : String
  rollupExitRoot : String
deriving DecidableEq

/-- The data of one claim; a text that is no number leaves a field unset. -/
structure Autoclaim.CompressClaimCallData (H : Type) where
  smtProofLocalExitRoot : List H
  smtProofRollupExitRoot : List H
  globalIndex : Option Int
  originNetwork : Nat
  originAddress : Address
  destinationAddress : Address
  amount : Option Int
  metadata : Bytes
  isMessage : Bool
deriving DecidableEq

inductive AutoclaimErr
  | call (text : String)
  | lengths
  | panic
deriving DecidableEq

abbrev ListedBridge : Type :=
  PendingBridge × Nat

/-- The answers that a pass gets from the bridge service and from the node, and
the conversions of texts. -/
structure Autoclaim (H : Type) where
  maxNumberOfClaimsPerGroup : Nat
  hexToHash : String → H
  hexToAddress : String → Address
  fromHex : String → Bytes
  setString : String → Option Int
  getBridgesToClaim : Except AutoclaimErr (List PendingBridge)
  getProof : ListedBridge → Except AutoclaimErr GetProofResponse
  getProofByGER : H → ListedBridge → Except AutoclaimErr GetProofResponse
  estimateGasClaim : ListedBridge → (mainnetExitRoot rollupExitRoot : H) →
    Autoclaim.CompressClaimCallData H → Except AutoclaimErr Unit
  compressClaimCall : (mainnetExitRoot rollupExitRoot : H) →
    List (Autoclaim.CompressClaimCallData H) → Except AutoclaimErr Bytes
  sendCompressedClaims : Bytes → Except AutoclaimErr Unit

namespace Autoclaim

section Split

variable {α β : Type}

def splitLoop (size : Nat) : Nat → List α → List (List α)
  | 0, _ => []
  | fuel + 1, arr =>
    if 0 < arr.length then
      let size := if arr.length < size then arr.length else size
      arr.take size :: splitLoop size fuel (arr.drop size)
    else
      []

def arraySplitter (arr : List α) (size : Nat) : List (List α) :=
  splitLoop size arr.length arr

private theorem splitLoop_flatten {size : Nat} (positive : 1 ≤ size)
    (fuel : Nat) (arr : List α) (enough : arr.length ≤ fuel) :
    (splitLoop size fuel arr).flatten = arr := by
  induction fuel generalizing arr size with
  | zero => simpa [splitLoop] using (length_eq_zero_iff.mp (by omega)).symm
  | succ fuel induction =>
    rw [splitLoop]
    split
    · next some =>
      dsimp only
      rw [flatten_cons, induction (by split <;> omega) _
        (by rw [length_drop]; split <;> omega), take_append_drop]
    · next none => simpa using (length_eq_zero_iff.mp (by omega)).symm

private theorem splitLoop_zip (size fuel : Nat) {arr : List α}
    {other : List β} (same : arr.length = other.length) :
    zipWith zip (splitLoop size fuel arr) (splitLoop size fuel other) =
      splitLoop size fuel (arr.zip other) := by
  induction fuel generalizing arr other size with
  | zero => rfl
  | succ fuel induction =>
    simp only [splitLoop, length_zip, ← same, Nat.min_self]
    split
    · rw [zipWith_cons_cons, induction _ (by simp [same])]
      simp only [zip, take_zipWith, drop_zipWith]
    · rfl

end Split

variable {H : Type} [Externals H]

/-- A proof as an array of 32 words; longer ones are out of range. -/
def smtProof (ac : Autoclaim H) (words : List String) : List H :=
  words.map ac.hexToHash ++ replicate (32 - words.length) hashZero

/-- The copy of the two proofs stays in range. -/
def InRange (proof : GetProofResponse) : Prop :=
  proof.merkleProof.length ≤ 32 ∧
    proof.merkleProof.length ≤ proof.rollupMerkleProof.length

instance (proof : GetProofResponse) : Decidable (InRange proof) :=
  inferInstanceAs (Decidable (_ ∧ _))

def claimData (ac : Autoclaim H) (b : PendingBridge) (p : GetProofResponse) :
    CompressClaimCallData H :=
  { smtProofLocalExitRoot := ac.smtProof p.merkleProof
    smtProofRollupExitRoot :=
      ac.smtProof (p.rollupMerkleProof.take p.merkleProof.length)
    globalIndex := ac.setString b.globalIndex
    originNetwork := b.origNet
    originAddress := ac.hexToAddress b.origAddr
    destinationAddress := ac.hexToAddress b.destAddr
    amount := ac.setString b.amount
    metadata := ac.fromHex b.metadata
    isMessage := b.leafType = 1 }

variable (ac : Autoclaim H) (mainnetExitRoot rollupExitRoot : H)

def estimated (entry : ListedBridge × GetProofResponse) :
    Option (CompressClaimCallData H) :=
  let claim := ac.claimData entry.1.1 entry.2
  match ac.estimateGasClaim entry.1 mainnetExitRoot rollupExitRoot claim with
  | .ok _ => some claim
  | .error _ => none

def allClaimData : List (ListedBridge × GetProofResponse) →
    Except AutoclaimErr (List (CompressClaimCallData H))
  | [] => .ok []
  | entry :: rest =>
    if InRange entry.2 then do
      let others ← allClaimData rest
      pure ((ac.estimated mainnetExitRoot rollupExitRoot entry).toList ++
        others)
    else
      .error .panic

def claimChunks : List (List (ListedBridge × GetProofResponse)) →
    Except AutoclaimErr Unit × List (List (CompressClaimCallData H))
  | [] => (.ok (), [])
  | entries :: rest =>
    match ac.allClaimData mainnetExitRoot rollupExitRoot entries with
    | .error err => (.error err, [])
    | .ok [] => (.ok (), [])
    | .ok claims =>
      match ac.compressClaimCall mainnetExitRoot rollupExitRoot claims with
      | .error err => (.error err, [])
      | .ok compressedTxData =>
        match ac.sendCompressedClaims compressedTxData with
        | .error err => (.error err, [])
        | .ok _ =>
          let later := claimChunks rest
          (later.1, claims :: later.2)

def proofsOf : List ListedBridge →
    Except AutoclaimErr (H × H × List GetProofResponse)
  | [] => .ok (hashZero, hashZero, [])
  | first :: rest => do
    let proof ← ac.getProof first
    let mainnetExitRoot := ac.hexToHash proof.mainExitRoot
    let rollupExitRoot := ac.hexToHash proof.rollupExitRoot
    let proofs ← rest.mapM
      (ac.getProofByGER (hash mainnetExitRoot rollupExitRoot))
    pure (mainnetExitRoot, rollupExitRoot, proof :: proofs)

def claimGrouped :
    Except AutoclaimErr Unit × List (List (CompressClaimCallData H)) :=
  match ac.getBridgesToClaim with
  | .error err => (.error err, [])
  | .ok [] => (.ok (), [])
  | .ok bridges =>
    match ac.proofsOf bridges.zipIdx with
    | .error err => (.error err, [])
    | .ok (mainnetExitRoot, rollupExitRoot, proofs) =>
      if bridges.length ≠ proofs.length then (.error .lengths, [])
      else
        ac.claimChunks mainnetExitRoot rollupExitRoot (zipWith zip
          (arraySplitter bridges.zipIdx ac.maxNumberOfClaimsPerGroup)
          (arraySplitter proofs ac.maxNumberOfClaimsPerGroup))

section Complete

variable {ac mainnetExitRoot rollupExitRoot}

private theorem allClaimData_eq
    {entries : List (ListedBridge × GetProofResponse)}
    (inRange : ∀ entry, entry ∈ entries → InRange entry.2) :
    ac.allClaimData mainnetExitRoot rollupExitRoot entries =
      .ok (entries.filterMap
        (ac.estimated mainnetExitRoot rollupExitRoot)) := by
  induction entries with
  | nil => rfl
  | cons entry rest induction =>
    rw [forall_mem_cons] at inRange
    rw [allClaimData, if_pos inRange.1, induction inRange.2, filterMap_cons]
    cases ac.estimated mainnetExitRoot rollupExitRoot entry with
    | none => rfl
    | some claim => rfl

private theorem claimChunks_sent
    (compresses : ∀ claims, ∃ data, ac.compressClaimCall mainnetExitRoot
      rollupExitRoot claims = .ok data)
    (sends : ∀ data, ac.sendCompressedClaims data = .ok ())
    {chunks : List (List (ListedBridge × GetProofResponse))}
    (inRange : ∀ chunk, chunk ∈ chunks → ∀ entry, entry ∈ chunk →
      InRange entry.2) :
    (ac.claimChunks mainnetExitRoot rollupExitRoot chunks).2 =
      (chunks.map (filterMap (ac.estimated mainnetExitRoot
        rollupExitRoot))).takeWhile (!·.isEmpty) := by
  induction chunks with
  | nil => rfl
  | cons chunk rest induction =>
    rw [forall_mem_cons] at inRange
    rw [claimChunks, allClaimData_eq inRange.1, map_cons, takeWhile_cons]
    cases chunk.filterMap (ac.estimated mainnetExitRoot rollupExitRoot) with
    | nil => rfl
    | cons claim others =>
      obtain ⟨data, compressed⟩ := compresses (claim :: others)
      simp [compressed, sends, induction inRange.2]

private theorem flatten_takeWhile_perm_iff {α : Type}
    (chunks : List (List α)) :
    (chunks.takeWhile (!·.isEmpty)).flatten.Perm chunks.flatten ↔
      chunks.Pairwise fun chunk later => chunk = [] → later = [] := by
  induction chunks with
  | nil => simp
  | cons chunk rest induction =>
    cases chunk with
    | nil =>
      simp only [takeWhile_cons, isEmpty_nil, Bool.not_true,
        Bool.false_eq_true, if_false, flatten_nil, nil_perm, flatten_cons,
        nil_append, flatten_eq_nil_iff, pairwise_cons, forall_const]
      refine ⟨fun none => ⟨none, ?_⟩, And.left⟩
      exact pairwise_of_forall_mem_list fun _ _ later inside _ =>
        none later inside
    | cons item others => simp [perm_append_left_iff, induction]

private theorem length_of_mapM {α β : Type} {f : α → Except AutoclaimErr β}
    {items : List α} {answers : List β}
    (obtained : items.mapM f = .ok answers) :
    items.length = answers.length := by
  induction items generalizing answers with
  | nil =>
    cases obtained
    rfl
  | cons item rest induction =>
    rw [mapM_cons] at obtained
    cases first : f item with
    | error err => simp [first, bind, Except.bind] at obtained
    | ok answer =>
      cases others : rest.mapM f with
      | error err => simp [first, others, bind, Except.bind] at obtained
      | ok later =>
        simp only [first, others] at obtained
        cases obtained
        simp [induction others]

private theorem length_proofsOf {bridges : List ListedBridge}
    {proofs : List GetProofResponse}
    (obtained : ac.proofsOf bridges =
      .ok (mainnetExitRoot, rollupExitRoot, proofs)) :
    bridges.length = proofs.length := by
  cases bridges with
  | nil =>
    cases obtained
    rfl
  | cons b rest =>
    rw [proofsOf] at obtained
    cases first : ac.getProof b with
    | error err => simp [first, bind, Except.bind] at obtained
    | ok proof =>
      cases others : rest.mapM (ac.getProofByGER (hash
          (ac.hexToHash proof.mainExitRoot)
          (ac.hexToHash proof.rollupExitRoot))) with
      | error err => simp [first, others, bind, Except.bind] at obtained
      | ok later =>
        simp only [first, bind, Except.bind, others] at obtained
        cases obtained
        simp [length_of_mapM others]

/-- If all proofs are obtained and no compressed transaction fails, the claims
sent are those of the bridges whose gas could be estimated, each with the proof
of its bridge, exactly if no chunk without such a bridge comes before a chunk
with one. -/
theorem grouped_claims_complete_iff {bridges : List PendingBridge}
    {proofs : List GetProofResponse}
    (positive : 1 ≤ ac.maxNumberOfClaimsPerGroup)
    (listed : ac.getBridgesToClaim = .ok bridges)
    (obtained : ac.proofsOf bridges.zipIdx =
      .ok (mainnetExitRoot, rollupExitRoot, proofs))
    (inRange : ∀ proof, proof ∈ proofs → InRange proof)
    (compresses : ∀ claims, ∃ data, ac.compressClaimCall mainnetExitRoot
      rollupExitRoot claims = .ok data)
    (sends : ∀ data, ac.sendCompressedClaims data = .ok ()) :
    ac.claimGrouped.2.flatten.Perm ((bridges.zipIdx.zip proofs).filterMap
        (ac.estimated mainnetExitRoot rollupExitRoot)) ↔
      (arraySplitter (bridges.zipIdx.zip proofs)
        ac.maxNumberOfClaimsPerGroup).Pairwise fun chunk later =>
          (∀ entry, entry ∈ chunk →
            ac.estimated mainnetExitRoot rollupExitRoot entry = none) →
          ∀ entry, entry ∈ later →
            ac.estimated mainnetExitRoot rollupExitRoot entry = none := by
  have same := length_proofsOf obtained
  have whole := splitLoop_flatten positive _ (bridges.zipIdx.zip proofs)
    le_rfl
  have sent : ac.claimGrouped.2 =
      ((arraySplitter (bridges.zipIdx.zip proofs)
        ac.maxNumberOfClaimsPerGroup).map (filterMap (ac.estimated
          mainnetExitRoot rollupExitRoot))).takeWhile (!·.isEmpty) := by
    rw [← claimChunks_sent compresses sends]
    · rw [arraySplitter, length_zip, ← same, Nat.min_self,
        ← splitLoop_zip _ _ same, claimGrouped, listed]
      rw [length_zipIdx] at same
      cases bridges with
      | nil => rfl
      | cons first rest =>
        simp only [obtained, same, arraySplitter, length_zipIdx, ne_eq,
          not_true_eq_false, if_false]
    · intro chunk inside entry entryIn
      have mem := mem_flatten_of_mem inside entryIn
      rw [arraySplitter, whole] at mem
      exact inRange entry.2 (of_mem_zip mem).2
  have claims := congrArg
    (filterMap (ac.estimated mainnetExitRoot rollupExitRoot)) whole
  rw [filterMap_flatten] at claims
  rw [sent, ← claims, arraySplitter, flatten_takeWhile_perm_iff,
    pairwise_map]
  simp only [filterMap_eq_nil_iff]

end Complete

section Samples

def sampleBridge : PendingBridge :=
  ⟨0, 0, "", "1", 1, "", "", "", 0, 0⟩

def sampleProof : GetProofResponse := ⟨[], [], "", ""⟩

def sampleAutoclaim (claimable : Nat → Bool) : Autoclaim Digest :=
  { maxNumberOfClaimsPerGroup := 1
    hexToHash := fun _ => hashZero
    hexToAddress := fun _ => 0
    fromHex := fun _ => []
    setString := fun _ => none
    getBridgesToClaim :=
      .ok [sampleBridge, { sampleBridge with depositCnt := 1 }]
    getProof := fun _ => .ok sampleProof
    getProofByGER := fun _ _ => .ok sampleProof
    estimateGasClaim := fun bridge _ _ _ =>
      if claimable bridge.2 then .ok () else .error (.call "reverted")
    compressClaimCall := fun _ _ _ => .ok []
    sendCompressedClaims := fun _ => .ok () }

/-- Only the second bridge can be claimed, and nothing is sent. -/
theorem unclaimable_chunk_ends_pass :
    (sampleAutoclaim (· = 1)).claimGrouped = (.ok (), []) ∧
      ((sampleAutoclaim (· = 1)).estimated hashZero hashZero
        (({ sampleBridge with depositCnt := 1 }, 1), sampleProof)).isSome =
          true := by
  decide +kernel

theorem first_chunk_sent :
    (sampleAutoclaim (· = 0)).claimGrouped.2.flatten.Perm
      [(sampleAutoclaim (· = 0)).claimData sampleBridge sampleProof] :=
  (@grouped_claims_complete_iff _ _ (sampleAutoclaim (· = 0)) _ _ _ _
    (by decide) rfl rfl (by decide) (fun _ => ⟨[], rfl⟩)
    (fun _ => rfl)).mpr (by decide +kernel)

end Samples

end Autoclaim

end BridgeService
