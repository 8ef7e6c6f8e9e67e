import BridgeService.Bridgectrl.Runs
import BridgeService.Etherman.DepositIndex
import BridgeService.Synchronizer.ClaimHandlers
import BridgeService.Synchronizer.SyncLogs

/-!
# Claims are matched with their deposits

The logs about claims name deposits by their global indices.  The claim of a
deposit stands if the last log about the deposit has not unset it.  After the
logs have been synced, `getClaim` finds the claims that stand and no others.
-/

namespace BridgeService

open ErrorState World List

variable {H : Type}

def Log.claimIndex (vLog : Log H) : Option (BitVec 256) :=
  match vLog.data with
  | .claim c => some c.globalIndex
  | .setClaim globalIndex => some globalIndex
  | .updatedUnsetGlobalIndexHashChain unsetGlobalIndex =>
    some unsetGlobalIndex
  | _ => none

def Log.unsets (vLog : Log H) : Bool :=
  match vLog.data with
  | .updatedUnsetGlobalIndexHashChain _ => true
  | _ => false

def Log.concerns (vLog : Log H) (deposit : Nat × Nat) : Bool :=
  vLog.claimIndex == some (depositWord deposit)

def Log.left (vLog : Log H) : Option (Log H) :=
  if vLog.unsets then none else some vLog

/-- The log whose claim of a deposit stands: the last one about the deposit,
unless it unsets the claim. -/
def standingClaim (logs : List (Log H)) (deposit : Nat × Nat) :
    Option (Log H) :=
  (logs.filter fun vLog => vLog.concerns deposit).getLast?.bind Log.left

/-- The deposit is stored with its block, and every row of it has the
destination. -/
structure Tables.StoredFor (t : Tables H) (deposit : Nat × Nat)
    (networkID : Nat) : Prop where
  stored : ∃ row, row ∈ t.deposit ∧ row.networkID = deposit.1 ∧
    row.depositCnt = deposit.2 ∧ (t.blockNumOf row).isSome
  destination : ∀ row, row ∈ t.deposit → row.networkID = deposit.1 →
    row.depositCnt = deposit.2 → row.destNet = networkID

/-- The asset of a claim is that of its log; for a SetClaim event, which has
none, it is that of the stored deposit. -/
def Log.HasAsset (vLog : Log H) (t : Tables H) (deposit : Nat × Nat)
    (claim : Claim H) : Prop :=
  match vLog.data with
  | .claim c =>
    claim.originalNetwork = c.originNetwork ∧
      claim.originalAddress = c.originAddress ∧
      claim.amount = c.amount ∧
      claim.destinationAddress = c.destinationAddress
  | .setClaim _ =>
    ∃ row, row ∈ t.deposit ∧ row.networkID = deposit.1 ∧
      row.depositCnt = deposit.2 ∧
      claim.originalNetwork = row.origNet ∧
      claim.originalAddress = row.origAddr ∧
      claim.amount = row.amount ∧
      claim.destinationAddress = row.destAddr
  | _ => False

structure Log.Made (vLog : Log H) (t : Tables H) (deposit : Nat × Nat)
    (networkID : Nat) (claim : Claim H) : Prop where
  mainnetFlag : claim.mainnetFlag = decide (deposit.1 = 0)
  rollupIndex : claim.rollupIndex = deposit.1 - 1
  index : claim.index = deposit.2
  network : claim.networkID = networkID
  txHash : claim.txHash = vLog.txHash
  globalIndex : claim.globalIndex = toString (depositIndex deposit)
  block : t.HasBlock claim.blockID vLog.blockHash
  asset : vLog.HasAsset t deposit claim

theorem standingClaim_concat (logs : List (Log H)) (vLog : Log H)
    (deposit : Nat × Nat) :
    standingClaim (logs ++ [vLog]) deposit =
      if vLog.concerns deposit then vLog.left
      else standingClaim logs deposit := by
  rw [standingClaim, filter_append]
  by_cases about : vLog.concerns deposit = true
  · simp [about]
  · simp [about, standingClaim]

section Tables

variable {t t' : Tables H} {deposit : Nat × Nat} {networkID : Nat}

theorem Tables.HasBlock.mono {blockID : Nat} {blockHash : H}
    (has : t.HasBlock blockID blockHash)
    (blocks : ∀ row, row ∈ t.block → row ∈ t'.block) :
    t'.HasBlock blockID blockHash := by
  obtain ⟨row, stored, id, hash⟩ := has
  exact ⟨row, blocks row stored, id, hash⟩

theorem Log.Made.mono {vLog : Log H} {claim : Claim H}
    (made : vLog.Made t deposit networkID claim)
    (deposits : t'.deposit = t.deposit)
    (blocks : ∀ row, row ∈ t.block → row ∈ t'.block) :
    vLog.Made t' deposit networkID claim where
  mainnetFlag := made.mainnetFlag
  rollupIndex := made.rollupIndex
  index := made.index
  network := made.network
  txHash := made.txHash
  globalIndex := made.globalIndex
  block := made.block.mono blocks
  asset := by
    have asset := made.asset
    rw [Log.HasAsset] at asset ⊢
    rw [deposits]
    exact asset

theorem Tables.StoredFor.getDeposit_ok (storedFor : t.StoredFor deposit
      networkID) (deposits : t'.deposit = t.deposit)
    (blocks : ∀ row, row ∈ t.block → row ∈ t'.block) :
    ∃ row blockNumber, row ∈ t'.deposit ∧ row.networkID = deposit.1 ∧
      row.depositCnt = deposit.2 ∧ row.destNet = networkID ∧
      t'.getDeposit deposit.2 deposit.1 =
        .ok (row.toDeposit blockNumber) := by
  obtain ⟨row, stored, network, count, joined⟩ := storedFor.stored
  have joinedAgain : (t'.blockNumOf row).isSome := by
    rw [blockNumOf, Option.isSome_map, find?_isSome] at joined ⊢
    obtain ⟨block, inTable, same⟩ := joined
    exact ⟨block, blocks block inTable, same⟩
  cases search : t'.deposit.findSome? fun row =>
      if row.networkID = deposit.1 ∧ row.depositCnt = deposit.2 then
        (t'.blockNumOf row).map row.toDeposit
      else none with
  | none =>
    rw [findSome?_eq_none_iff] at search
    have missing := search row (deposits ▸ stored)
    rw [if_pos ⟨network, count⟩, Option.map_eq_none_iff] at missing
    simp [missing] at joinedAgain
  | some found =>
    obtain ⟨other, inTable, made⟩ := exists_of_findSome?_eq_some search
    split at made
    · next same =>
      obtain ⟨blockNumber, _, rfl⟩ := Option.map_eq_some_iff.mp made
      refine ⟨other, blockNumber, inTable, same.1, same.2,
        storedFor.destination other (deposits ▸ inTable) same.1 same.2, ?_⟩
      rw [getDeposit, search]
    · contradiction

end Tables

def Recorded (t : Tables H) (networkID : Nat) (deposit : Nat × Nat) :
    Option (Log H) → Option (ClaimRow H) → Prop
  | none, none => True
  | some vLog, some row =>
    vLog.Made t deposit networkID (row.toClaim deposit.1)
  | _, _ => False

structure Matched (start : Tables H) (networkID : Nat)
    (claims : Nat × Nat → Option (ClaimRow H)) (done : List (Log H))
    (t : Tables H) : Prop where
  deposits : t.deposit = start.deposit
  blocks : ∀ row, row ∈ start.block → row ∈ t.block
  claimed : t.ClaimedAs networkID claims
  indexed : ∀ deposit row, claims deposit = some row → Indexed deposit
  recorded : ∀ deposit, Indexed deposit →
    Recorded t networkID deposit (standingClaim done deposit) (claims deposit)

/-- The standing claims of the logs are the claims of the network. -/
def ClaimsMatch (start : Tables H) (networkID : Nat) (done : List (Log H))
    (t : Tables H) : Prop :=
  ∃ claims, Matched start networkID claims done t

section Step

variable {start t t' : Tables H} {networkID : Nat}
  {claims : Nat × Nat → Option (ClaimRow H)} {done : List (Log H)}
  {vLog : Log H} {deposit : Nat × Nat}

theorem Recorded.mono {standing : Option (Log H)} {kept : Option (ClaimRow H)}
    (recorded : Recorded t networkID deposit standing kept)
    (deposits : t'.deposit = t.deposit)
    (blocks : ∀ row, row ∈ t.block → row ∈ t'.block) :
    Recorded t' networkID deposit standing kept := by
  cases standing with
  | none =>
    cases kept with
    | none => trivial
    | some row => exact recorded
  | some vLog =>
    cases kept with
    | none => exact recorded
    | some row => exact Log.Made.mono recorded deposits blocks

namespace Matched

theorem init (unclaimed : ∀ row, row ∈ start.claim →
    row.networkID ≠ networkID) :
    Matched start networkID (fun _ => none) [] start where
  deposits := rfl
  blocks _ stored := stored
  claimed := Tables.claimedAs_empty unclaimed
  indexed _ _ impossible := by contradiction
  recorded _ _ := trivial

section

variable (matched : Matched start networkID claims done t)

include matched

theorem opened (row : BlockRow H) :
    Matched start networkID claims done
      { t with block := t.block ++ [row] } where
  deposits := matched.deposits
  blocks other stored := mem_append_left _ (matched.blocks other stored)
  claimed := ⟨matched.claimed.rows, matched.claimed.key⟩
  indexed := matched.indexed
  recorded deposit indexed := (matched.recorded deposit indexed).mono rfl
    fun _ stored => mem_append_left _ stored

theorem free (indexed : Indexed deposit)
    (unclaimed : standingClaim done deposit = none) :
    claims deposit = none := by
  have recorded := matched.recorded deposit indexed
  rw [unclaimed] at recorded
  cases kept : claims deposit with
  | none => rfl
  | some row =>
    rw [kept] at recorded
    exact recorded.elim

theorem text {row : ClaimRow H} (kept : claims deposit = some row) :
    row.globalIndex = toString (depositIndex deposit) := by
  have recorded := matched.recorded deposit (matched.indexed _ _ kept)
  rw [kept] at recorded
  cases standing : standingClaim done deposit with
  | none =>
    rw [standing] at recorded
    exact recorded.elim
  | some vLog =>
    rw [standing] at recorded
    exact Log.Made.globalIndex recorded

theorem update (indexed : Indexed deposit)
    (about : vLog.claimIndex = some (depositWord deposit))
    (deposits : t'.deposit = t.deposit) (blocks : t'.block = t.block)
    {entry : Option (ClaimRow H)}
    (claimed : t'.ClaimedAs networkID (Function.update claims deposit entry))
    (recorded : Recorded t' networkID deposit vLog.left entry) :
    Matched start networkID (Function.update claims deposit entry)
      (done ++ [vLog]) t' where
  deposits := deposits.trans matched.deposits
  blocks row stored := by
    rw [blocks]
    exact matched.blocks row stored
  claimed := claimed
  indexed other row kept := by
    by_cases same : other = deposit
    · rw [same]
      exact indexed
    · rw [Function.update_of_ne same] at kept
      exact matched.indexed other row kept
  recorded other indexedOther := by
    rw [standingClaim_concat]
    by_cases same : other = deposit
    · rw [same, Function.update_self, Log.concerns, about, if_pos (by simp)]
      exact recorded
    · have elsewhere : ¬vLog.concerns other = true := by
        rw [Log.concerns, about, beq_iff_eq]
        intro equal
        injection equal with equal
        exact same (depositWord_inj indexedOther indexed equal.symm)
      rw [Function.update_of_ne same, if_neg elsewhere]
      apply (matched.recorded other indexedOther).mono deposits
      intro row stored
      rw [blocks]
      exact stored

theorem keyFree (indexed : Indexed deposit)
    (unclaimed : standingClaim done deposit = none) {claim : Claim H}
    (here : claim.networkID = networkID)
    (own : (Storage.claimRow claim).Claims deposit)
    (conflict : t.claimConflict claim = true) : False := by
  have free := matched.free indexed unclaimed
  rw [matched.claimed.claimConflict_eq_false free here own] at conflict
  contradiction

theorem insert (indexed : Indexed deposit)
    (about : vLog.claimIndex = some (depositWord deposit))
    (sets : vLog.unsets = false)
    (unclaimed : standingClaim done deposit = none)
    (deposits : t'.deposit = t.deposit) (blocks : t'.block = t.block)
    {row : ClaimRow H} (stored : t'.claim = t.claim ++ [row])
    (own : row.Claims deposit)
    (made : vLog.Made t deposit networkID (row.toClaim deposit.1)) :
    ClaimsMatch start networkID (done ++ [vLog]) t' := by
  refine ⟨Function.update claims deposit (some row), ?_⟩
  apply matched.update indexed about deposits blocks
  · exact matched.claimed.insert (matched.free indexed unclaimed) made.network
      own stored
  · rw [Log.left, sets]
    apply made.mono deposits
    intro other inTable
    rw [blocks]
    exact inTable

theorem delete (indexed : Indexed deposit)
    (about : vLog.claimIndex = some (depositWord deposit))
    (unsets : vLog.unsets = true) (deposits : t'.deposit = t.deposit)
    (blocks : t'.block = t.block)
    (stored : t'.claim = t.claim.filter fun row =>
      !(row.globalIndex == toString (depositIndex deposit) &&
        row.networkID == networkID)) :
    ClaimsMatch start networkID (done ++ [vLog]) t' := by
  refine ⟨Function.update claims deposit none, ?_⟩
  apply matched.update indexed about deposits blocks
  · apply matched.claimed.delete deposit _ stored
    intro origin row kept
    have network := ((matched.claimed.rows row).mpr ⟨origin, kept⟩).2
    have text := matched.text kept
    simp only [network, text, beq_self_eq_true, Bool.and_true,
      Bool.not_eq_false', beq_iff_eq]
    constructor
    · exact depositText_inj (matched.indexed origin row kept) indexed
    · rintro rfl
      rfl
  · rw [Log.left, unsets]
    trivial

end

end Matched

end Step

section Handlers

variable [DecidableEq H] [Externals H] {etherMan : EtherMan}
  {s : ClientSynchronizer} {start : Tables H} {done : List (Log H)}
  {vLog : Log H} {deposit : Nat × Nat}

theorem handles_of_claim {fails : Prop} {before after : Tables H → Prop}
    {claim : Claim H} (decoded : etherMan.decoded vLog =
      .ok (some (.claim claim)))
    (taken : ∀ t blockID, before t → t.claimConflict { claim with
      blockID := blockID
      networkID := s.networkID } = true → fails)
    (stored : ∀ t blockID, before t → t.HasBlock blockID vLog.blockHash →
      after (t.withClaim { claim with
        blockID := blockID
        networkID := s.networkID })) :
    s.Handles etherMan fails before after vLog := by
  apply ClientSynchronizer.handles_of_event decoded
  intro t blockID gers here has
  apply Triple.bind
    (ClientSynchronizer.processClaim_inTx (taken t blockID here))
  intro _
  apply Triple.pure
  rintro w ⟨faultless, t', view, rfl⟩
  exact ⟨rfl, faultless, _, view, stored t blockID here has, rfl⟩

theorem handles_claim {c : ClaimEvent} (data : vLog.data = .claim c)
    (indexed : Indexed deposit)
    (index : c.globalIndex = depositWord deposit)
    (unclaimed : standingClaim done deposit = none) :
    s.Handles etherMan False (ClaimsMatch start s.networkID done)
      (ClaimsMatch start s.networkID (done ++ [vLog])) vLog := by
  have decoded : etherMan.decoded vLog = .ok (some (.claim
      (claimOf vLog c.amount c.destinationAddress c.originAddress deposit.2
        c.originNetwork (deposit.1 - 1) (decide (deposit.1 = 0))
        (toString (depositIndex deposit))))) := by
    simp only [EtherMan.decoded, data, newClaimOf_deposit indexed index]
    rfl
  apply handles_of_claim decoded
  · rintro t blockID ⟨claims, matched⟩
    exact matched.keyFree indexed unclaimed rfl ⟨rfl, rfl, rfl⟩
  · rintro t blockID ⟨claims, matched⟩ has
    apply matched.insert indexed
    case about => simp [Log.claimIndex, data, index]
    case sets => rw [Log.unsets, data]
    case unclaimed => exact unclaimed
    case deposits => rfl
    case blocks => rfl
    case stored => rfl
    case own => exact ⟨rfl, rfl, rfl⟩
    case made =>
      refine ⟨rfl, rfl, rfl, rfl, rfl, rfl, has, ?_⟩
      rw [Log.HasAsset, data]
      exact ⟨rfl, rfl, rfl, rfl⟩

theorem handles_unsetClaim
    (data : vLog.data =
      .updatedUnsetGlobalIndexHashChain (depositWord deposit))
    (indexed : Indexed deposit) :
    s.Handles etherMan False (ClaimsMatch start s.networkID done)
      (ClaimsMatch start s.networkID (done ++ [vLog])) vLog := by
  have decoded : etherMan.decoded vLog = .ok (some (.unsetClaim
      { blockID := 0
        mainnetFlag := decide (deposit.1 = 0)
        rollupIndex := deposit.1 - 1
        index := deposit.2
        globalIndex := depositIndex deposit })) := by
    simp only [EtherMan.decoded, data, unsetClaimOf_deposit indexed]
    rfl
  apply ClientSynchronizer.handles_of_event decoded
  rintro t blockID gers ⟨claims, matched⟩ has
  apply Triple.bind ClientSynchronizer.processUnsetClaimSovereign_inTx
  intro _
  apply Triple.pure
  rintro w ⟨faultless, t', view, row, rfl⟩
  refine ⟨rfl, faultless, _, view, ?_, rfl⟩
  apply matched.delete indexed
  case about => rw [Log.claimIndex, data]
  case unsets => rw [Log.unsets, data]
  case deposits => rfl
  case blocks => rfl
  case stored => rfl

theorem handles_setClaim
    (data : vLog.data = .setClaim (depositWord deposit))
    (indexed : Indexed deposit)
    (storedFor : start.StoredFor deposit s.networkID)
    (unclaimed : standingClaim done deposit = none) :
    s.Handles etherMan False (ClaimsMatch start s.networkID done)
      (ClaimsMatch start s.networkID (done ++ [vLog])) vLog := by
  have decoded : etherMan.decoded vLog = .ok (some (.setClaim
      { blockID := 0
        mainnetFlag := decide (deposit.1 = 0)
        rollupIndex := deposit.1 - 1
        index := deposit.2
        globalIndex := depositIndex deposit
        txHash := vLog.txHash })) := by
    simp only [EtherMan.decoded, data, setClaimOf_deposit indexed]
    rfl
  apply ClientSynchronizer.handles_of_event decoded
  rintro t blockID gers ⟨claims, matched⟩ has
  obtain ⟨row, blockNumber, inTable, network, count, here, answer⟩ :=
    storedFor.getDeposit_ok matched.deposits matched.blocks
  have depositNetwork : (if decide (deposit.1 = 0) = true then 0
      else (deposit.1 - 1 + 1) % 2 ^ 32) = deposit.1 := by
    have small := indexed.network
    simp only [decide_eq_true_eq]
    split
    · omega
    · omega
  rw [← depositNetwork] at answer
  apply Triple.bind (ClientSynchronizer.processSetClaimSovereign_inTx answer
    here (matched.keyFree indexed unclaimed rfl ⟨rfl, rfl, rfl⟩))
  intro _
  apply Triple.pure
  rintro w ⟨faultless, t', view, noted, rfl⟩
  refine ⟨rfl, faultless, _, view, ?_, rfl⟩
  apply matched.insert indexed
  case about => rw [Log.claimIndex, data]
  case sets => rw [Log.unsets, data]
  case unclaimed => exact unclaimed
  case deposits => rfl
  case blocks => rfl
  case stored => rfl
  case own => exact ⟨rfl, rfl, rfl⟩
  case made =>
    refine ⟨rfl, rfl, rfl, rfl, rfl, rfl, has, ?_⟩
    rw [Log.HasAsset, data]
    exact ⟨row, inTable, network, count, rfl, rfl, rfl, rfl⟩

/-- What the contract of a network guarantees about the logs of claims: they
carry indices of deposits, and only a deposit without a standing claim is
claimed or set. -/
structure ClaimLogs (start : Tables H) (networkID : Nat)
    (logs : List (Log H)) : Prop where
  indices : ∀ vLog, vLog ∈ logs → ∃ deposit, Indexed deposit ∧
      vLog.claimIndex = some (depositWord deposit)
  stored : ∀ vLog, vLog ∈ logs → ∀ deposit, Indexed deposit →
    vLog.data = .setClaim (depositWord deposit) →
      start.StoredFor deposit networkID
  enforced : ∀ before vLog after, logs = before ++ vLog :: after →
    vLog.unsets = false → ∀ deposit, Indexed deposit →
      vLog.claimIndex = some (depositWord deposit) →
        standingClaim before deposit = none

theorem ClaimLogs.handles {logs : List (Log H)}
    (claimLogs : ClaimLogs start s.networkID logs) {rest : List (Log H)}
    (split : logs = done ++ vLog :: rest) :
    s.Handles etherMan False (ClaimsMatch start s.networkID done)
      (ClaimsMatch start s.networkID (done ++ [vLog])) vLog := by
  have mem : vLog ∈ logs := by simp [split]
  obtain ⟨deposit, indexed, about⟩ := claimLogs.indices vLog mem
  have unclaimed := fun sets =>
    claimLogs.enforced done vLog rest split sets deposit indexed about
  cases data : vLog.data with
  | claim c =>
    apply handles_claim data indexed
    · simpa [Log.claimIndex, data] using about
    · exact unclaimed (by rw [Log.unsets, data])
  | setClaim globalIndex =>
    have index : globalIndex = depositWord deposit := by
      simpa [Log.claimIndex, data] using about
    rw [index] at data
    apply handles_setClaim data indexed
    · exact claimLogs.stored vLog mem deposit indexed data
    · exact unclaimed (by rw [Log.unsets, data])
  | updatedUnsetGlobalIndexHashChain unsetGlobalIndex =>
    have index : unsetGlobalIndex = depositWord deposit := by
      simpa [Log.claimIndex, data] using about
    rw [index] at data
    exact handles_unsetClaim data indexed
  | _ =>
    rw [Log.claimIndex, data] at about
    contradiction

omit [DecidableEq H] in
theorem ClaimLogs.decodes {networkID : Nat} {logs : List (Log H)}
    (claimLogs : ClaimLogs start networkID logs) (mem : vLog ∈ logs) :
    ∃ event, etherMan.decoded vLog = .ok (some event) := by
  obtain ⟨deposit, indexed, about⟩ := claimLogs.indices vLog mem
  cases data : vLog.data with
  | claim c =>
    have index : c.globalIndex = depositWord deposit := by
      simpa [Log.claimIndex, data] using about
    simp [EtherMan.decoded, data, newClaimOf_deposit indexed index, Except.map]
  | setClaim globalIndex =>
    have index : globalIndex = depositWord deposit := by
      simpa [Log.claimIndex, data] using about
    simp [EtherMan.decoded, data, index, setClaimOf_deposit indexed,
      Except.map]
  | updatedUnsetGlobalIndexHashChain unsetGlobalIndex =>
    have index : unsetGlobalIndex = depositWord deposit := by
      simpa [Log.claimIndex, data] using about
    simp [EtherMan.decoded, data, index, unsetClaimOf_deposit indexed,
      Except.map]
  | _ =>
    rw [Log.claimIndex, data] at about
    contradiction

omit [DecidableEq H] [Externals H] in
theorem ClaimsMatch.getClaim {networkID : Nat} {t : Tables H}
    (match' : ClaimsMatch start networkID done t) (indexed : Indexed deposit) :
    match standingClaim done deposit with
    | none => t.getClaim deposit.2 deposit.1 networkID =
        .error .storageNotFound
    | some vLog => ∃ claim,
        t.getClaim deposit.2 deposit.1 networkID = .ok claim ∧
          vLog.Made t deposit networkID claim := by
  obtain ⟨claims, matched⟩ := match'
  have recorded := matched.recorded deposit indexed
  rw [matched.claimed.getClaim_eq deposit]
  cases standing : standingClaim done deposit with
  | none =>
    rw [standing] at recorded
    cases kept : claims deposit with
    | none => rfl
    | some row =>
      rw [kept] at recorded
      exact recorded.elim
  | some vLog =>
    rw [standing] at recorded
    cases kept : claims deposit with
    | none =>
      rw [kept] at recorded
      exact recorded.elim
    | some row =>
      rw [kept] at recorded
      exact ⟨_, rfl, recorded⟩

/-- The logs of claims of a network are synced without an error, and
afterwards `getClaim` finds the claims that stand and no others. -/
theorem claims_matched (etherMan : EtherMan) {s : ClientSynchronizer}
    {w : World H} {ranges : List (List (Log H))} (faultless : w.Faultless)
    (unclaimed : ∀ row, row ∈ w.committed.claim → row.networkID ≠ s.networkID)
    (byBlock : ∀ logs, logs ∈ ranges → BlockByBlock logs)
    (claimLogs : ClaimLogs w.committed s.networkID ranges.flatten) :
    ∃ w', Synced etherMan (ranges.map fun logs => (s, logs)) w w' ∧
      ∀ deposit, Indexed deposit →
        match standingClaim ranges.flatten deposit with
        | none => w'.committed.getClaim deposit.2 deposit.1 s.networkID =
            .error .storageNotFound
        | some vLog => ∃ claim,
            w'.committed.getClaim deposit.2 deposit.1 s.networkID = .ok claim ∧
              vLog.Made w'.committed deposit s.networkID claim := by
  have all : (networkLogs (ranges.map fun logs => (s, logs))).map Prod.snd =
      ranges.flatten := by
    simp [networkLogs, flatMap_map, map_flatMap, Function.comp_def,
      flatMap_id']
  have kept : Synced.Kept etherMan False
      (fun done => ClaimsMatch w.committed s.networkID (done.map Prod.snd))
      [] (ranges.map fun logs => (s, logs)) := by
    constructor
    · rintro range mem vLog inRange
      obtain ⟨logs, inRanges, rfl⟩ := mem_map.mp mem
      exact claimLogs.decodes (mem_flatten.mpr ⟨logs, inRanges, inRange⟩)
    · rintro range mem
      obtain ⟨logs, inRanges, rfl⟩ := mem_map.mp mem
      exact byBlock logs inRanges
    · rintro done t row ⟨claims, matched⟩
      exact ⟨claims, matched.opened row⟩
    · intro other earlier vLog rest split
      rw [nil_append] at split
      have here : (other.networkID, vLog) ∈
          networkLogs (ranges.map fun logs => (s, logs)) := by
        simp [split]
      have network : other.networkID = s.networkID := by
        simp only [networkLogs, mem_flatMap, mem_map] at here
        obtain ⟨_, ⟨_, _, rfl⟩, _, _, same⟩ := here
        injection same with same
        exact same.symm
      have logs := congrArg (List.map Prod.snd) split
      rw [all, map_append, map_cons] at logs
      rw [← network] at claimLogs ⊢
      rw [map_append]
      exact claimLogs.handles logs
  have started : w.Committed (ClaimsMatch w.committed s.networkID []) :=
    ⟨faultless, _, Matched.init unclaimed⟩
  obtain ⟨w', synced⟩ := Synced.exists_run kept started
  have after := (synced.keeps kept started).2
  refine ⟨w', synced, fun deposit indexed => ?_⟩
  rw [nil_append, all] at after
  exact after.getClaim indexed

end Handlers

section Samples

def claimLog (blockNumber : Nat) (data : LogData Digest) : Log Digest :=
  { blockNumber := blockNumber
    blockHash := .bytes [UInt8.ofNat blockNumber]
    txHash := .bytes [9, UInt8.ofNat blockNumber]
    data := data }

def claimData (deposit : Nat × Nat) : LogData Digest :=
  .claim
    { globalIndex := depositWord deposit
      originNetwork := 0
      originAddress := 0
      destinationAddress := 0
      amount := 1 }

/-- A deposit of the main network is claimed and unset, and the claim of a
deposit of network 1 is set. -/
def claimRanges : List (List (Log Digest)) :=
  [[claimLog 1 (claimData (0, 5)),
      claimLog 2 (.updatedUnsetGlobalIndexHashChain (depositWord (0, 5)))],
    [claimLog 3 (.setClaim (depositWord (1, 3)))]]

/-- The service has the deposit of network 1, with destination 2. -/
def claimWorld : World Digest :=
  { World.start 2 [1] with
    committed :=
      { Tables.empty with
        block :=
          [{ id := 1
             blockNum := 7
             blockHash := .bytes [7]
             networkID := 1 }]
        deposit := [Storage.depositRow 1
          { sampleDeposit 1 3 with
            blockID := 1
            destinationNetwork := 2 }] } }

def claimSynchronizer : ClientSynchronizer :=
  { networkID := 2
    allNetworkIDs := [1, 2]
    chsExitRootEvent := []
    retries := 1 }

private theorem claimRanges_logs :
    ClaimLogs claimWorld.committed 2 claimRanges.flatten := by
  have bounds : ∀ deposit, deposit ∈ [((0, 5) : Nat × Nat), (1, 3)] →
      Indexed deposit := by decide
  simp only [claimRanges, flatten_cons, flatten_nil,
    cons_append, nil_append]
  constructor
  · simp only [forall_mem_cons]
    exact ⟨⟨(0, 5), bounds _ (by simp), rfl⟩,
      ⟨(0, 5), bounds _ (by simp), rfl⟩, ⟨(1, 3), bounds _ (by simp), rfl⟩,
      nofun⟩
  · simp only [forall_mem_cons]
    refine ⟨nofun, nofun, ?_, nofun⟩
    · intro deposit indexed data
      injection data with same
      have named := depositWord_inj (bounds (1, 3) (by simp)) indexed same
      rw [← named]
      exact ⟨⟨_, mem_singleton.mpr rfl, rfl, rfl, rfl⟩, by decide⟩
  · intro before vLog after split sets deposit indexed about
    rcases before with _ | ⟨first, _ | ⟨second, _ | ⟨third, more⟩⟩⟩
    · rfl
    · cases split
      contradiction
    · cases split
      injection about with same
      have named := depositWord_inj (bounds (1, 3) (by simp)) indexed same
      rw [← named]
      decide +kernel
    · simp at split

theorem set_and_unset_claims_matched :
    ∃ w', Synced sampleEtherMan
        (claimRanges.map fun logs => (claimSynchronizer, logs))
        claimWorld w' ∧
      w'.committed.getClaim 5 0 2 = .error .storageNotFound ∧
      ∃ claim, w'.committed.getClaim 3 1 2 = .ok claim ∧
        claim.txHash = .bytes [9, 3] := by
  obtain ⟨w', synced, found⟩ := claims_matched sampleEtherMan
    (show claimWorld.Faultless from fun _ _ _ => rfl)
    (show ∀ row, row ∈ claimWorld.committed.claim →
      row.networkID ≠ claimSynchronizer.networkID by decide)
    (show ∀ logs, logs ∈ claimRanges → BlockByBlock logs by
      simp only [claimRanges, forall_mem_cons]
      exact ⟨⟨by decide, by decide⟩, ⟨by decide, by decide⟩, nofun⟩)
    claimRanges_logs
  refine ⟨w', synced, ?_, ?_⟩
  · exact found (0, 5) (by decide)
  · obtain ⟨claim, answer, made⟩ := found (1, 3) (by decide)
    exact ⟨claim, answer, made.txHash⟩

end Samples

end BridgeService
