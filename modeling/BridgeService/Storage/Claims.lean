import BridgeService.Storage.Statements

/-!
# Claims and deposits that wait for one

Three queries decide whether a deposit has been claimed.  `getClaim` looks for
a claim on the destination network with the count of the deposit and its origin
network.  The two lists of deposits to claim leave out every deposit whose
count is the index of some claim on the destination network, whatever the
origin of that claim is.
-/

namespace BridgeService

open List

variable {H : Type}

def ClaimRow.isFrom (row : ClaimRow H) (originNetworkID : Nat) : Bool :=
  if originNetworkID = 0 then row.mainnetFlag
  else !row.mainnetFlag && row.rollupIndex + 1 == originNetworkID

def ClaimRow.isAt (row : ClaimRow H) (index networkID : Nat) : Bool :=
  row.index == index && row.networkID == networkID

namespace Tables

def getClaim (t : Tables H)
    (depositCount originNetworkID networkID : Nat) :
    Except Err (Claim H) :=
  let found := t.claim.find? fun row =>
    row.isAt depositCount networkID && row.isFrom originNetworkID
  match found with
  | none => .error .storageNotFound
  | some row =>
    .ok
      { mainnetFlag := originNetworkID = 0
        rollupIndex := row.rollupIndex
        index := row.index
        originalNetwork := row.origNet
        originalAddress := row.origAddr
        amount := row.amount
        destinationAddress := row.destAddr
        blockID := row.blockID
        blockNumber := 0
        networkID := row.networkID
        txHash := row.txHash
        globalIndex := row.globalIndex }

/-- The filter on the address: the receiver of an asset or the sender of a
message; the zero address stands for all of them. -/
def addressMatches (addressFilter : Address) (leafType : Nat)
    (row : DepositRow H) : Bool :=
  if addressFilter ≠ 0 ∧ leafType = 0 then row.destAddr == addressFilter
  else if addressFilter ≠ 0 ∧ leafType = 1 then
    row.origAddr == addressFilter
  else true

/-- The filter on the origin: only L1, only L2, or all networks. -/
def fromNetworkMatches (fromNetwork : Int) (row : DepositRow H) : Bool :=
  if fromNetwork = 0 then row.networkID == 0
  else if fromNetwork = 1 then row.networkID != 0
  else true

def pendingDeposits (t : Tables H) (addressFilter : Address)
    (destNetwork leafType : Nat) (fromNetwork : Int) :
    List (DepositRow H) :=
  t.deposit.filter fun row =>
    row.destNet == destNetwork && row.readyForClaim &&
      fromNetworkMatches fromNetwork row && row.leafType == leafType &&
      addressMatches addressFilter leafType row && !row.ignore &&
      (!t.claim.any fun claim => claim.isAt row.depositCnt destNetwork) &&
      !t.monitoredTxs.any fun tx => tx.depositID == row.id

/-- Deposits with a ready status that wait for a claim, and their number. -/
def getPendingDepositsToClaim (t : Tables H) (addressFilter : Address)
    (destNetwork leafType limit offset : Nat) (fromNetwork : Int) :
    List (Deposit H) × Nat :=
  let rows := t.pendingDeposits addressFilter destNetwork leafType
    fromNetwork
  let deposits := (Rows.orderBy DepositRow.depositCnt rows).flatMap
    fun row =>
      (t.block.filter fun block => block.id == row.blockID).map
        fun block => row.toDeposit block.blockNum
  (if 0 < limit then (deposits.drop offset).take limit else deposits,
    rows.length)

def getDepositsFromOtherL2ToClaim (t : Tables H) (destinationNetwork : Nat) :
    List (Deposit H) :=
  let rows := t.deposit.filter fun row =>
    (row.depositCnt ∉ (t.claim.filter fun claim =>
        claim.networkID == destinationNetwork).map ClaimRow.index) &&
      row.networkID != 0 && !row.ignore &&
      row.destNet == destinationNetwork && row.readyForClaim
  (Rows.orderBy DepositRow.id rows).reverse.map fun row => row.toDeposit 0

section Queries

variable {t : Tables H} {d : DepositRow H}

theorem getClaim_notFound_iff {depositCount originNetworkID networkID : Nat} :
    t.getClaim depositCount originNetworkID networkID =
        .error .storageNotFound ↔
      ∀ claim, claim ∈ t.claim → claim.isAt depositCount networkID = true →
        claim.isFrom originNetworkID = false := by
  rw [getClaim]
  cases found : t.claim.find? fun row =>
      row.isAt depositCount networkID && row.isFrom originNetworkID with
  | none =>
    simp only [true_iff]
    intro claim stored here
    have rejected := find?_eq_none.mp found claim stored
    simpa [here] using rejected
  | some claim =>
    have accepted := find?_some found
    simp only [Bool.and_eq_true] at accepted
    simp only [reduceCtorEq, false_iff, not_forall]
    exact ⟨claim, mem_of_find?_eq_some found, accepted.1, by
      simp [accepted.2]⟩

theorem mem_getPendingDepositsToClaim {addressFilter : Address}
    {offset : Nat} {fromNetwork : Int} (stored : d ∈ t.deposit)
    (block : ∃ block, block ∈ t.block ∧ block.id = d.blockID)
    (ready : d.readyForClaim = true) (kept : d.ignore = false)
    (unmonitored : ∀ tx, tx ∈ t.monitoredTxs → tx.depositID ≠ d.id)
    (address : addressMatches addressFilter d.leafType d = true)
    (origin : fromNetworkMatches fromNetwork d = true) :
    (∃ number, d.toDeposit number ∈ (t.getPendingDepositsToClaim
        addressFilter d.destNet d.leafType 0 offset fromNetwork).1) ↔
      ∀ claim, claim ∈ t.claim →
        claim.isAt d.depositCnt d.destNet = false := by
  simp only [getPendingDepositsToClaim, Nat.lt_irrefl, if_false,
    mem_flatMap, Rows.mem_orderBy, pendingDeposits, mem_filter,
    mem_map]
  constructor
  · rintro ⟨number, row, ⟨_, selected⟩, source, _, same⟩ claim claimed
    have count : row.depositCnt = d.depositCnt :=
      congrArg Deposit.depositCount same
    simp only [Bool.and_eq_true, Bool.not_eq_true',
      any_eq_false, count] at selected
    exact Bool.eq_false_iff.mpr (selected.1.2 claim claimed)
  · intro unclaimed
    obtain ⟨source, sourceIn, sourceID⟩ := block
    refine ⟨source.blockNum, d, ⟨stored, ?_⟩, source,
      ⟨sourceIn, by simp [sourceID]⟩, rfl⟩
    have noClaim : (t.claim.any fun claim =>
        claim.isAt d.depositCnt d.destNet) = false := by
      simpa using unclaimed
    have noTx : (t.monitoredTxs.any fun tx => tx.depositID == d.id) =
        false := by
      simpa using unmonitored
    simp [ready, kept, address, origin, noClaim, noTx]

theorem mem_getDepositsFromOtherL2ToClaim (stored : d ∈ t.deposit)
    (ready : d.readyForClaim = true) (kept : d.ignore = false)
    (notL1 : d.networkID ≠ 0) :
    d.toDeposit 0 ∈ t.getDepositsFromOtherL2ToClaim d.destNet ↔
      ∀ claim, claim ∈ t.claim →
        claim.isAt d.depositCnt d.destNet = false := by
  have unclaimed : (d.depositCnt ∉ (t.claim.filter fun claim =>
        claim.networkID == d.destNet).map ClaimRow.index) ↔
      ∀ claim, claim ∈ t.claim →
        claim.isAt d.depositCnt d.destNet = false := by
    simp only [mem_map, mem_filter, not_exists, not_and,
      ClaimRow.isAt]
    constructor
    · intro missing claim claimed
      by_contra matching
      simp only [Bool.not_eq_false, Bool.and_eq_true, beq_iff_eq] at matching
      exact missing claim ⟨claimed, by simp [matching.2]⟩ matching.1
    · intro missing claim claimed same
      have rejected := missing claim claimed.1
      simp [same, of_decide_eq_true claimed.2] at rejected
  simp only [getDepositsFromOtherL2ToClaim, mem_map, mem_reverse,
    Rows.mem_orderBy, mem_filter]
  constructor
  · rintro ⟨row, ⟨_, selected⟩, same⟩
    have count : row.depositCnt = d.depositCnt :=
      congrArg Deposit.depositCount same
    simp only [Bool.and_eq_true, decide_eq_true_eq, count] at selected
    exact unclaimed.mp selected.1.1.1.1
  · intro missing
    refine ⟨d, ⟨stored, ?_⟩, rfl⟩
    have absent := unclaimed.mpr missing
    simp only [Bool.and_eq_true, decide_eq_true_eq]
    exact ⟨⟨⟨⟨absent, by simpa using notL1⟩, by simp [kept]⟩, by simp⟩,
      ready⟩

/-- The lists of deposits to claim and `getClaim` agree on a deposit if its
index is not used by a claim of another origin only. -/
theorem pending_iff_unclaimed {addressFilter : Address} {offset : Nat}
    {fromNetwork : Int} (stored : d ∈ t.deposit)
    (block : ∃ block, block ∈ t.block ∧ block.id = d.blockID)
    (ready : d.readyForClaim = true) (kept : d.ignore = false)
    (unmonitored : ∀ tx, tx ∈ t.monitoredTxs → tx.depositID ≠ d.id)
    (address : addressMatches addressFilter d.leafType d = true)
    (origin : fromNetworkMatches fromNetwork d = true) :
    (((∃ number, d.toDeposit number ∈ (t.getPendingDepositsToClaim
          addressFilter d.destNet d.leafType 0 offset fromNetwork).1) ↔
        t.getClaim d.depositCnt d.networkID d.destNet =
          .error .storageNotFound) ∧
      (d.networkID ≠ 0 →
        (d.toDeposit 0 ∈ t.getDepositsFromOtherL2ToClaim d.destNet ↔
          t.getClaim d.depositCnt d.networkID d.destNet =
            .error .storageNotFound))) ↔
    ((∃ claim, claim ∈ t.claim ∧ claim.isAt d.depositCnt d.destNet = true) →
      ∃ claim, claim ∈ t.claim ∧ claim.isAt d.depositCnt d.destNet = true ∧
        claim.isFrom d.networkID = true) := by
  have agree : ((∀ claim, claim ∈ t.claim →
        claim.isAt d.depositCnt d.destNet = false) ↔
      t.getClaim d.depositCnt d.networkID d.destNet =
        .error .storageNotFound) ↔
    ((∃ claim, claim ∈ t.claim ∧ claim.isAt d.depositCnt d.destNet = true) →
      ∃ claim, claim ∈ t.claim ∧ claim.isAt d.depositCnt d.destNet = true ∧
        claim.isFrom d.networkID = true) := by
    rw [getClaim_notFound_iff]
    constructor
    · intro same used
      by_contra none
      obtain ⟨claim, claimed, here⟩ := used
      have rejected := same.mpr (fun other otherIn otherHere => by
        by_contra own
        exact none ⟨other, otherIn, otherHere, by simpa using own⟩) claim
          claimed
      simp [here] at rejected
    · intro own
      constructor
      · intro unused claim claimed here
        simp [unused claim claimed] at here
      · intro unclaimed claim claimed
        by_contra here
        have here : claim.isAt d.depositCnt d.destNet = true := by
          simpa using here
        obtain ⟨other, otherIn, otherHere, otherFrom⟩ :=
          own ⟨claim, claimed, here⟩
        simp [unclaimed other otherIn otherHere] at otherFrom
  rw [mem_getPendingDepositsToClaim stored block ready kept unmonitored
    address origin]
  constructor
  · intro both
    exact agree.mp both.1
  · intro own
    refine ⟨agree.mpr own, fun notL1 => ?_⟩
    rw [mem_getDepositsFromOtherL2ToClaim stored ready kept notL1]
    exact agree.mpr own

end Queries

section Samples

def readyDeposit (id networkID : Nat) : DepositRow Digest :=
  { id := id
    leafType := 0
    networkID := networkID
    origNet := 0
    origAddr := 0
    amount := 1
    destNet := 2
    destAddr := 0
    blockID := id
    depositCnt := 0
    txHash := .bytes []
    metadata := []
    readyForClaim := true
    ignore := false }

def claimedTables : Tables Digest :=
  { (empty : Tables Digest) with
    block :=
      [{ id := 1
         blockNum := 1
         blockHash := .bytes [1]
         networkID := 0 },
       { id := 2
         blockNum := 1
         blockHash := .bytes [2]
         networkID := 1 },
       { id := 3
         blockNum := 1
         blockHash := .bytes [3]
         networkID := 2 }]
    deposit := [readyDeposit 1 0, readyDeposit 2 1]
    claim :=
      [{ networkID := 2
         index := 0
         origNet := 0
         origAddr := 0
         amount := 1
         destAddr := 0
         blockID := 3
         txHash := .bytes []
         rollupIndex := 0
         mainnetFlag := true
         globalIndex := toString (2 ^ 64) }] }

/-- The claim of the L1 deposit hides the deposit of network 1 with the same
count. -/
theorem unclaimed_deposit_is_hidden :
    readyDeposit 2 1 ∈ claimedTables.deposit ∧
      claimedTables.getClaim 0 1 2 = .error .storageNotFound ∧
      (claimedTables.getPendingDepositsToClaim 0 2 0 0 0 (-1)).1 = [] ∧
      claimedTables.getDepositsFromOtherL2ToClaim 2 = [] := by
  decide

theorem claimed_deposit_is_not_pending :
    (((∃ number, (readyDeposit 1 0).toDeposit number ∈
          (claimedTables.getPendingDepositsToClaim 0 2 0 0 0 (-1)).1) ↔
        claimedTables.getClaim 0 0 2 = .error .storageNotFound) ∧
      (0 ≠ 0 → ((readyDeposit 1 0).toDeposit 0 ∈
            claimedTables.getDepositsFromOtherL2ToClaim 2 ↔
          claimedTables.getClaim 0 0 2 = .error .storageNotFound))) :=
  (pending_iff_unclaimed (d := readyDeposit 1 0) (by decide) (by decide) rfl
    rfl (by decide) rfl rfl).mpr (by decide)

end Samples

end Tables

end BridgeService
