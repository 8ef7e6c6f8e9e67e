import BridgeService.Storage.Claims
import Mathlib.Data.Nat.Notation
import Mathlib.Logic.Function.Basic

/-!
# The claim table as a map from deposits

A deposit is known by its origin network and its count.  The flag and the
rollup index of a claim stand for the origin network.  If the claims of a
network have the flag and the rollup index of their deposits, the rows of the
network are the values of a map from deposits, and `getClaim` reads that map.
-/

namespace BridgeService

open List

variable {H : Type}

/-- The claim has the index, the flag and the rollup index of a deposit. -/
structure ClaimRow.Claims (row : ClaimRow H) (deposit : Nat × Nat) :
    Prop where
  index : row.index = deposit.2
  mainnetFlag : row.mainnetFlag = decide (deposit.1 = 0)
  rollupIndex : row.rollupIndex = deposit.1 - 1

def ClaimRow.toClaim (row : ClaimRow H) (originNetworkID : Nat) : Claim H :=
  { mainnetFlag := originNetworkID = 0
    rollupIndex := row.rollupIndex
    index := row.index
    originalNetwork := row.origNet
    originalAddress := row.origAddr
    amount := row.amount
    destinationAddress := row.destAddr
    blockID := row.blockID
    blockNumber := 0
    networkID := row.networkID
    txHash := row.txHash
    globalIndex := row.globalIndex }

theorem ClaimRow.Claims.isFrom_iff {row : ClaimRow H} {deposit : Nat × Nat}
    (claims : row.Claims deposit) (originNetworkID : Nat) :
    row.isFrom originNetworkID = true ↔ originNetworkID = deposit.1 := by
  rw [ClaimRow.isFrom, claims.mainnetFlag, claims.rollupIndex]
  split
  · next origin =>
    rw [origin, decide_eq_true_eq]
    exact eq_comm
  · next origin =>
    simp only [Bool.and_eq_true, Bool.not_eq_true', decide_eq_false_iff_not,
      beq_iff_eq]
    omega

theorem ClaimRow.Claims.deposit_eq {row other : ClaimRow H}
    {deposit deposit' : Nat × Nat} (claims : row.Claims deposit)
    (claims' : other.Claims deposit') (index : row.index = other.index)
    (rollupIndex : row.rollupIndex = other.rollupIndex)
    (mainnetFlag : row.mainnetFlag = other.mainnetFlag) :
    deposit = deposit' := by
  rw [claims.index, claims'.index] at index
  rw [claims.rollupIndex, claims'.rollupIndex] at rollupIndex
  rw [claims.mainnetFlag, claims'.mainnetFlag, decide_eq_decide] at mainnetFlag
  exact Prod.ext (by omega) index

namespace Tables

/-- The rows of a network are the values of a map from deposits. -/
structure ClaimedAs (t : Tables H) (networkID : Nat)
    (claims : Nat × Nat → Option (ClaimRow H)) : Prop where
  rows : ∀ row, row ∈ t.claim ∧ row.networkID = networkID ↔
    ∃ deposit, claims deposit = some row
  key : ∀ deposit row, claims deposit = some row → row.Claims deposit

def claimConflict (t : Tables H) (claim : Claim H) : Bool :=
  t.claim.any fun row =>
    row.index == claim.index && row.rollupIndex == claim.rollupIndex &&
      row.networkID == claim.networkID &&
      row.mainnetFlag == claim.mainnetFlag

section Map

variable {t : Tables H} {networkID : Nat}
  {claims : Nat × Nat → Option (ClaimRow H)}

theorem claimedAs_empty (none : ∀ row, row ∈ t.claim →
    row.networkID ≠ networkID) : t.ClaimedAs networkID fun _ => .none where
  rows row := by
    constructor
    · rintro ⟨stored, here⟩
      exact (none row stored here).elim
    · rintro ⟨_, impossible⟩
      contradiction
  key _ _ impossible := by contradiction

section

variable (claimed : t.ClaimedAs networkID claims)

include claimed

theorem ClaimedAs.getClaim_eq (deposit : Nat × Nat) :
    t.getClaim deposit.2 deposit.1 networkID =
      match claims deposit with
      | none => .error .storageNotFound
      | some row => .ok (row.toClaim deposit.1) := by
  have found_iff : ∀ row, row ∈ t.claim →
      ((row.isAt deposit.2 networkID && row.isFrom deposit.1) = true ↔
        claims deposit = some row) := by
    intro row stored
    rw [Bool.and_eq_true, ClaimRow.isAt, Bool.and_eq_true, beq_iff_eq,
      beq_iff_eq]
    constructor
    · rintro ⟨⟨index, here⟩, origin⟩
      obtain ⟨other, found⟩ := (claimed.rows row).mp ⟨stored, here⟩
      have key := claimed.key other row found
      have same : deposit = other :=
        Prod.ext ((key.isFrom_iff deposit.1).mp origin)
          (index.symm.trans key.index)
      rw [same]
      exact found
    · intro found
      have key := claimed.key deposit row found
      exact ⟨⟨key.index, ((claimed.rows row).mpr ⟨deposit, found⟩).2⟩,
        (key.isFrom_iff deposit.1).mpr rfl⟩
  rw [getClaim]
  cases search : t.claim.find? fun row =>
      row.isAt deposit.2 networkID && row.isFrom deposit.1 with
  | none =>
    cases entry : claims deposit with
    | none => rfl
    | some row =>
      have stored := ((claimed.rows row).mpr ⟨deposit, entry⟩).1
      have rejected := find?_eq_none.mp search row stored
      exact (rejected ((found_iff row stored).mpr entry)).elim
  | some row =>
    have passed := find?_some search
    rw [(found_iff row (mem_of_find?_eq_some search)).mp passed]
    rfl

theorem ClaimedAs.claimConflict_eq_false {deposit : Nat × Nat}
    (unclaimed : claims deposit = none) {claim : Claim H}
    (here : claim.networkID = networkID)
    (own : (Storage.claimRow claim).Claims deposit) :
    t.claimConflict claim = false := by
  rw [claimConflict, any_eq_false]
  intro row stored same
  simp only [Bool.and_eq_true, beq_iff_eq] at same
  obtain ⟨⟨⟨index, rollupIndex⟩, network⟩, mainnetFlag⟩ := same
  obtain ⟨other, found⟩ := (claimed.rows row).mp ⟨stored, network.trans here⟩
  have equal := (claimed.key other row found).deposit_eq own index rollupIndex
    mainnetFlag
  rw [equal, unclaimed] at found
  contradiction

theorem ClaimedAs.insert {deposit : Nat × Nat}
    (unclaimed : claims deposit = none) {row : ClaimRow H}
    (here : row.networkID = networkID) (own : row.Claims deposit)
    {t' : Tables H} (stored : t'.claim = t.claim ++ [row]) :
    t'.ClaimedAs networkID
      (Function.update claims deposit (some row)) where
  rows other := by
    rw [stored, mem_append, mem_singleton]
    constructor
    · rintro ⟨old | rfl, network⟩
      · obtain ⟨origin, found⟩ := (claimed.rows other).mp ⟨old, network⟩
        refine ⟨origin, ?_⟩
        rw [Function.update_of_ne, found]
        rintro rfl
        simp [unclaimed] at found
      · exact ⟨deposit, Function.update_self ..⟩
    · rintro ⟨origin, found⟩
      by_cases same : origin = deposit
      · rw [same, Function.update_self] at found
        obtain rfl := Option.some.inj found
        exact ⟨.inr rfl, here⟩
      · rw [Function.update_of_ne same] at found
        obtain ⟨old, network⟩ := (claimed.rows other).mpr ⟨origin, found⟩
        exact ⟨.inl old, network⟩
  key origin other found := by
    by_cases same : origin = deposit
    · rw [same, Function.update_self] at found
      obtain rfl := Option.some.inj found
      rw [same]
      exact own
    · rw [Function.update_of_ne same] at found
      exact claimed.key origin other found

theorem ClaimedAs.insert_other {row : ClaimRow H}
    (other : row.networkID ≠ networkID) {t' : Tables H}
    (stored : t'.claim = t.claim ++ [row]) :
    t'.ClaimedAs networkID claims where
  rows candidate := by
    rw [← claimed.rows candidate, stored, mem_append, mem_singleton]
    constructor
    · rintro ⟨old | rfl, network⟩
      · exact ⟨old, network⟩
      · exact (other network).elim
    · rintro ⟨old, network⟩
      exact ⟨.inl old, network⟩
  key := claimed.key

theorem ClaimedAs.delete (deposit : Nat × Nat) {keep : ClaimRow H → Bool}
    (own : ∀ origin row, claims origin = some row →
      (keep row = false ↔ origin = deposit))
    {t' : Tables H} (stored : t'.claim = t.claim.filter keep) :
    t'.ClaimedAs networkID
      (Function.update claims deposit none) where
  rows row := by
    rw [stored, mem_filter]
    constructor
    · rintro ⟨⟨old, kept⟩, network⟩
      obtain ⟨origin, found⟩ := (claimed.rows row).mp ⟨old, network⟩
      refine ⟨origin, ?_⟩
      rw [Function.update_of_ne, found]
      intro same
      rw [(own origin row found).mpr same] at kept
      contradiction
    · rintro ⟨origin, found⟩
      by_cases same : origin = deposit
      · rw [same, Function.update_self] at found
        contradiction
      · rw [Function.update_of_ne same] at found
        obtain ⟨old, network⟩ := (claimed.rows row).mpr ⟨origin, found⟩
        refine ⟨⟨old, ?_⟩, network⟩
        by_contra gone
        exact same ((own origin row found).mp (by simpa using gone))
  key origin row found := by
    by_cases same : origin = deposit
    · rw [same, Function.update_self] at found
      contradiction
    · rw [Function.update_of_ne same] at found
      exact claimed.key origin row found

end

end Map

end Tables

end BridgeService
