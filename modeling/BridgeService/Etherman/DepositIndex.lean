import BridgeService.Etherman.ReadEvents

/-!
# Global indices of deposits

A deposit is known by its network and its count.  Its global index has the flag
of the main network or the index of the rollup, and the count.  Below `2 ^ 31`
networks and `2 ^ 32` deposits the index and its decimal text tell deposits
apart, and the decoders give back the fields.
-/

namespace BridgeService

def depositIndex (deposit : Nat × Nat) : Nat :=
  if deposit.1 = 0 then
    generateGlobalIndex true 0 (UInt32.ofNat deposit.2)
  else
    generateGlobalIndex false (UInt32.ofNat (deposit.1 - 1))
      (UInt32.ofNat deposit.2)

def depositWord (deposit : Nat × Nat) : BitVec 256 :=
  BitVec.ofNat 256 (depositIndex deposit)

structure Indexed (deposit : Nat × Nat) : Prop where
  network : deposit.1 < 2 ^ 31
  count : deposit.2 < 2 ^ 32

instance (deposit : Nat × Nat) : Decidable (Indexed deposit) :=
  decidable_of_iff (deposit.1 < 2 ^ 31 ∧ deposit.2 < 2 ^ 32)
    ⟨fun bounds => ⟨bounds.1, bounds.2⟩,
      fun indexed => ⟨indexed.network, indexed.count⟩⟩

variable {deposit other : Nat × Nat}

section

variable (indexed : Indexed deposit)

include indexed

theorem depositIndex_eq :
    depositIndex deposit =
      (if deposit.1 = 0 then 2 ^ 64 else (deposit.1 - 1) * 2 ^ 32) +
        deposit.2 := by
  have network := indexed.network
  have count := indexed.count
  have countOf : (UInt32.ofNat deposit.2).toNat = deposit.2 := by
    rw [UInt32.toNat_ofNat', Nat.mod_eq_of_lt count]
  have rollupOf : (UInt32.ofNat (deposit.1 - 1)).toNat = deposit.1 - 1 := by
    rw [UInt32.toNat_ofNat', Nat.mod_eq_of_lt (by omega)]
  rw [depositIndex]
  split
  · rw [generateGlobalIndex_eq, countOf, if_pos rfl]
  · rw [generateGlobalIndex_eq, countOf, rollupOf, if_neg (by simp)]

theorem depositWord_toNat :
    (depositWord deposit).toNat = depositIndex deposit := by
  have network := indexed.network
  have count := indexed.count
  have small : depositIndex deposit < 2 ^ 256 := by
    rw [depositIndex_eq indexed]
    split
    · omega
    · omega
  rw [depositWord, BitVec.toNat_ofNat, Nat.mod_eq_of_lt small]

theorem depositIndex_inj (indexed' : Indexed other)
    (same : depositIndex deposit = depositIndex other) : deposit = other := by
  have network := indexed.network
  have count := indexed.count
  have network' := indexed'.network
  have count' := indexed'.count
  rw [depositIndex_eq indexed, depositIndex_eq indexed'] at same
  apply Prod.ext
  · split at same
    · split at same
      · omega
      · omega
    · split at same
      · omega
      · omega
  · split at same
    · split at same
      · omega
      · omega
    · split at same
      · omega
      · omega

theorem depositWord_inj (indexed' : Indexed other)
    (same : depositWord deposit = depositWord other) : deposit = other := by
  apply depositIndex_inj indexed indexed'
  rw [← depositWord_toNat indexed, same, depositWord_toNat indexed']

theorem depositText_inj (indexed' : Indexed other)
    (same : toString (depositIndex deposit) =
      toString (depositIndex other)) : deposit = other := by
  apply depositIndex_inj indexed indexed'
  have digits : Nat.toDigits 10 (depositIndex deposit) =
      Nat.toDigits 10 (depositIndex other) := by
    rw [Nat.toString_eq_ofList_toDigits, Nat.toString_eq_ofList_toDigits]
      at same
    exact String.ofList_injective same
  calc
    depositIndex deposit =
        Nat.ofDigitChars 10 (Nat.toDigits 10 (depositIndex deposit)) 0 :=
      Nat.ofDigitChars_ten_toDigits.symm
    _ = Nat.ofDigitChars 10 (Nat.toDigits 10 (depositIndex other)) 0 := by
      rw [digits]
    _ = depositIndex other := Nat.ofDigitChars_ten_toDigits

theorem decode_depositWord :
    decodeGlobalIndex (depositWord deposit).toNat =
      .ok (decide (deposit.1 = 0), UInt32.ofNat (deposit.1 - 1),
        UInt32.ofNat deposit.2) := by
  rw [depositWord_toNat indexed, depositIndex]
  split
  · next mainnet =>
    rw [decodeGlobalIndex_generate, if_pos rfl, mainnet]
    rfl
  · next rollup =>
    rw [decodeGlobalIndex_generate, if_neg (by simp), decide_eq_false rollup]

end

section Records

variable {H : Type}

theorem newClaimOf_deposit (indexed : Indexed deposit) {vLog : Log H}
    {c : ClaimEvent} (index : c.globalIndex = depositWord deposit) :
    newClaimOf vLog c = .ok (claimOf vLog c.amount c.destinationAddress
      c.originAddress deposit.2 c.originNetwork (deposit.1 - 1)
      (decide (deposit.1 = 0)) (toString (depositIndex deposit))) := by
  have network := indexed.network
  rw [newClaimOf, index, decode_depositWord indexed]
  simp only [UInt32.toNat_ofNat', Nat.mod_eq_of_lt indexed.count,
    Nat.mod_eq_of_lt (show deposit.1 - 1 < 2 ^ 32 by omega),
    depositWord_toNat indexed]

theorem setClaimOf_deposit (indexed : Indexed deposit) (vLog : Log H) :
    setClaimOf vLog (depositWord deposit) = .ok
      { blockID := 0
        mainnetFlag := decide (deposit.1 = 0)
        rollupIndex := deposit.1 - 1
        index := deposit.2
        globalIndex := depositIndex deposit
        txHash := vLog.txHash } := by
  have network := indexed.network
  rw [setClaimOf, decode_depositWord indexed]
  simp only [UInt32.toNat_ofNat', Nat.mod_eq_of_lt indexed.count,
    Nat.mod_eq_of_lt (show deposit.1 - 1 < 2 ^ 32 by omega),
    depositWord_toNat indexed]

theorem unsetClaimOf_deposit (indexed : Indexed deposit) :
    unsetClaimOf (depositWord deposit) = .ok
      { blockID := 0
        mainnetFlag := decide (deposit.1 = 0)
        rollupIndex := deposit.1 - 1
        index := deposit.2
        globalIndex := depositIndex deposit } := by
  have network := indexed.network
  rw [unsetClaimOf, decode_depositWord indexed]
  simp only [UInt32.toNat_ofNat', Nat.mod_eq_of_lt indexed.count,
    Nat.mod_eq_of_lt (show deposit.1 - 1 < 2 ^ 32 by omega),
    depositWord_toNat indexed]

end Records

end BridgeService
