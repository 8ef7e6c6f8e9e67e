import BridgeService.Lib.BigEndian
import Mathlib.Data.BitVec

/-!
# Global indices

A claim names its deposit by a global index: a flag for the mainnet, the index
of the rollup and the index of the leaf.  The service writes and reads the
fields as big-endian bytes, the contract with masks and shifts.  Both agree on
every index that the contract accepts.
-/

namespace BridgeService

open BigEndian

inductive GlobalIndexErr
  | panic
  | invalidLength (length : Nat)
  | invalidRollupIndex
  | invalidLocalRootIndex
deriving DecidableEq

def decodeGlobalIndex (globalIndex : Nat) :
    Except GlobalIndexErr (Bool × UInt32 × UInt32) :=
  match fillBytes 32 globalIndex with
  | none => .error .panic
  | some gIBytes =>
    if gIBytes.length ≠ 32 then
      .error (.invalidLength gIBytes.length)
    else
      let mainnetFlag := value [gIBytes.getD 23 0] == 1
      let rollupIndex := value ((gIBytes.drop 24).take 4)
      let localRootIndex := value ((gIBytes.drop 28).take 4)
      if rollupIndex > 2 ^ 32 - 1 then .error .invalidRollupIndex
      else if localRootIndex > 2 ^ 32 - 1 then
        .error .invalidLocalRootIndex
      else
        .ok (mainnetFlag, UInt32.ofNat rollupIndex,
          UInt32.ofNat localRootIndex)

def generateGlobalIndex (mainnetFlag : Bool)
    (rollupIndex localExitRootIndex : UInt32) : Nat :=
  let ri :=
    if mainnetFlag then bytes 1 ++ fill 4 0
    else fill 4 rollupIndex.toNat
  value (ri ++ fill 4 localExitRootIndex.toNat)

/-- The constant `_GLOBAL_INDEX_MAINNET_FLAG` of the contract. -/
def globalIndexMainnetFlag : BitVec 256 := 1#256 <<< 64

/-- The function `_validateAndDecodeGlobalIndex` of the contract: the index of
the leaf, the index of the rollup and the source network.  The addition of one
to the index of the rollup is checked. -/
def validateAndDecodeGlobalIndex (globalIndex : BitVec 256) :
    Option (UInt32 × UInt32 × UInt32) :=
  let leafIndex := globalIndex.setWidth 32
  if globalIndex &&& globalIndexMainnetFlag ≠ 0 then
    if globalIndexMainnetFlag + leafIndex.setWidth 256 = globalIndex then
      some (.ofBitVec leafIndex, 0, 0)
    else none
  else
    let indexRollup := (globalIndex >>> 32).setWidth 32
    if indexRollup = BitVec.allOnes 32 then none
    else if (indexRollup.setWidth 256 <<< 32) + leafIndex.setWidth 256 =
        globalIndex then
      some (.ofBitVec leafIndex, .ofBitVec indexRollup,
        .ofBitVec (indexRollup + 1))
    else none

theorem generateGlobalIndex_eq (mainnetFlag : Bool)
    (rollupIndex localExitRootIndex : UInt32) :
    generateGlobalIndex mainnetFlag rollupIndex localExitRootIndex =
      (if mainnetFlag then 2 ^ 64 else rollupIndex.toNat * 2 ^ 32) +
        localExitRootIndex.toNat := by
  have one : value (bytes 1) = 1 := by
    simp [bytes, value]
  cases mainnetFlag with
  | true =>
    simp [generateGlobalIndex, value_append, one]
  | false =>
    simp [generateGlobalIndex, value_append]

private theorem singleton_getD {bytes : List UInt8} {position : Nat}
    (inside : position < bytes.length) :
    [bytes.getD position 0] = (bytes.drop position).take 1 := by
  rw [List.drop_eq_getElem_cons inside, List.getD_eq_getElem?_getD,
    List.getElem?_eq_getElem inside]
  rfl

private theorem ofNat_mod (number : Nat) :
    UInt32.ofNat (number % 2 ^ 32) = UInt32.ofNat number := by
  apply UInt32.toNat_inj.mp
  simp

theorem decodeGlobalIndex_eq {globalIndex : Nat}
    (fits : globalIndex < 2 ^ 256) :
    decodeGlobalIndex globalIndex = .ok (globalIndex / 2 ^ 64 % 256 == 1,
        UInt32.ofNat (globalIndex / 2 ^ 32), UInt32.ofNat globalIndex) := by
  have buffer : fillBytes 32 globalIndex = some (fill 32 globalIndex) := by
    rw [fillBytes, if_pos]
    norm_num at fits ⊢
    exact fits
  have flag : value [(fill 32 globalIndex).getD 23 0] =
      globalIndex / 2 ^ 64 % 256 := by
    rw [singleton_getD (by simp), field_fill 23 1 8, value_fill]
    norm_num
  have rollup : value (((fill 32 globalIndex).drop 24).take 4) =
      globalIndex / 2 ^ 32 % 2 ^ 32 := by
    rw [field_fill 24 4 4, value_fill]
    norm_num
  have localRoot : value (((fill 32 globalIndex).drop 28).take 4) =
      globalIndex % 2 ^ 32 := by
    rw [field_fill 28 4 0, value_fill]
    norm_num
  have rollupSmall : ¬globalIndex / 2 ^ 32 % 2 ^ 32 > 2 ^ 32 - 1 := by omega
  have localSmall : ¬globalIndex % 2 ^ 32 > 2 ^ 32 - 1 := by omega
  rw [decodeGlobalIndex, buffer]
  simp only [length_fill, ne_eq, not_true_eq_false, if_false, flag, rollup,
    localRoot, if_neg rollupSmall, if_neg localSmall, ofNat_mod]

theorem decodeGlobalIndex_generate (mainnetFlag : Bool)
    (rollupIndex localExitRootIndex : UInt32) :
    decodeGlobalIndex (generateGlobalIndex mainnetFlag rollupIndex
        localExitRootIndex) =
      .ok (mainnetFlag, if mainnetFlag then 0 else rollupIndex,
        localExitRootIndex) := by
  have small := rollupIndex.toNat_lt
  have smallLocal := localExitRootIndex.toNat_lt
  rw [generateGlobalIndex_eq]
  cases mainnetFlag with
  | true =>
    rw [if_pos rfl, decodeGlobalIndex_eq (by omega), if_pos rfl]
    have flag : (2 ^ 64 + localExitRootIndex.toNat) / 2 ^ 64 % 256 = 1 := by
      omega
    have rollup : UInt32.ofNat ((2 ^ 64 + localExitRootIndex.toNat) /
        2 ^ 32) = 0 := by
      apply UInt32.toNat_inj.mp
      rw [UInt32.toNat_ofNat', UInt32.toNat_zero]
      omega
    have leaf : UInt32.ofNat (2 ^ 64 + localExitRootIndex.toNat) =
        localExitRootIndex := by
      apply UInt32.toNat_inj.mp
      rw [UInt32.toNat_ofNat']
      omega
    rw [flag, rollup, leaf]
    rfl
  | false =>
    rw [if_neg Bool.false_ne_true, decodeGlobalIndex_eq (by omega),
      if_neg Bool.false_ne_true]
    have flag : (rollupIndex.toNat * 2 ^ 32 + localExitRootIndex.toNat) /
        2 ^ 64 % 256 = 0 := by
      omega
    have rollup : UInt32.ofNat ((rollupIndex.toNat * 2 ^ 32 +
        localExitRootIndex.toNat) / 2 ^ 32) = rollupIndex := by
      apply UInt32.toNat_inj.mp
      rw [UInt32.toNat_ofNat']
      omega
    have leaf : UInt32.ofNat (rollupIndex.toNat * 2 ^ 32 +
        localExitRootIndex.toNat) = localExitRootIndex := by
      apply UInt32.toNat_inj.mp
      rw [UInt32.toNat_ofNat']
      omega
    rw [flag, rollup, leaf]
    rfl

private theorem succ_ne_zero {index : BitVec 32}
    (noOverflow : index ≠ BitVec.allOnes 32) :
    UInt32.ofBitVec (index + 1) ≠ 0 := by
  intro zero
  have wraps : index + 1#32 = 0#32 := congrArg UInt32.toBitVec zero
  apply noOverflow
  apply BitVec.eq_of_toNat_eq
  have number := congrArg BitVec.toNat wraps
  have bound := index.isLt
  rw [BitVec.toNat_add] at number
  rw [BitVec.toNat_allOnes]
  simp only [BitVec.toNat_ofNat] at number
  omega

theorem validateAndDecodeGlobalIndex_eq {globalIndex : BitVec 256}
    {leafIndex indexRollup sourceBridgeNetwork : UInt32}
    (accepted : validateAndDecodeGlobalIndex globalIndex =
      some (leafIndex, indexRollup, sourceBridgeNetwork)) :
    (sourceBridgeNetwork = 0 ∧ indexRollup = 0 ∧
      globalIndex.toNat = 2 ^ 64 + leafIndex.toNat) ∨
    (sourceBridgeNetwork ≠ 0 ∧
      globalIndex.toNat = indexRollup.toNat * 2 ^ 32 + leafIndex.toNat) := by
  simp only [validateAndDecodeGlobalIndex] at accepted
  split at accepted
  · split at accepted
    · next same =>
      simp only [Option.some.injEq, Prod.mk.injEq] at accepted
      obtain ⟨rfl, rfl, rfl⟩ := accepted
      refine .inl ⟨rfl, rfl, ?_⟩
      have number := congrArg BitVec.toNat same
      have flag : globalIndexMainnetFlag.toNat = 2 ^ 64 := by decide
      rw [BitVec.toNat_add, flag] at number
      simp only [BitVec.toNat_setWidth, UInt32.toNat_ofBitVec] at number ⊢
      omega
    · contradiction
  · split at accepted
    · contradiction
    · next noOverflow =>
      split at accepted
      · next same =>
        simp only [Option.some.injEq, Prod.mk.injEq] at accepted
        obtain ⟨rfl, rfl, rfl⟩ := accepted
        refine .inr ⟨?_, ?_⟩
        · exact succ_ne_zero noOverflow
        · have number := congrArg BitVec.toNat same
          have bound := ((globalIndex >>> 32).setWidth 32 : BitVec 32).isLt
          rw [BitVec.toNat_add, BitVec.toNat_shiftLeft,
            Nat.shiftLeft_eq] at number
          simp only [BitVec.toNat_setWidth, UInt32.toNat_ofBitVec]
            at number bound ⊢
          omega
      · contradiction

/-- The fields of a generated index are decoded again, and an index that the
contract accepts is decoded as by the contract and generated again. -/
theorem globalIndex_codec :
    (∀ mainnetFlag rollupIndex localExitRootIndex,
      decodeGlobalIndex (generateGlobalIndex mainnetFlag rollupIndex
          localExitRootIndex) =
        .ok (mainnetFlag, if mainnetFlag then 0 else rollupIndex,
          localExitRootIndex)) ∧
    ∀ globalIndex leafIndex indexRollup sourceBridgeNetwork,
      validateAndDecodeGlobalIndex globalIndex =
          some (leafIndex, indexRollup, sourceBridgeNetwork) →
        decodeGlobalIndex globalIndex.toNat =
            .ok (decide (sourceBridgeNetwork = 0), indexRollup, leafIndex) ∧
          generateGlobalIndex (decide (sourceBridgeNetwork = 0)) indexRollup
            leafIndex = globalIndex.toNat := by
  constructor
  · intro mainnetFlag rollupIndex localExitRootIndex
    exact decodeGlobalIndex_generate mainnetFlag rollupIndex localExitRootIndex
  · intro globalIndex leafIndex indexRollup sourceBridgeNetwork accepted
    rcases validateAndDecodeGlobalIndex_eq accepted with
      ⟨mainnet, rfl, number⟩ | ⟨rollup, number⟩
    · have generated : generateGlobalIndex true 0 leafIndex =
          globalIndex.toNat := by
        rw [generateGlobalIndex_eq, number]
        rfl
      rw [decide_eq_true mainnet, ← generated]
      exact ⟨decodeGlobalIndex_generate true 0 leafIndex, rfl⟩
    · have generated : generateGlobalIndex false indexRollup leafIndex =
          globalIndex.toNat := by
        rw [generateGlobalIndex_eq, number]
        rfl
      rw [decide_eq_false rollup, ← generated]
      exact ⟨decodeGlobalIndex_generate false indexRollup leafIndex, rfl⟩

theorem globalIndex_codec_sample :
    decodeGlobalIndex (2 ^ 64 + 7) = .ok (true, 0, 7) ∧
      decodeGlobalIndex (2 ^ 32 + 7) = .ok (false, 1, 7) := by
  have mainnet := globalIndex_codec.2 (BitVec.ofNat 256 (2 ^ 64 + 7)) 7 0 0
    (by decide +kernel)
  have rollup := globalIndex_codec.2 (BitVec.ofNat 256 (2 ^ 32 + 7)) 7 1 2
    (by decide +kernel)
  exact ⟨mainnet.1, rollup.1⟩

end BridgeService
