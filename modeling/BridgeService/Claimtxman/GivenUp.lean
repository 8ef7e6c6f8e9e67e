import BridgeService.Claimtxman.PendingRules
import BridgeService.Storage.Claims

/-!
# Deposits that are given up

A deposit whose claim fails is ignored once the head of L1 is a number of
blocks above the block number of the deposit.  Pending deposits of L1 are read
with the number of their block.  Deposits of other networks are read without
one, and the zero that stands for it is compared with the head of L1.
-/

namespace BridgeService

open Calls List

variable {H : Type}

namespace ClaimTxSender

/-- A deposit is ignored only if more than a number of L1 blocks came after the
block `madeAt`.  The node reports one head of L1. -/
def lateProtocol (H : Type) (blocks madeAt head : Nat) :
    Protocol (claimInterface H) Unit where
  start := ()
  ends := fun _ => True
  allowed := fun _ call =>
    match (call : ClaimCall H) with
    | .ignoreDeposit _ => madeAt + blocks < head
    | _ => True
  expected := fun call answer =>
    match (call : ClaimCall H), answer with
    | .l1BlockByNumber _, .ok currentL1Block => currentL1Block = head
    | _, _ => True
  track := fun _ _ _ => ()

def GivesUpLate (tm : ClaimTxSender) (deposit : Deposit H)
    (madeAt head : Nat) : Prop :=
  ∀ fromAddr toAddr value data ger,
    (tm.addClaimTx deposit fromAddr toAddr value data ger).Follows
      (lateProtocol H tm.cfg.ignoreDepositAfterXL1Blocks madeAt head)
      (fun _ _ => True) ()

variable {tm : ClaimTxSender} {deposit : Deposit H} {madeAt head : Nat}

private theorem estimateGasAgain_ends {ends : String → Bool} {err : String}
    (ended : ends err = true) (tx : CallMsg) (left : Nat) :
    estimateGasAgain ends tx left (.error err) =
      (pure (.error err) : Goroutine H (Except String Nat)) := by
  cases left with
  | zero => rfl
  | succ left => rw [estimateGasAgain, if_pos ended]

private theorem givesUpLate_iff : GivesUpLate tm deposit madeAt head ↔
    ((deposit.blockNumber + tm.cfg.ignoreDepositAfterXL1Blocks) % 2 ^ 64 <
      head → madeAt + tm.cfg.ignoreDepositAfterXL1Blocks < head) := by
  constructor
  · intro late above
    have reverted := (late 0 none none [] deposit.txHash).2
      (.error "execution reverted") trivial
    change ((estimateGasAgain isExecutionRevertedText _ _
      (.error "execution reverted")) >>= _).Follows _ _ _ at reverted
    rw [estimateGasAgain_ends (by decide)] at reverted
    have ignored := (reverted.2 (.ok 0) trivial).2 (.ok head) rfl
    change Program.Follows _ _ _ (Program.bind (ite (_ < head) _ _) _)
      at ignored
    rw [if_pos above] at ignored
    exact ignored.1
  · intro late fromAddr toAddr value data ger
    rw [addClaimTx]
    refine follows_bind (follows_estimateGas (fun _ _ => ⟨trivial, rfl⟩) _ _
      _) ?_
    rintro (err | gas) _ _
    · refine follows_ask trivial ?_
      rintro (err | number) _
      · trivial
      · refine follows_ask trivial ?_
        rintro (err | current) reported
        · trivial
        · obtain rfl : current = head := reported
          change Program.Follows _ _ _ (Program.bind (ite (_ < current) _ _) _)
          split
          · next above => exact ⟨late above, fun _ _ => trivial⟩
          · trivial
    · refine follows_ask trivial ?_
      rintro (err | nonce) _
      · trivial
      · refine follows_ask trivial fun tempNonce _ => ?_
        refine follows_ask trivial fun _ _ => ?_
        refine follows_ask trivial ?_
        rintro (err | _) _
        · trivial
        · trivial

/-- A deposit is given up in time.  For a pending deposit of L1 this depends on
an overflow; a deposit of another network is given up as soon as the head of L1
is above the number of blocks, whenever it was made. -/
theorem given_up_late_iff [DecidableEq H] (tm : ClaimTxSender) (t : Tables H)
    (head : Nat) (word : head < 2 ^ 64) :
    (∀ addressFilter leafType deposit,
      deposit ∈ (t.getPendingDepositsToClaim addressFilter tm.l2NetworkID
        leafType 0 0 0).1 →
      ∃ row block, row ∈ t.deposit ∧ row.networkID = 0 ∧ block ∈ t.block ∧
        block.id = row.blockID ∧ deposit = row.toDeposit block.blockNum ∧
        (GivesUpLate tm deposit block.blockNum head ↔
          block.blockNum + tm.cfg.ignoreDepositAfterXL1Blocks < 2 ^ 64 ∨
            head ≤ (block.blockNum +
              tm.cfg.ignoreDepositAfterXL1Blocks) % 2 ^ 64)) ∧
      ∀ deposit, deposit ∈ t.getDepositsFromOtherL2ToClaim tm.l2NetworkID →
        ∀ madeAt, GivesUpLate tm deposit madeAt head ↔
          head ≤ tm.cfg.ignoreDepositAfterXL1Blocks % 2 ^ 64 ∨
            madeAt + tm.cfg.ignoreDepositAfterXL1Blocks < head := by
  constructor
  · intro addressFilter leafType deposit selected
    simp only [Tables.getPendingDepositsToClaim, Nat.lt_irrefl, if_false,
      mem_flatMap, Rows.mem_orderBy, Tables.pendingDeposits,
      mem_filter, mem_map] at selected
    obtain ⟨row, ⟨stored, chosen⟩, block, ⟨blockIn, same⟩, rfl⟩ := selected
    have l1 : row.networkID = 0 := by
      simp [Tables.fromNetworkMatches] at chosen
      exact chosen.1.1.1.1.1.2
    refine ⟨row, block, stored, l1, blockIn, by simpa using same, rfl, ?_⟩
    have read : (row.toDeposit block.blockNum).blockNumber =
        block.blockNum := rfl
    rw [givesUpLate_iff, read]
    omega
  · intro deposit selected madeAt
    obtain ⟨row, _, rfl⟩ := mem_map.mp selected
    rw [givesUpLate_iff, DepositRow.toDeposit, Nat.zero_add]
    omega

end ClaimTxSender

namespace SampleClaims

open ClaimTxSender

def impatient : ClaimTxSender :=
  { l2NetworkID := 2
    rollupID := 2
    cfg :=
      { retryNumber := 1
        ignoreDepositAfterXL1Blocks := 100
        areClaimsBetweenL2sEnabled := true
        authorizedClaimMessageAddresses := [] }
    fromAddr := 0 }

def unclaimedTables : Tables Digest :=
  { Tables.claimedTables with claim := [] }

/-- A deposit that was made at the head of L1 is given up at once. -/
theorem fresh_deposit_given_up :
    (Tables.readyDeposit 2 1).toDeposit 0 ∈
        unclaimedTables.getDepositsFromOtherL2ToClaim 2 ∧
      ¬GivesUpLate impatient ((Tables.readyDeposit 2 1).toDeposit 0) 1000
        1000 := by
  refine ⟨by decide, ?_⟩
  rw [givesUpLate_iff]
  decide

theorem recent_deposit_kept : 50 < 2 ^ 64 ∧
    GivesUpLate impatient ((Tables.readyDeposit 2 1).toDeposit 0) 20 50 :=
  ⟨by decide, ((given_up_late_iff impatient unclaimedTables 50
    (by decide)).2 _ (by decide) 20).mpr (.inl (by decide))⟩

end SampleClaims

end BridgeService
