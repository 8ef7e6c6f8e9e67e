import BridgeService.Synchronizer.ClaimMatching
import Mathlib.Data.List.Pairwise

/-!
# Claims of the first version of the contract

An old claim event has the count of a deposit but not its network; the network
is the other one of the first two.  The decoder stores every old claim as one
of a deposit of network 1.  This is right on the main network.  On network 1
the claims are of deposits of the main network, and `getClaim` does not find
them.
-/

namespace BridgeService

open ErrorState World List

variable {H : Type}

def Log.Claims (vLog : Log H) (networkID : Nat) (deposit : Nat × Nat) : Prop :=
  match vLog.data with
  | .oldClaim c => deposit = (1 - networkID, c.index)
  | .claim c => Indexed deposit ∧ c.globalIndex = depositWord deposit
  | _ => False

/-- What a claim event says about the asset: its network and address, the
amount and the receiver. -/
def Log.asset (vLog : Log H) : Option (Nat × Address × Nat × Address) :=
  match vLog.data with
  | .oldClaim c =>
    some (c.originNetwork, c.originAddress, c.amount, c.destinationAddress)
  | .claim c =>
    some (c.originNetwork, c.originAddress, c.amount, c.destinationAddress)
  | _ => none

def Log.IsSource (vLog : Log H) (claim : Claim H) : Prop :=
  claim.txHash = vLog.txHash ∧
    vLog.asset = some (claim.originalNetwork, claim.originalAddress,
      claim.amount, claim.destinationAddress)

/-- Every claim is of a deposit that has not been claimed on the network. -/
def ClaimedOnce (logs : List (Nat × Log H)) : Prop :=
  logs.Pairwise fun first second => first.1 = second.1 →
    ∀ deposit, first.2.Claims first.1 deposit →
      ¬second.2.Claims second.1 deposit

/-- `getClaim` finds the claims of the deposits of a network on another one:
those in the logs and no others. -/
def Tables.FindsClaims (t : Tables H) (logs : List (Nat × Log H))
    (origin networkID : Nat) : Prop :=
  ∀ count, (∀ vLog, (networkID, vLog) ∈ logs →
      vLog.Claims networkID (origin, count) →
        ∃ claim, t.getClaim count origin networkID = .ok claim ∧
          vLog.IsSource claim) ∧
    ((∀ vLog, (networkID, vLog) ∈ logs →
      ¬vLog.Claims networkID (origin, count)) →
        t.getClaim count origin networkID = .error .storageNotFound)

theorem Log.Claims.unique {vLog : Log H} {networkID : Nat}
    {deposit other : Nat × Nat} (claims : vLog.Claims networkID deposit)
    (claims' : vLog.Claims networkID other) : deposit = other := by
  unfold Log.Claims at claims claims'
  cases data : vLog.data with
  | oldClaim c =>
    simp only [data] at claims claims'
    rw [claims, claims']
  | claim c =>
    simp only [data] at claims claims'
    exact depositWord_inj claims.1 claims'.1 (claims.2.symm.trans claims'.2)
  | _ =>
    simp only [data] at claims

structure Attributed (networkID : Nat)
    (claims : Nat × Nat → Option (ClaimRow H))
    (done : List (Nat × Log H)) (t : Tables H) : Prop where
  claimed : t.ClaimedAs networkID claims
  kept : ∀ vLog deposit, (networkID, vLog) ∈ done →
    vLog.Claims networkID deposit →
      ∃ row, claims deposit = some row ∧ vLog.IsSource (row.toClaim deposit.1)
  only : ∀ deposit row, claims deposit = some row →
    ∃ vLog, (networkID, vLog) ∈ done ∧ vLog.Claims networkID deposit

def AllAttributed (done : List (Nat × Log H)) (t : Tables H) : Prop :=
  ∀ networkID, ∃ claims, Attributed networkID claims done t

namespace Attributed

variable {networkID : Nat} {claims : Nat × Nat → Option (ClaimRow H)}
  {done : List (Nat × Log H)} {t t' : Tables H} {vLog : Log H}
  {deposit : Nat × Nat} {row : ClaimRow H}

section

variable (attributed : Attributed networkID claims done t)

include attributed

theorem insert_other {network : Nat} (other : network ≠ networkID)
    (own : row.networkID = network) (stored : t'.claim = t.claim ++ [row]) :
    Attributed networkID claims (done ++ [(network, vLog)]) t' where
  claimed := attributed.claimed.insert_other (own ▸ other) stored
  kept earlier deposit mem claimsIt := by
    rcases mem_append.mp mem with old | new
    · exact attributed.kept earlier deposit old claimsIt
    · injection mem_singleton.mp new with same
      exact (other same.symm).elim
  only deposit kept found := by
    obtain ⟨earlier, old, claimsIt⟩ := attributed.only deposit kept found
    exact ⟨earlier, mem_append_left _ old, claimsIt⟩

theorem free
    (fresh : ∀ earlier, (networkID, earlier) ∈ done →
      ¬earlier.Claims networkID deposit) : claims deposit = none := by
  cases found : claims deposit with
  | none => rfl
  | some old =>
    obtain ⟨earlier, mem, taken⟩ := attributed.only _ _ found
    exact (fresh earlier mem taken).elim

theorem insert
    (fresh : ∀ earlier, (networkID, earlier) ∈ done →
      ¬earlier.Claims networkID deposit)
    (claimsIt : vLog.Claims networkID deposit) (own : row.Claims deposit)
    (here : row.networkID = networkID)
    (source : vLog.IsSource (row.toClaim deposit.1))
    (stored : t'.claim = t.claim ++ [row]) :
    ∃ claims', Attributed networkID claims' (done ++ [(networkID, vLog)])
      t' := by
  refine ⟨Function.update claims deposit (some row), ?_, ?_, ?_⟩
  · exact attributed.claimed.insert (attributed.free fresh) here own stored
  · intro other origin mem claimsOther
    rcases mem_append.mp mem with old | new
    · have different : origin ≠ deposit := by
        rintro rfl
        exact fresh other old claimsOther
      rw [Function.update_of_ne different]
      exact attributed.kept other origin old claimsOther
    · injection mem_singleton.mp new with _ same
      subst same
      obtain rfl := claimsIt.unique claimsOther
      exact ⟨row, Function.update_self .., source⟩
  · intro origin kept found
    by_cases same : origin = deposit
    · rw [same]
      exact ⟨vLog, mem_append_right _ (mem_singleton.mpr rfl),
        claimsIt⟩
    · rw [Function.update_of_ne same] at found
      obtain ⟨earlier, old, taken⟩ := attributed.only origin kept found
      exact ⟨earlier, mem_append_left _ old, taken⟩

theorem keyFree
    (fresh : ∀ earlier, (networkID, earlier) ∈ done →
      ¬earlier.Claims networkID deposit)
    {claim : Claim H} (here : claim.networkID = networkID)
    (own : (Storage.claimRow claim).Claims deposit)
    (conflict : t.claimConflict claim = true) : False := by
  have free := attributed.free fresh
  rw [attributed.claimed.claimConflict_eq_false free here own] at conflict
  contradiction

theorem findsClaims (origin : Nat) : t.FindsClaims done origin networkID := by
  intro count
  have answer := attributed.claimed.getClaim_eq (origin, count)
  constructor
  · intro vLog mem claimsIt
    obtain ⟨row, found, source⟩ :=
      attributed.kept vLog (origin, count) mem claimsIt
    rw [found] at answer
    exact ⟨_, answer, source⟩
  · intro unclaimed
    rw [attributed.free unclaimed] at answer
    exact answer

end

end Attributed

section Handlers

variable [DecidableEq H] [Externals H] {etherMan : EtherMan}
  {s : ClientSynchronizer} {done : List (Nat × Log H)} {vLog : Log H}
  {deposit : Nat × Nat}

omit [DecidableEq H] in
theorem Log.Claims.decoded {networkID : Nat} (etherMan : EtherMan)
    (claimsIt : vLog.Claims networkID deposit) :
    ∃ claim, etherMan.decoded vLog = .ok (some (.claim claim)) ∧
      claim.index = deposit.2 ∧ vLog.IsSource claim ∧
      ((∀ c, vLog.data = .oldClaim c → networkID = 0) →
        claim.mainnetFlag = decide (deposit.1 = 0) ∧
          claim.rollupIndex = deposit.1 - 1) ∧
      (claim.mainnetFlag = true →
        (∃ c, vLog.data = .claim c) ∧ deposit.1 = 0) := by
  unfold Log.Claims at claimsIt
  cases data : vLog.data with
  | oldClaim c =>
    simp only [data] at claimsIt
    refine ⟨oldClaimOf vLog c, ?_, ?_, ⟨rfl, ?_⟩, ?_, ?_⟩
    · simp only [EtherMan.decoded, data]
    · rw [claimsIt]
      rfl
    · simp only [Log.asset, data]
      rfl
    · intro right
      rw [claimsIt, right c rfl]
      exact ⟨rfl, rfl⟩
    · intro impossible
      contradiction
  | claim c =>
    simp only [data] at claimsIt
    refine ⟨claimOf vLog c.amount c.destinationAddress c.originAddress
      deposit.2 c.originNetwork (deposit.1 - 1) (decide (deposit.1 = 0))
      (toString (depositIndex deposit)), ?_, rfl, ⟨rfl, ?_⟩,
      fun _ => ⟨rfl, rfl⟩, ?_⟩
    · simp only [EtherMan.decoded, data,
        newClaimOf_deposit claimsIt.1 claimsIt.2]
      rfl
    · simp only [Log.asset, data]
      rfl
    · intro mainnet
      exact ⟨⟨c, rfl⟩, of_decide_eq_true mainnet⟩
  | _ => simp only [data] at claimsIt

theorem handles_attributed (claimsIt : vLog.Claims s.networkID deposit)
    (right : ∀ c, vLog.data = .oldClaim c → s.networkID = 0)
    (fresh : ∀ earlier, (s.networkID, earlier) ∈ done →
      ¬earlier.Claims s.networkID deposit) :
    s.Handles etherMan False (AllAttributed done)
      (AllAttributed (done ++ [(s.networkID, vLog)])) vLog := by
  obtain ⟨claim, decoded, index, source, network, _⟩ :=
    claimsIt.decoded etherMan
  obtain ⟨mainnetFlag, rollupIndex⟩ := network right
  apply handles_of_claim decoded
  · intro t blockID attributed
    obtain ⟨claims, here⟩ := attributed s.networkID
    exact here.keyFree fresh rfl ⟨index, mainnetFlag, rollupIndex⟩
  · intro t blockID attributed has networkID
    obtain ⟨claims, here⟩ := attributed networkID
    by_cases same : s.networkID = networkID
    · subst same
      apply here.insert fresh claimsIt
      case stored => rfl
      case own => exact ⟨index, mainnetFlag, rollupIndex⟩
      case here => rfl
      case source => exact source
    · exact ⟨claims, here.insert_other same rfl rfl⟩

/-- The claims of the main network on network 1 come from new events. -/
def MainnetClaimsNew (done : List (Nat × Log H)) (t : Tables H) : Prop :=
  ∀ row, row ∈ t.claim → row.networkID = 1 → row.mainnetFlag = true →
    ∃ vLog c, (1, vLog) ∈ done ∧ vLog.data = .claim c ∧
      vLog.Claims 1 (0, row.index)

theorem handles_mainnetClaims (claimsIt : vLog.Claims s.networkID deposit) :
    s.Handles etherMan True (MainnetClaimsNew done)
      (MainnetClaimsNew (done ++ [(s.networkID, vLog)])) vLog := by
  obtain ⟨claim, decoded, index, _, _, new⟩ := claimsIt.decoded etherMan
  apply handles_of_claim decoded
  · intro _ _ _ _
    trivial
  · intro t blockID mainnetClaims has row stored network mainnet
    rcases mem_append.mp stored with old | added
    · obtain ⟨earlier, c, mem, data, claimsEarlier⟩ :=
        mainnetClaims row old network mainnet
      exact ⟨earlier, c, mem_append_left _ mem, data,
        claimsEarlier⟩
    · obtain rfl := mem_singleton.mp added
      obtain ⟨⟨c, data⟩, origin⟩ := new mainnet
      have here : s.networkID = 1 := network
      rw [here] at claimsIt ⊢
      refine ⟨vLog, c, mem_append_right _ (mem_singleton.mpr rfl),
        data, ?_⟩
      have same : (0, claim.index) = deposit := Prod.ext origin.symm index
      exact same ▸ claimsIt

end Handlers

section Runs

variable [DecidableEq H] [Externals H] {etherMan : EtherMan}
  {w w' : World H} {olds news : List (ClientSynchronizer × List (Log H))}

/-- The ranges of a service that goes from the first version of the contract
to the next one: old claims on the main network and on network 1, then new
claims on any networks. -/
structure ClaimRanges (olds news : List (ClientSynchronizer × List (Log H))) :
    Prop where
  byBlock : ∀ range, range ∈ olds ++ news → BlockByBlock range.2
  networks : ∀ range, range ∈ olds →
    range.1.networkID = 0 ∨ range.1.networkID = 1
  old : ∀ range, range ∈ olds → ∀ vLog, vLog ∈ range.2 →
    ∃ c, vLog.data = .oldClaim c
  new : ∀ range, range ∈ news → ∀ vLog, vLog ∈ range.2 →
    ∃ c deposit, vLog.data = .claim c ∧ Indexed deposit ∧
      c.globalIndex = depositWord deposit
  once : ClaimedOnce (networkLogs (olds ++ news))

namespace ClaimRanges

omit [DecidableEq H] [Externals H]

theorem claims (ranges : ClaimRanges olds news) {networkID : Nat}
    {vLog : Log H}
    (mem : (networkID, vLog) ∈ networkLogs (olds ++ news)) :
    ∃ deposit, vLog.Claims networkID deposit := by
  simp only [networkLogs, mem_flatMap, mem_map] at mem
  obtain ⟨range, inRanges, vLog, inRange, same⟩ := mem
  injection same with network same
  subst same
  rcases mem_append.mp inRanges with old | new
  · obtain ⟨c, data⟩ := ranges.old range old vLog inRange
    refine ⟨(1 - networkID, c.index), ?_⟩
    simp only [Log.Claims, data]
  · obtain ⟨c, deposit, data, indexed, index⟩ :=
      ranges.new range new vLog inRange
    refine ⟨deposit, ?_⟩
    simp only [Log.Claims, data]
    exact ⟨indexed, index⟩

theorem old_mainnet (ranges : ClaimRanges olds news)
    (none : ∀ range, range ∈ olds → range.1.networkID = 1 → range.2 = [])
    {networkID : Nat} {vLog : Log H}
    (mem : (networkID, vLog) ∈ networkLogs (olds ++ news))
    {c : OldClaimEvent} (data : vLog.data = .oldClaim c) : networkID = 0 := by
  simp only [networkLogs, mem_flatMap, mem_map] at mem
  obtain ⟨range, inRanges, vLog, inRange, same⟩ := mem
  injection same with network same
  subst same
  rcases mem_append.mp inRanges with old | new
  · rcases ranges.networks range old with mainnet | first
    · exact network.symm.trans mainnet
    · rw [none range old first] at inRange
      contradiction
  · obtain ⟨c', deposit, new, _⟩ := ranges.new range new vLog inRange
    simp [data] at new

theorem eq_of_claims (ranges : ClaimRanges olds news) {networkID : Nat}
    {first second : Log H} {deposit : Nat × Nat}
    (firstIn : (networkID, first) ∈ networkLogs (olds ++ news))
    (secondIn : (networkID, second) ∈ networkLogs (olds ++ news))
    (claimsFirst : first.Claims networkID deposit)
    (claimsSecond : second.Claims networkID deposit) : first = second := by
  by_contra different
  have apart : ((networkID, first) : Nat × Log H) ≠ (networkID, second) := by
    intro same
    injection same with _ same
    exact different same
  have symmetric : Std.Symm fun first second : Nat × Log H =>
      first.1 = second.1 → ∀ deposit, first.2.Claims first.1 deposit →
        ¬second.2.Claims second.1 deposit := by
    constructor
    intro first second once network deposit claimsSecond claimsFirst
    exact once network.symm deposit claimsFirst claimsSecond
  exact ranges.once.forall firstIn secondIn apart rfl deposit claimsFirst
    claimsSecond

variable [DecidableEq H] [Externals H]

theorem kept (ranges : ClaimRanges olds news) {fails : Prop}
    {inv : List (Nat × Log H) → Tables H → Prop}
    (opened : ∀ done t row, inv done t →
      inv done { t with block := t.block ++ [row] })
    (step : ∀ (s : ClientSynchronizer) earlier vLog deposit,
      (s.networkID, vLog) ∈ networkLogs (olds ++ news) →
      (∀ other, (s.networkID, other) ∈ earlier →
        ¬other.Claims s.networkID deposit) →
      vLog.Claims s.networkID deposit → s.Handles etherMan fails (inv earlier)
          (inv (earlier ++ [(s.networkID, vLog)])) vLog) :
    Synced.Kept etherMan fails inv [] (olds ++ news) where
  decodes range inRanges vLog inRange := by
    have mem : (range.1.networkID, vLog) ∈
        networkLogs (olds ++ news) :=
      mem_flatMap.mpr ⟨range, inRanges,
        mem_map.mpr ⟨vLog, inRange, rfl⟩⟩
    obtain ⟨deposit, claimsIt⟩ := ranges.claims mem
    obtain ⟨claim, decoded, _⟩ := claimsIt.decoded etherMan
    exact ⟨_, decoded⟩
  byBlock := ranges.byBlock
  opened := opened
  step s earlier vLog rest split := by
    rw [nil_append] at split
    have mem : (s.networkID, vLog) ∈ networkLogs (olds ++ news) := by
      simp [split]
    obtain ⟨deposit, claimsIt⟩ := ranges.claims mem
    have once := ranges.once
    rw [split, ClaimedOnce, pairwise_append] at once
    apply step s earlier vLog deposit mem _ claimsIt
    intro other inEarlier claimsOther
    exact once.2.2 _ inEarlier _ mem_cons_self rfl deposit claimsOther
      claimsIt

end ClaimRanges

/-- Old and new claims are found with their deposits exactly when there are no
old claims on network 1. -/
theorem old_claims_attributed (etherMan : EtherMan)
    (faultless : w.Faultless) (empty : w.committed.claim = [])
    (ranges : ClaimRanges olds news) :
    (∃ w', Synced etherMan (olds ++ news) w w' ∧
        w'.committed.FindsClaims (networkLogs (olds ++ news)) 0 1 ∧
        w'.committed.FindsClaims (networkLogs (olds ++ news)) 1 0) ↔
      ∀ range, range ∈ olds → range.1.networkID = 1 → range.2 = [] := by
  constructor
  · rintro ⟨w', synced, finds, _⟩ range inOlds network
    by_contra some
    obtain ⟨vLog, inRange⟩ := exists_mem_of_ne_nil _ some
    obtain ⟨c, data⟩ := ranges.old range inOlds vLog inRange
    have mem : (1, vLog) ∈ networkLogs (olds ++ news) := by
      rw [← network]
      exact mem_flatMap.mpr ⟨range, mem_append_left _ inOlds,
        mem_map.mpr ⟨vLog, inRange, rfl⟩⟩
    have claimsIt : vLog.Claims 1 (0, c.index) := by
      simp only [Log.Claims, data]
    obtain ⟨claim, found, _⟩ := (finds c.index).1 vLog mem claimsIt
    have kept : Synced.Kept etherMan True MainnetClaimsNew []
        (olds ++ news) := by
      apply ranges.kept
      · exact fun _ _ _ mainnetClaims => mainnetClaims
      · exact fun _ _ _ _ _ _ claimsOther => handles_mainnetClaims claimsOther
    have mainnetClaims := (synced.keeps kept
      ⟨faultless, fun row stored => by simp [empty] at stored⟩).2
    have missing : w'.committed.getClaim c.index 0 1 =
        .error .storageNotFound := by
      rw [Tables.getClaim_notFound_iff]
      intro row stored here
      by_contra origin
      simp only [ClaimRow.isAt, Bool.and_eq_true, beq_iff_eq] at here
      obtain ⟨other, c', otherIn, otherData, claimsOther⟩ :=
        mainnetClaims row stored here.2 (by simpa [ClaimRow.isFrom] using
          origin)
      rw [here.1] at claimsOther
      have same := ranges.eq_of_claims mem otherIn claimsIt claimsOther
      rw [same, otherData] at data
      contradiction
    simp [found] at missing
  · intro none
    have kept : Synced.Kept etherMan False AllAttributed []
        (olds ++ news) := by
      apply ranges.kept
      · intro done t row attributed networkID
        obtain ⟨claims, here⟩ := attributed networkID
        exact ⟨claims, ⟨here.claimed.rows, here.claimed.key⟩, here.kept,
          here.only⟩
      · intro s earlier vLog deposit mem fresh claimsIt
        apply handles_attributed claimsIt _ fresh
        intro c data
        exact ranges.old_mainnet none mem data
    have started : w.Committed (AllAttributed []) := by
      refine ⟨faultless, fun networkID => ⟨fun _ => .none, ?_, ?_, ?_⟩⟩
      · apply Tables.claimedAs_empty
        intro row stored
        simp [empty] at stored
      · intro _ _ impossible
        contradiction
      · intro _ _ impossible
        contradiction
    obtain ⟨w', synced⟩ := Synced.exists_run kept started
    have attributed := (synced.keeps kept started).2
    refine ⟨w', synced, ?_, ?_⟩
    · obtain ⟨claims, here⟩ := attributed 1
      exact here.findsClaims 0
    · obtain ⟨claims, here⟩ := attributed 0
      exact here.findsClaims 1

end Runs

section Samples

def networkSynchronizer (networkID : Nat) : ClientSynchronizer :=
  { networkID := networkID
    allNetworkIDs := [0, 1]
    chsExitRootEvent := []
    retries := 1 }

def oldClaimData (index : Nat) : LogData Digest :=
  .oldClaim
    { index := index
      originNetwork := 0
      originAddress := 0
      destinationAddress := 0
      amount := 1 }

/-- A deposit of the main network is claimed on network 1 with an old event.
The claim is found for a deposit of network 1 instead. -/
theorem old_claim_misattributed :
    (claimLog 1 (oldClaimData 5)).Claims 1 (0, 5) ∧ ∃ w', Synced sampleEtherMan
          [(networkSynchronizer 1, [claimLog 1 (oldClaimData 5)])]
          (World.start 2 [0, 1]) w' ∧
        w'.committed.getClaim 5 0 1 = .error .storageNotFound ∧
        (w'.committed.getClaim 5 1 1).toBool = true := by
  refine ⟨rfl, ?_⟩
  have read : ∃ read,
      sampleEtherMan.readEvents [claimLog 1 (oldClaimData 5)] = .ok read ∧
        ErrorState.returns ((networkSynchronizer 1).processBlockRange
          read.blocks read.blocksOrder)
          (fun _ w => decide (w.committed.getClaim 5 0 1 =
              .error .storageNotFound) &&
            (w.committed.getClaim 5 1 1).toBool)
          (World.start 2 [0, 1]) = true :=
    ⟨_, rfl, by decide +kernel⟩
  obtain ⟨read, logs, returned⟩ := read
  obtain ⟨value, w', ran, check⟩ := exists_of_returns returned
  rw [Bool.and_eq_true, decide_eq_true_eq] at check
  exact ⟨w', .cons logs ran (.nil w'), check⟩

private theorem sample_ranges :
    ClaimRanges [(networkSynchronizer 0, [claimLog 1 (oldClaimData 5)])]
      [(networkSynchronizer 1, [claimLog 2 (claimData (0, 5))])] where
  byBlock range mem := by
    simp only [cons_append, nil_append, mem_cons,
      not_mem_nil, or_false] at mem
    rcases mem with rfl | rfl
    · exact ⟨by decide, by decide⟩
    · exact ⟨by decide, by decide⟩
  networks range mem := by
    obtain rfl := mem_singleton.mp mem
    exact .inl rfl
  old range mem vLog inRange := by
    obtain rfl := mem_singleton.mp mem
    obtain rfl := mem_singleton.mp inRange
    exact ⟨_, rfl⟩
  new range mem vLog inRange := by
    obtain rfl := mem_singleton.mp mem
    obtain rfl := mem_singleton.mp inRange
    exact ⟨_, (0, 5), rfl, by decide, rfl⟩
  once := by
    refine pairwise_pair.mpr ?_
    intro network
    contradiction

/-- An old claim on the main network and a new one on network 1. -/
theorem old_and_new_claims_found :
    ∃ w', Synced sampleEtherMan
        ([(networkSynchronizer 0, [claimLog 1 (oldClaimData 5)])] ++
          [(networkSynchronizer 1, [claimLog 2 (claimData (0, 5))])])
        (World.start 2 [0, 1]) w' ∧
      (∃ claim, w'.committed.getClaim 5 1 0 = .ok claim) ∧
      ∃ claim, w'.committed.getClaim 5 0 1 = .ok claim := by
  have none : ∀ range, range ∈
      [(networkSynchronizer 0, [claimLog 1 (oldClaimData 5)])] →
        range.1.networkID = 1 → range.2 = [] := by
    intro range mem network
    obtain rfl := mem_singleton.mp mem
    contradiction
  obtain ⟨w', synced, onFirst, onMainnet⟩ :=
    (old_claims_attributed sampleEtherMan
      (show (World.start 2 [0, 1] : World Digest).Faultless from
        fun _ _ _ => rfl) rfl sample_ranges).mpr none
  refine ⟨w', synced, ?_, ?_⟩
  · obtain ⟨claim, found, _⟩ := (onMainnet 5).1
      (claimLog 1 (oldClaimData 5)) mem_cons_self rfl
    exact ⟨claim, found⟩
  · obtain ⟨claim, found, _⟩ := (onFirst 5).1
      (claimLog 2 (claimData (0, 5)))
      (mem_cons_of_mem _ mem_cons_self) ⟨by decide, rfl⟩
    exact ⟨claim, found⟩

end Samples

end BridgeService
