import BridgeService.Claimtxman.GroupProgress

/-!
# Progress of waiting transactions

Only transactions with the global exit root of the oldest active transaction
enter a new group.  The oldest one enters a group itself as soon as its period
is over, and it is not active any more when its group ends.  So the number of
transactions that come before a waiting transaction becomes smaller, until it
is in a group.
-/

namespace BridgeService

open List

variable {H : Type}

namespace GroupsTrigger

variable {cfg : ConfigGroupingClaims} {now : Nat} {tx : MonitoredTx H}
  {rest : List (MonitoredTx H)}

private theorem mem_chooseGroupTxFrom (maxSize : Int)
    (group rest : List (MonitoredTx H)) (mem : tx ∈ group) :
    tx ∈ chooseGroupTxFrom maxSize group rest := by
  induction rest generalizing group with
  | nil => exact mem
  | cons next rest induction =>
    rw [chooseGroupTxFrom]
    split
    · exact mem_append_left _ mem
    · exact induction _ (mem_append_left _ mem)

theorem mem_chooseTxs
    (late : cfg.triggerRetainedClaimPeriod < (now : Int) - tx.createdAt) :
    tx ∈ chooseTxs cfg now (tx :: rest) := by
  have surpassed : isRetainedPeriodSurpassed cfg now (tx :: rest) = true := by
    simp [isRetainedPeriodSurpassed, late]
  rw [chooseTxs, if_pos surpassed, chooseGroupTx, chooseGroupTxFrom]
  split
  · exact mem_cons_self
  · exact mem_chooseGroupTxFrom _ _ _ mem_cons_self

end GroupsTrigger

namespace MonitorCompressedTxs

variable {tm : MonitorCompressedTxs H} {inputs : PassInputs H}
  {store store' : ClaimStore H}
  {cfg : ConfigGroupingClaims} {rollupID bound : Nat} {tx tx' : MonitoredTx H}

/-- A transaction of a network that is active and not newer than a bound. -/
def Ahead (rollupID bound : Nat) (store : ClaimStore H)
    (tx : MonitoredTx H) : Prop :=
  tx.status ∈ [MonitoredTxStatus.created, .compressing, .claiming] ∧
    store.hasDestination tx.depositID rollupID = true ∧ tx.createdAt ≤ bound

instance : Decidable (Ahead rollupID bound store tx) :=
  inferInstanceAs (Decidable (_ ∧ _ ∧ _))

/-- Steps that a transaction takes until it is not active any more: it enters
a group, and the group ends. -/
def stepsLeft (rollupID bound : Nat) (store : ClaimStore H)
    (tx : MonitoredTx H) : Nat :=
  if Ahead rollupID bound store tx then
    match tx.groupID with
    | none => 2
    | some _ => 1
  else
    0

def depositSteps (rollupID bound : Nat) (store : ClaimStore H)
    (depositID : Nat) : Nat :=
  match store.monitoredTxs.find? fun tx => tx.depositID == depositID with
  | none => 0
  | some tx => stepsLeft rollupID bound store tx

theorem depositSteps_eq (keyed : store.Keyed)
    (stored : tx ∈ store.monitoredTxs) :
    depositSteps rollupID bound store tx.depositID =
      stepsLeft rollupID bound store tx := by
  rw [depositSteps, Rows.find?_key keyed.txs stored]

theorem mem_of_depositSteps {depositID : Nat}
    (left : depositSteps rollupID bound store depositID ≠ 0) :
    ∃ tx, tx ∈ store.monitoredTxs ∧ tx.depositID = depositID := by
  rw [depositSteps] at left
  split at left
  · contradiction
  · next tx found =>
    exact ⟨tx, mem_of_find?_eq_some found,
      by simpa using find?_some found⟩

theorem stepsLeft_of_single (ahead : Ahead rollupID bound store tx)
    (single : tx.groupID = none) : stepsLeft rollupID bound store tx = 2 := by
  rw [stepsLeft, if_pos ahead, single]

theorem stepsLeft_of_grouped {groupID : Nat}
    (ahead : Ahead rollupID bound store tx)
    (grouped : tx.groupID = some groupID) :
    stepsLeft rollupID bound store tx = 1 := by
  rw [stepsLeft, if_pos ahead, grouped]

theorem stepsLeft_le_one {groupID : Nat}
    (grouped : tx.groupID = some groupID) :
    stepsLeft rollupID bound store tx ≤ 1 := by
  by_cases ahead : Ahead rollupID bound store tx
  · rw [stepsLeft_of_grouped ahead grouped]
  · rw [stepsLeft, if_neg ahead]
    exact Nat.zero_le 1

theorem TxMove.ahead (moved : TxMove store store' tx tx')
    (ahead : Ahead rollupID bound store' tx') :
    Ahead rollupID bound store tx := by
  obtain ⟨active, destination, old⟩ := ahead
  rw [moved.createdAt] at old
  exact ⟨moved.active active, (moved.destination rollupID).mp destination, old⟩

theorem TxMove.stepsLeft_le (moved : TxMove store store' tx tx') :
    stepsLeft rollupID bound store' tx' ≤
      stepsLeft rollupID bound store tx := by
  by_cases ahead : Ahead rollupID bound store' tx'
  · cases grouped : tx.groupID with
    | none =>
      rw [stepsLeft_of_single (moved.ahead ahead) grouped, stepsLeft,
        if_pos ahead]
      split
      · exact Nat.le_refl 2
      · exact Nat.le_succ 1
    | some groupID =>
      rw [stepsLeft_of_grouped (moved.ahead ahead) grouped]
      exact stepsLeft_le_one (moved.groupID groupID grouped)
  · rw [stepsLeft, if_neg ahead]
    exact Nat.zero_le _

variable [DecidableEq H]

theorem SteadyStore.depositSteps_move (steady : SteadyStore cfg store)
    {move : ClaimMove H} (fits : move.Steady cfg store)
    (late : move.Late (bound + 1)) (depositID : Nat) :
    depositSteps rollupID bound (move.apply store) depositID ≤
      depositSteps rollupID bound store depositID := by
  obtain ⟨kept, new, txs, moved, fresh⟩ := steady.txs_move fits
  rw [depositSteps]
  split
  · exact Nat.zero_le _
  · next tx' found =>
    have stored' := mem_of_find?_eq_some found
    have same : tx'.depositID = depositID := by
      simpa using find?_some found
    rw [txs] at stored'
    rcases mem_append.mp stored' with old | isNew
    · obtain ⟨tx, stored, step⟩ := SideBySide.exists_left moved old
      rw [← same, step.depositID, depositSteps_eq steady.keyed stored]
      exact step.stepsLeft_le
    · obtain ⟨mTx, added⟩ := fresh tx' isNew
      rw [added] at late
      have newer : bound + 1 ≤ tx'.createdAt := late
      rw [stepsLeft, if_neg (fun ahead => by
        have old := ahead.2.2
        omega)]
      exact Nat.zero_le _

/-- A time at which the period of every transaction up to the bound is
over. -/
def retainedUntil (cfg : ConfigGroupingClaims) (bound : Nat) : Nat :=
  bound + cfg.triggerRetainedClaimPeriod.toNat + 1

theorem SteadyStore.oldest_chosen (steady : SteadyStore cfg store)
    (settings : tm.cfg = cfg) {oldest : MonitoredTx H}
    {rest : List (MonitoredTx H)}
    (active : tm.activeTxs inputs store = oldest :: rest)
    (single : oldest.groupID = none) (old : oldest.createdAt ≤ bound)
    (late : retainedUntil cfg bound ≤ inputs.clock .trigger) :
    oldest ∈ tm.chosen inputs store := by
  have stored : oldest ∈ store.monitoredTxs := by
    have listed : oldest ∈ tm.activeTxs inputs store := by
      rw [active]
      exact mem_cons_self
    exact (mem_activeTxs.mp listed).1
  obtain ⟨created, unsent⟩ := steady.single oldest stored single
  have candidate : oldest.isCandidateToBeGrouped oldest.globalExitRoot =
      true := by
    simp [MonitoredTx.isCandidateToBeGrouped, created, unsent, single]
  rw [chosen, active, candidates, filter_cons, if_pos candidate, settings]
  apply GroupsTrigger.mem_chooseTxs
  rw [retainedUntil] at late
  omega

omit [DecidableEq H] in
theorem oldest_le (active : tx ∈ tm.activeTxs inputs store) :
    ∃ oldest rest, tm.activeTxs inputs store = oldest :: rest ∧
      oldest.createdAt ≤ tx.createdAt := by
  cases listed : tm.activeTxs inputs store with
  | nil =>
    simp [listed] at active
  | cons oldest rest =>
    refine ⟨oldest, rest, rfl, ?_⟩
    have ordered : (oldest :: rest).Pairwise fun first second =>
        first.createdAt ≤ second.createdAt := by
      rw [← listed]
      exact activeTxs_ordered
    rw [listed] at active
    rcases mem_cons.mp active with rfl | later
    · exact le_rfl
    · exact rel_of_pairwise_cons ordered later

theorem Effect.chosen_steps (effect : Effect tm inputs store store')
    (keyed : store.Keyed) (chosen : tx ∈ tm.chosen inputs store)
    (old : tx.createdAt ≤ bound) :
    depositSteps tm.rollupID bound store' tx.depositID <
      depositSteps tm.rollupID bound store tx.depositID := by
  obtain ⟨active, single⟩ := mem_chosen chosen
  obtain ⟨stored, active, destination⟩ := mem_activeTxs.mp active
  obtain ⟨tx', stored', step⟩ := SideBySide.exists_right effect.txs stored
  have grouped : tx'.groupID =
      some (store.getLatestMonitoredTxGroupID + 1) := by
    cases step with
    | idle free passed => exact absurd chosen passed
    | grouped updatedAt active rowIn grouped =>
      simp [single] at grouped
    | chosen updatedAt chosen => rfl
  have before := stepsLeft_of_single ⟨active, destination, old⟩ single
  have after : stepsLeft tm.rollupID bound store' tx' ≤ 1 :=
    stepsLeft_le_one grouped
  rw [depositSteps_eq keyed stored, before, ← step.depositID,
    depositSteps_eq (effect.keyed keyed) stored']
  exact Nat.lt_succ_of_le after

omit [DecidableEq H] in
theorem SteadyStore.ended_steps (steady : SteadyStore cfg store)
    (stored : tx ∈ store.monitoredTxs) {row : MonitoredTxGroupDBEntry H}
    (rowIn : row ∈ store.monitoredTxsGroup) (ended : ¬Unfinished row)
    (grouped : tx.groupID = some row.groupID) :
    depositSteps rollupID bound store tx.depositID = 0 := by
  rw [depositSteps_eq steady.keyed stored, stepsLeft, if_neg]
  rintro ⟨active, _⟩
  have follow := steady.follow row rowIn
  cases status : row.status with
  | created => exact ended (.inl status)
  | claiming => exact ended (.inr status)
  | failed =>
    rw [follow.failed status tx ⟨stored, grouped⟩] at active
    contradiction
  | confirmed =>
    rw [follow.confirmed status tx ⟨stored, grouped⟩] at active
    contradiction

end MonitorCompressedTxs

namespace MonitorRun

open MonitorCompressedTxs Progress

variable [DecidableEq H] {run : MonitorRun H} {cfg : ConfigGroupingClaims}
  {rollupID : Nat}

theorem Fair.tx_later (fair : run.Fair cfg) {time later : Nat}
    (order : time ≤ later) {tx : MonitoredTx H}
    (stored : tx ∈ (run.store time).monitoredTxs) :
    ∃ tx', tx' ∈ (run.store later).monitoredTxs ∧
      TxMove (run.store time) (run.store later) tx tx' := by
  induction later, order using Nat.le_induction with
  | base => exact ⟨tx, stored, .of_destination fun _ => Iff.rfl⟩
  | succ later order induction =>
    obtain ⟨tx', stored', moved⟩ := induction
    obtain ⟨tx'', stored'', next⟩ :=
      (fair.steadyStore later).tx_move (fair.steady later) stored'
    rw [← run.next] at stored'' next
    exact ⟨tx'', stored'', moved.trans next⟩

theorem Fair.oldest_steps (fair : run.Fair cfg)
    (often : InfinitelyOften (run.Serves rollupID)) {time bound : Nat}
    (serves : run.Serves rollupID time)
    (late : (run.moves time).Late (retainedUntil cfg bound))
    {tx : MonitoredTx H} (stored : tx ∈ (run.store time).monitoredTxs)
    (ahead : Ahead rollupID bound (run.store time) tx) :
    ∃ later, time ≤ later ∧ ∃ depositID,
      depositSteps rollupID bound (run.store later) depositID <
        depositSteps rollupID bound (run.store time) depositID := by
  have steady := fair.steadyStore time
  obtain ⟨tm, inputs, move, settings, rfl, takes, effect⟩ := fair.effect serves
  have listed : tx ∈ tm.activeTxs inputs (run.store time) :=
    mem_activeTxs.mpr ⟨stored, ahead.1, ahead.2.1⟩
  obtain ⟨oldest, rest, active, older⟩ := oldest_le listed
  have old : oldest.createdAt ≤ bound := Nat.le_trans older ahead.2.2
  obtain ⟨oldestIn, oldestActive⟩ : oldest ∈ (run.store time).monitoredTxs ∧
      tm.Active (run.store time) oldest := by
    apply mem_activeTxs.mp
    rw [active]
    exact mem_cons_self
  rw [move] at late
  cases grouped : oldest.groupID with
  | none =>
    have chosen := steady.oldest_chosen settings active grouped old
      (late .trigger)
    exact ⟨time + 1, Nat.le_succ time, oldest.depositID,
      effect.chosen_steps steady.keyed chosen old⟩
  | some groupID =>
    obtain ⟨row, rowIn, rfl⟩ :=
      steady.keyed.known oldest oldestIn groupID grouped
    obtain ⟨later, order, row', rowIn', same, ended⟩ :=
      fair.group_ends often rowIn ⟨oldest, ⟨oldestIn, grouped⟩, oldestActive.2⟩
    obtain ⟨tx', stored', moved⟩ := fair.tx_later order oldestIn
    have grouped' : tx'.groupID = some row'.groupID := by
      rw [same]
      exact moved.groupID row.groupID grouped
    refine ⟨later, order, oldest.depositID, ?_⟩
    rw [← moved.depositID,
      (fair.steadyStore later).ended_steps stored' rowIn' ended grouped',
      moved.depositID, depositSteps_eq steady.keyed oldestIn,
      stepsLeft_of_grouped ⟨oldestActive.1, oldestActive.2, old⟩ grouped]
    exact Nat.zero_lt_one

theorem Fair.tx_grouped (fair : run.Fair cfg)
    (often : InfinitelyOften (run.Serves rollupID)) {time : Nat}
    {tx : MonitoredTx H} (stored : tx ∈ (run.store time).monitoredTxs)
    (destination :
      (run.store time).hasDestination tx.depositID rollupID = true) :
    ∃ later, time ≤ later ∧ ∃ tx', tx' ∈ (run.store later).monitoredTxs ∧
      tx'.depositID = tx.depositID ∧ tx'.groupID ≠ none := by
  obtain ⟨start, late⟩ := fair.time (retainedUntil cfg tx.createdAt)
  have reached := reached_of_counters
    (fun time => depositSteps rollupID tx.createdAt (run.store time))
    (fun later => ∃ tx', tx' ∈ (run.store later).monitoredTxs ∧
      tx'.depositID = tx.depositID ∧ tx'.groupID ≠ none)
    (max time start)
    ((run.store (max time start)).monitoredTxs.map
      MonitoredTx.depositID).toFinset ?_ ?_ ?_
  · obtain ⟨later, order, goal⟩ := reached
    exact ⟨later, by omega, goal⟩
  · intro depositID left
    obtain ⟨other, otherIn, rfl⟩ := mem_of_depositSteps left
    exact mem_toFinset.mpr (mem_map_of_mem otherIn)
  · intro now order depositID
    have beyond : (run.moves now).Late (tx.createdAt + 1) := by
      apply (late now (by omega)).mono
      rw [retainedUntil]
      omega
    change depositSteps _ _ (run.store (now + 1)) _ ≤ _
    rw [run.next]
    exact (fair.steadyStore now).depositSteps_move (fair.steady now) beyond
      depositID
  · intro now order
    obtain ⟨pass, after, serves⟩ := often now
    obtain ⟨tx', stored', moved⟩ :=
      fair.tx_later (show time ≤ pass by omega) stored
    by_cases single : tx'.groupID = none
    · obtain ⟨created, _⟩ := (fair.steadyStore pass).single tx' stored' single
      have ahead : Ahead rollupID tx.createdAt (run.store pass) tx' := by
        refine ⟨?_, (moved.destination rollupID).mpr destination, ?_⟩
        · rw [created]
          exact mem_cons_self
        · rw [moved.createdAt]
      obtain ⟨later, order', depositID, less⟩ := fair.oldest_steps often
        serves (late pass (by omega)) stored' ahead
      exact ⟨pass, later, after, order', .inr ⟨depositID, less⟩⟩
    · exact ⟨pass, pass, after, Nat.le_refl pass,
        .inl ⟨tx', stored', moved.depositID, single⟩⟩

def HasClaims (run : MonitorRun H) (rollupID : Nat) : Prop :=
  ∃ time tx, tx ∈ (run.store time).monitoredTxs ∧
    (run.store time).hasDestination tx.depositID rollupID = true

/-- If every network is served again and again, every group ends, and every
transaction enters a group. -/
theorem grouped_claims_progress {deposit : List ClaimDeposit}
    (retry : 1 ≤ cfg.maxRetries)
    (distinct : (deposit.map ClaimDeposit.id).Nodup)
    (reachable : ClaimStore.SteadyRun cfg (.empty deposit) (run.store 0))
    (steady : run.Steady cfg) (storage : run.StorageWorks)
    (grows : run.TimeGrows)
    (served : ∀ rollupID, run.HasClaims rollupID →
      InfinitelyOften (run.Serves rollupID)) :
    (∀ time row, row ∈ (run.store time).monitoredTxsGroup →
      ∃ later, time ≤ later ∧ ∃ row',
        row' ∈ (run.store later).monitoredTxsGroup ∧
        row'.groupID = row.groupID ∧
        (row'.status = .confirmed ∨ row'.status = .failed)) ∧
      ∀ time tx, tx ∈ (run.store time).monitoredTxs →
        tx.status = .created → tx.history = [] → tx.groupID = none →
        ∃ later, time ≤ later ∧ ∃ tx', tx' ∈ (run.store later).monitoredTxs ∧
          tx'.depositID = tx.depositID ∧ tx'.groupID ≠ none := by
  have fair : run.Fair cfg :=
    ⟨retry, steadyStore_of_run retry distinct reachable, steady, storage,
      grows⟩
  constructor
  · intro time row stored
    obtain ⟨tx, member⟩ :=
      ((fair.steadyStore time).follow row stored).inhabited
    obtain ⟨rollupID, destination⟩ :=
      (fair.steadyStore time).destination tx member.1
    have often := served rollupID ⟨time, tx, member.1, destination⟩
    obtain ⟨later, order, row', stored', same, ended⟩ :=
      fair.group_ends often stored ⟨tx, member, destination⟩
    refine ⟨later, order, row', stored', same, ?_⟩
    cases status : row'.status with
    | created => exact absurd (.inl status) ended
    | claiming => exact absurd (.inr status) ended
    | failed => exact .inr rfl
    | confirmed => exact .inl rfl
  · intro time tx stored _ _ _
    obtain ⟨rollupID, destination⟩ :=
      (fair.steadyStore time).destination tx stored
    have often := served rollupID ⟨time, tx, stored, destination⟩
    exact fair.tx_grouped often stored destination

end MonitorRun

namespace SampleClaims

open MonitorCompressedTxs Progress

def created : ClaimStore Nat :=
  (afterPasses settings waiting [answers 1]).addClaimTx (claimTx 2 6) 2

def endless (passes : Nat → PassInputs Nat) : MonitorRun Nat where
  store time := Nat.rec created (fun time store =>
    ((monitor settings).monitorTxs (passes time) store).store) time
  moves time := .pass (monitor settings) (passes time)
  next _ := rfl

def refuses (now : Nat) : PassInputs Nat :=
  { answers now with sendCompressedClaims := fun _ => .error "rejected" }

theorem steadyRun_created :
    ClaimStore.SteadyRun settings (.empty deposits) created := by
  refine .tail (.tail (.single ⟨.addClaimTx (claimTx 1 5) 0, ?_, rfl⟩)
    ⟨.pass (monitor settings) (answers 1), ?_, rfl⟩)
    ⟨.addClaimTx (claimTx 2 6) 2, ?_, rfl⟩
  · exact ⟨rfl, rfl, rfl, rfl, 1, by decide⟩
  · exact ⟨rfl, by decide⟩
  · exact ⟨rfl, rfl, rfl, rfl, 1, by decide +kernel⟩

variable {passes : Nat → PassInputs Nat}

theorem timeGrows_endless
    (clock : ∀ time use, (passes time).clock use = time) :
    (endless passes).TimeGrows := by
  intro bound
  refine ⟨bound, fun time order use => ?_⟩
  rw [clock]
  exact order

theorem fair_endless
    (compresses : ∀ time, (passes time).compressClaimCall ≠ .ok none)
    (works : ∀ time call, (passes time).fault call = false)
    (clock : ∀ time use, (passes time).clock use = time) :
    (endless passes).Fair settings where
  retry := by decide
  start := steadyStore_of_run (by decide) (by decide) steadyRun_created
  steady time := ⟨rfl, compresses time⟩
  storage := by
    intro time tm inputs move
    cases move
    exact works time
  time := timeGrows_endless clock

theorem fair_refuses : (endless refuses).Fair settings :=
  fair_endless (fun _ => by simp [refuses, answers]) (fun _ _ => rfl)
    fun _ _ => rfl

/-- A group for which every claim is refused is never confirmed and never
fails. -/
theorem refused_group_waits :
    ClaimStore.SteadyRun settings (.empty deposits)
        ((endless refuses).store 0) ∧
      (endless refuses).Steady settings ∧
      (endless refuses).StorageWorks ∧ (endless refuses).TimeGrows ∧
      ∃ row, row ∈ ((endless refuses).store 0).monitoredTxsGroup ∧
        ∀ later row', row' ∈ ((endless refuses).store later).monitoredTxsGroup →
          row'.groupID = row.groupID →
          row'.status ≠ .confirmed ∧ row'.status ≠ .failed := by
  have fair := fair_refuses
  refine ⟨steadyRun_created, fair.steady, fair.storage, fair.time, ?_⟩
  obtain ⟨row, stored, same, status⟩ :
      ∃ row, row ∈ ((endless refuses).store 0).monitoredTxsGroup ∧
        row.groupID = 1 ∧ row.status = .created := by
    decide +kernel
  refine ⟨row, stored, ?_⟩
  intro later row' stored' equal
  have refused : ∀ time tm inputs,
      (endless refuses).moves time = .pass tm inputs →
      ∀ txHash, inputs.sendCompressedClaims 1 ≠ .ok txHash := by
    intro time tm inputs move txHash
    cases move
    exact nofun
  obtain ⟨other, otherIn, otherID, waits⟩ :=
    fair.group_refused refused stored same status (Nat.zero_le later)
  have unique : row' = other :=
    inj_on_of_nodup_map (fair.steadyStore later).keyed.groups stored'
      otherIn (by rw [equal, same, otherID])
  rw [unique, waits]
  exact ⟨nofun, nofun⟩

private theorem endless_kept (fair : (endless passes).Fair settings)
    (time : Nat) :
    ((endless passes).store time).deposit = deposits ∧
      ∀ tx, tx ∈ ((endless passes).store time).monitoredTxs →
        tx.data = [0, 0, 0, 0] := by
  induction time with
  | zero =>
    change created.deposit = deposits ∧ ∀ tx, tx ∈ created.monitoredTxs →
      tx.data = [0, 0, 0, 0]
    decide +kernel
  | succ time induction =>
    rw [(endless passes).next]
    rcases monitorTxs_cases (fair.steadyStore time).keyed with
      unchanged | effect
    · rw [show (endless passes).moves time =
        .pass (monitor settings) (passes time) from rfl, ClaimMove.apply,
        unchanged]
      exact induction
    · refine ⟨effect.deposit.trans induction.1, ?_⟩
      intro tx' stored'
      obtain ⟨tx, stored, step⟩ := effect.mem_txs stored'
      have data := induction.2 tx stored
      cases step with
      | idle free passed => exact data
      | grouped updatedAt active rowIn grouped => exact data
      | chosen updatedAt chosen => exact data

theorem grouped_claims_progress_sample :
    (∃ later row, row ∈ ((endless answers).store later).monitoredTxsGroup ∧
      row.groupID = 1 ∧ (row.status = .confirmed ∨ row.status = .failed)) ∧
      ∃ later tx, tx ∈ ((endless answers).store later).monitoredTxs ∧
        tx.depositID = 2 ∧ tx.groupID ≠ none := by
  have fair : (endless answers).Fair settings :=
    fair_endless (fun _ => by simp [answers]) (fun _ _ => rfl) fun _ _ => rfl
  have served : ∀ rollupID, (endless answers).HasClaims rollupID →
      InfinitelyOften ((endless answers).Serves rollupID) := by
    rintro rollupID ⟨time, tx, _, destination⟩ now
    rw [ClaimStore.hasDestination, (endless_kept fair time).1] at destination
    have network : rollupID = 1 := by
      simp [deposits] at destination
      omega
    refine ⟨now, Nat.le_refl now, monitor settings, answers now, rfl,
      network.symm, ⟨fun _ => rfl, fun _ => ⟨_, rfl⟩⟩, ⟨_, rfl⟩, ?_⟩
    intro tx stored
    exact decodes ((endless_kept fair now).2 tx stored)
  obtain ⟨ends, groups⟩ := MonitorRun.grouped_claims_progress fair.retry
    (by decide) steadyRun_created fair.steady fair.storage fair.time served
  constructor
  · obtain ⟨row, stored, same⟩ :
        ∃ row, row ∈ ((endless answers).store 0).monitoredTxsGroup ∧
          row.groupID = 1 := by
      decide +kernel
    obtain ⟨later, _, row', stored', same', ended⟩ := ends 0 row stored
    exact ⟨later, row', stored', same'.trans same, ended⟩
  · obtain ⟨tx, stored, same, status, history, single⟩ :
        ∃ tx, tx ∈ ((endless answers).store 0).monitoredTxs ∧
          tx.depositID = 2 ∧ tx.status = .created ∧ tx.history = [] ∧
          tx.groupID = none := by
      decide +kernel
    obtain ⟨later, _, tx', stored', same', grouped⟩ :=
      groups 0 tx stored status history single
    exact ⟨later, tx', stored', same'.trans same, grouped⟩

end SampleClaims

end BridgeService
