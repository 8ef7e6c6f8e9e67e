import BridgeService.Claimtxman.StatusOrder

/-!
# The loop of the claim transaction manager

`Start` keeps the last global exit root that it received in a variable.  When
both networks are synced it marks the deposits, and starts a goroutine that
processes the pending deposits.  The goroutine reads the variable when it
runs, and that may be after the next global exit root has been received.
Before both networks are synced nothing is marked, and a deposit whose global
exit root came then waits for a later one that covers it.
-/

namespace BridgeService

open ErrorState List

variable {H : Type} [DecidableEq H]

/-- The variables of `Start`, the number of goroutines that have not read
`ger` yet, and the rest of the service. -/
structure StartLoop (H : Type) where
  ger : GlobalExitRoot H
  latestProcessedGer : H
  l1Synced : Bool
  l2Synced : Bool
  goroutines : Nat
  world : World H

namespace StartLoop

omit [DecidableEq H] in
def init [Externals H] (w : World H) : StartLoop H :=
  { ger :=
      { blockID := 0
        blockNumber := 0
        exitRoots := []
        globalExitRoot := hashZero
        networkID := 0
        id := 0 }
    latestProcessedGer := hashZero
    l1Synced := false
    l2Synced := false
    goroutines := 0
    world := w }

def synced (tm : ClaimTxManager) (netID : Nat) (s : StartLoop H) :
    StartLoop H :=
  let s := if netID = tm.l2NetworkID ∧ !s.l2Synced then
      { s with l2Synced := true }
    else s
  if netID = 0 ∧ !s.l1Synced then { s with l1Synced := true } else s

/-- A global exit root is received.  The result says whether the deposits have
been marked; a panic ends the service. -/
def received (tm : ClaimTxManager) (groupingEnabled : Bool)
    (channelGer : GlobalExitRoot H) (s : StartLoop H) :
    Option (Bool × StartLoop H) :=
  let s := { s with ger := channelGer }
  if s.l2Synced && s.l1Synced then
    match tm.updateDepositsStatus s.ger s.world with
    | .error .panic _ => none
    | .error _ world => some (false, { s with world := world })
    | .ok _ world =>
      if groupingEnabled then some (true, { s with world := world })
      else
        some (true, { s with
          world := world
          goroutines := s.goroutines + 1 })
  else some (false, s)

def compressorTick (groupingEnabled : Bool) (s : StartLoop H) :
    StartLoop H :=
  if s.l2Synced && s.l1Synced && groupingEnabled &&
      s.ger.globalExitRoot != s.latestProcessedGer then
    { s with
      latestProcessedGer := s.ger.globalExitRoot
      goroutines := s.goroutines + 1 }
  else s

end StartLoop

/-- What has happened so far: the global exit roots received, those whose
deposits have been marked, the arguments of `processPendingDeposits`, and
whether one was received while a goroutine had not read the variable. -/
structure StartHistory (H : Type) where
  received : List (GlobalExitRoot H)
  updated : List (GlobalExitRoot H)
  processed : List (GlobalExitRoot H)
  overtaken : Bool

section

variable [Externals H] (tm : ClaimTxManager) (groupingEnabled : Bool)

/-- The states that `Start` reaches in any interleaving with its goroutines
and with the other parts of the service. -/
inductive Started : StartLoop H → StartHistory H → Prop
  | start (w : World H) : Started (.init w) ⟨[], [], [], false⟩
  | synced {s : StartLoop H} {h : StartHistory H} (netID : Nat)
      (before : Started s h) : Started (s.synced tm netID) h
  | received {s s' : StartLoop H} {h : StartHistory H}
      {channelGer : GlobalExitRoot H} {updated : Bool}
      (before : Started s h)
      (ran : s.received tm groupingEnabled channelGer = some (updated, s')) :
      Started s'
        { received := h.received ++ [channelGer]
          updated := h.updated ++ if updated then [channelGer] else []
          processed := h.processed
          overtaken := h.overtaken || s.goroutines != 0 }
  | compressorTick {s : StartLoop H} {h : StartHistory H}
      (before : Started s h) : Started (s.compressorTick groupingEnabled) h
  | goroutine {s : StartLoop H} {h : StartHistory H} {left : Nat}
      (before : Started s h) (waiting : s.goroutines = left + 1) :
      Started { s with goroutines := left }
        { h with processed := h.processed ++ [s.ger] }
  | others {s : StartLoop H} {h : StartHistory H} (world : World H)
      (before : Started s h) : Started { s with world := world } h

end

namespace StartLoop

variable {tm : ClaimTxManager} {s s' : StartLoop H}
  {channelGer : GlobalExitRoot H} {updated : Bool}

theorem received_spec
    (ran : s.received tm false channelGer = some (updated, s')) :
    s'.ger = channelGer ∧
      s'.goroutines = s.goroutines + if updated then 1 else 0 := by
  simp only [received] at ran
  split at ran
  · split at ran
    · contradiction
    all_goals
      cases ran
      exact ⟨rfl, rfl⟩
  · cases ran
    exact ⟨rfl, rfl⟩

omit [DecidableEq H] in
theorem synced_eq (tm : ClaimTxManager) (netID : Nat) (s : StartLoop H) :
    s.synced tm netID =
      { s with
        l1Synced := s.l1Synced || netID == 0
        l2Synced := s.l2Synced || netID == tm.l2NetworkID } := by
  obtain ⟨ger, latestProcessedGer, l1Synced, l2Synced, goroutines, world⟩ := s
  simp only [synced]
  cases l1Synced <;> cases l2Synced <;> grind

theorem compressorTick_disabled : s.compressorTick false = s := by
  simp [compressorTick]

end StartLoop

namespace Started

variable [Externals H] {tm : ClaimTxManager} {s : StartLoop H}
  {h : StartHistory H}

theorem updated_sublist (run : Started tm false s h) :
    h.updated <+ h.received := by
  induction run with
  | start w => exact .slnil
  | synced _ _ induction => exact induction
  | received before ran induction =>
    apply induction.append
    split
    · exact .refl _
    · exact nil_sublist _
  | compressorTick _ induction => exact induction
  | goroutine _ _ induction => exact induction
  | others _ _ induction => exact induction

theorem of_prompt (run : Started tm false s h) (prompt : h.overtaken = false) :
    s.goroutines ≤ 1 ∧
      h.updated = h.processed ++ replicate s.goroutines s.ger := by
  induction run with
  | start w => exact ⟨Nat.zero_le 1, rfl⟩
  | synced netID _ induction =>
    rw [StartLoop.synced_eq]
    exact induction prompt
  | @received s s' h channelGer updated before ran induction =>
    simp only [Bool.or_eq_false_iff, bne_eq_false_iff_eq] at prompt
    obtain ⟨ger, goroutines⟩ := StartLoop.received_spec ran
    obtain ⟨_, same⟩ := induction prompt.1
    rw [prompt.2, replicate_zero, append_nil] at same
    rw [ger, goroutines, prompt.2, same]
    cases updated with
    | true => exact ⟨Nat.le_refl 1, rfl⟩
    | false => exact ⟨Nat.zero_le 1, rfl⟩
  | compressorTick _ induction =>
    rw [StartLoop.compressorTick_disabled]
    exact induction prompt
  | @goroutine s h left _ waiting induction =>
    obtain ⟨single, same⟩ := induction prompt
    have last : left = 0 := by
      omega
    subst last
    rw [waiting] at same
    exact ⟨Nat.zero_le 1, by simpa using same⟩
  | others _ _ induction => exact induction prompt

theorem of_overtaken (run : Started tm false s h)
    (distinct : h.received.Nodup) (overtaken : h.overtaken = true) :
    ∃ ger, ger ∈ h.updated ∧ ger ≠ s.ger ∧ ger ∉ h.processed := by
  induction run with
  | start w => contradiction
  | synced netID _ induction =>
    rw [StartLoop.synced_eq]
    exact induction distinct overtaken
  | @received s s' h channelGer updated before ran induction =>
    obtain ⟨distinct, _, fresh⟩ := nodup_append.mp distinct
    have ger := (StartLoop.received_spec ran).1
    have lost : ∃ ger, ger ∈ h.updated ∧ ger ∉ h.processed := by
      cases earlier : h.overtaken with
      | true =>
        obtain ⟨ger, inside, _, unread⟩ := induction distinct earlier
        exact ⟨ger, inside, unread⟩
      | false =>
        obtain ⟨single, same⟩ := before.of_prompt earlier
        have waiting : s.goroutines = 1 := by
          simp only [earlier, Bool.false_or, bne_iff_ne] at overtaken
          omega
        have nodup := distinct.sublist before.updated_sublist
        rw [waiting] at same
        rw [same, nodup_append] at nodup
        refine ⟨s.ger, by simp [same], fun read => ?_⟩
        exact nodup.2.2 _ read _ mem_cons_self rfl
    obtain ⟨old, inside, unread⟩ := lost
    refine ⟨old, mem_append_left _ inside, ?_, unread⟩
    rw [ger]
    exact fresh _ (before.updated_sublist.subset inside) _ mem_cons_self
  | compressorTick _ induction =>
    rw [StartLoop.compressorTick_disabled]
    exact induction distinct overtaken
  | goroutine _ _ induction =>
    obtain ⟨ger, inside, different, unread⟩ := induction distinct overtaken
    exact ⟨ger, inside, different, by simp [unread, different]⟩
  | others _ _ induction => exact induction distinct overtaken

/-- Every global exit root is processed once if each goroutine reads the
variable before the next one is received, and if they are distinct only
then. -/
theorem processed_once_iff (run : Started tm false s h)
    (done : s.goroutines = 0) :
    (h.overtaken = false → h.processed = h.updated) ∧
      (h.received.Nodup →
        ((∀ ger, ger ∈ h.updated → h.processed.count ger = 1) ↔
          h.overtaken = false)) := by
  have prompt : h.overtaken = false → h.processed = h.updated := by
    intro prompt
    rw [(run.of_prompt prompt).2, done, replicate_zero, append_nil]
  refine ⟨prompt, fun distinct => ⟨fun once => ?_, fun inTime => ?_⟩⟩
  · by_contra overtaken
    obtain ⟨ger, inside, _, unread⟩ :=
      run.of_overtaken distinct (Bool.not_eq_false _ ▸ overtaken)
    have none := count_eq_zero.mpr unread
    rw [once ger inside] at none
    contradiction
  · intro ger inside
    rw [prompt inTime]
    exact count_eq_one_of_mem (distinct.sublist run.updated_sublist) inside

end Started

section Startup

theorem Tables.marked_deposit_eq_iff {t : Tables H}
    {calls calls' : List (StatusCall H)}
    (fewer : ∀ call ∈ calls, call ∈ calls') :
    (t.marked calls).deposit = (t.marked calls').deposit ↔
      ∀ deposit ∈ t.deposit, deposit.readyForClaim = false →
        (∃ call ∈ calls', call.Marks t deposit) →
        ∃ call ∈ calls, call.Marks t deposit := by
  simp only [marked, setReady, map_inj_left]
  refine forall₂_congr fun deposit _ => ?_
  by_cases less : ∃ call ∈ calls, call.Marks t deposit
  · have more : ∃ call ∈ calls', call.Marks t deposit := by
      obtain ⟨call, inside, marks⟩ := less
      exact ⟨call, fewer call inside, marks⟩
    simp [less, more]
  · by_cases more : ∃ call ∈ calls', call.Marks t deposit
    · cases deposit
      simp [less, more]
    · simp [less, more]

/-- The calls by which the manager marks deposits for a global exit root. -/
def ClaimTxManager.statusCalls (tm : ClaimTxManager) (ger : GlobalExitRoot H) :
    List (StatusCall H) :=
  match ger.exitRoots with
  | [mainnetExitRoot, rollupExitRoot] =>
    if ger.blockID ≠ 0 ∧ ger.networkID = 0 then
      [.l2 rollupExitRoot tm.rollupID tm.l2NetworkID true]
    else
      [.l1 mainnetExitRoot tm.l2NetworkID,
        .l2 rollupExitRoot tm.rollupID tm.l2NetworkID false]
  | _ => []

def ClaimTxManager.Marks (tm : ClaimTxManager) (t : Tables H)
    (deposit : DepositRow H) (ger : GlobalExitRoot H) : Prop :=
  ∃ call ∈ tm.statusCalls ger, call.Marks t deposit

/-- What `updateDepositsStatus` needs to succeed: both exit roots, and
subqueries that are single-valued. -/
structure ClaimTxManager.Answered (tm : ClaimTxManager) (t : Tables H)
    (ger : GlobalExitRoot H) : Prop where
  two : ger.exitRoots.length = 2
  single : ∀ call ∈ tm.statusCalls ger, call.Single t

theorem ClaimTxManager.Answered.marked {tm : ClaimTxManager} {t : Tables H}
    {ger : GlobalExitRoot H} (answered : tm.Answered t ger)
    (calls : List (StatusCall H)) : tm.Answered (t.marked calls) ger :=
  ⟨answered.two, fun call inside => (answered.single call inside).marked calls⟩

inductive StartInput (H : Type)
  | synced (netID : Nat)
  | exitRoot (channelGer : GlobalExitRoot H)

/-- `Start` receives messages from its channels in this order. -/
def StartLoop.listen (tm : ClaimTxManager) (groupingEnabled : Bool) :
    List (StartInput H) → StartLoop H → Option (StartLoop H)
  | [], s => some s
  | .synced netID :: rest, s =>
    listen tm groupingEnabled rest (s.synced tm netID)
  | .exitRoot channelGer :: rest, s => do
    let (_, s) ← s.received tm groupingEnabled channelGer
    listen tm groupingEnabled rest s

/-- The global exit roots that come after the signals of both networks. -/
def StartInput.handled (tm : ClaimTxManager) :
    List (StartInput H) → Bool → Bool → List (GlobalExitRoot H)
  | [], _, _ => []
  | .synced netID :: rest, l1Synced, l2Synced =>
    handled tm rest (l1Synced || netID == 0)
      (l2Synced || netID == tm.l2NetworkID)
  | .exitRoot channelGer :: rest, l1Synced, l2Synced =>
    (if l2Synced && l1Synced then [channelGer] else []) ++
      handled tm rest l1Synced l2Synced

variable {tm : ClaimTxManager} {ger : GlobalExitRoot H} {w : World H}
  {inputs : List (StartInput H)} {groupingEnabled : Bool}

namespace ClaimTxManager

omit [DecidableEq H] in
private theorem orRollbackState_total {before : World H → Prop}
    {call : Service H Unit} {after : Unit → World H → Prop}
    (body : Triple before call after fun _ _ => False) :
    Triple before (orRollbackState call) after fun _ _ => False :=
  .handle body fun _ _ never => never.elim

private theorem marks {t : Tables H} {call : StatusCall H}
    (single : call.Single t) :
    Triple (World.WithinTx fun t' => t' = t) (orRollbackState (call.run .tx))
      (fun _ => World.WithinTx fun t' => t' = t.marked [call])
      fun _ _ => False :=
  orRollbackState_total (StatusCall.run_inTx single)

theorem updateDepositsStatus_marks (idle : w.dbTx = none)
    (faultless : w.Faultless) (answered : tm.Answered w.committed ger) :
    ∃ w', tm.updateDepositsStatus ger w = .ok () w' ∧
      w'.committed = w.committed.marked (tm.statusCalls ger) ∧
      w'.dbTx = none ∧ w'.Faultless := by
  obtain ⟨two, single⟩ := answered
  obtain ⟨mainnetExitRoot, rollupExitRoot, roots⟩ := length_eq_two.mp two
  have total : Triple (World.Committed fun t => t = w.committed)
      (tm.updateDepositsStatus ger)
      (fun _ => World.Committed fun t =>
        t = w.committed.marked (tm.statusCalls ger)) fun _ _ => False := by
    refine .bind Storage.begin_inTx fun _ => ?_
    have first : exitRootAt ger 0 = (pure mainnetExitRoot : Service H H) := by
      simp [exitRootAt, roots]
    have second : exitRootAt ger 1 = (pure rollupExitRoot : Service H H) := by
      simp [exitRootAt, roots]
    by_cases l1 : ger.blockID ≠ 0 ∧ ger.networkID = 0
    · simp only [statusCalls, roots, if_pos l1, mem_singleton,
        forall_eq] at single
      simp only [statusCalls, roots, if_pos l1, second, pure_bind]
      exact .bind (marks single) fun _ =>
        orRollbackState_total Storage.commit_inTx
    · simp only [statusCalls, roots, if_neg l1, forall_mem_cons] at single
      obtain ⟨mainnet, rollup, _⟩ := single
      have both := w.committed.marked_marked
        [.l1 mainnetExitRoot tm.l2NetworkID]
        [.l2 rollupExitRoot tm.rollupID tm.l2NetworkID false]
      rw [singleton_append] at both
      simp only [statusCalls, roots, if_neg l1, first, second, pure_bind,
        ← both]
      exact .bind (marks mainnet) fun _ =>
        .bind (marks (rollup.marked _)) fun _ =>
          orRollbackState_total Storage.commit_inTx
  obtain ⟨_, w', ran, faultless', same⟩ :=
    total.exists_ok w ⟨faultless, rfl⟩ fun _ _ never => never
  obtain ⟨_, _, tick, published⟩ := updateDepositsStatus_ok idle ran
  refine ⟨w', ran, same, ?_, faultless'⟩
  rw [published]
  exact idle

end ClaimTxManager

namespace StartLoop

private theorem received_marks {s : StartLoop H}
    (idle : s.world.dbTx = none) (faultless : s.world.Faultless)
    (answered : tm.Answered s.world.committed ger) :
    ∃ updated s', s.received tm groupingEnabled ger = some (updated, s') ∧
      s'.l1Synced = s.l1Synced ∧ s'.l2Synced = s.l2Synced ∧
      s'.world.committed = s.world.committed.marked
        (if s.l2Synced && s.l1Synced then tm.statusCalls ger else []) ∧
      s'.world.dbTx = none ∧ s'.world.Faultless := by
  cases synced : s.l2Synced && s.l1Synced with
  | false => exact ⟨false, { s with ger := ger }, by simp [received, synced],
      rfl, rfl, by simp, idle, faultless⟩
  | true =>
    obtain ⟨w', ran, marked, kept⟩ :=
      ClaimTxManager.updateDepositsStatus_marks idle faultless answered
    refine ⟨true,
      { s with
        ger := ger
        world := w'
        goroutines := s.goroutines + if groupingEnabled then 0 else 1 },
      ?_, rfl, rfl, marked, kept⟩
    cases groupingEnabled <;> simp [received, synced, ran]

theorem listen_marks (inputs : List (StartInput H)) {s : StartLoop H}
    (idle : s.world.dbTx = none) (faultless : s.world.Faultless)
    (answered : ∀ ger, .exitRoot ger ∈ inputs →
      tm.Answered s.world.committed ger) :
    ∃ s', listen tm groupingEnabled inputs s = some s' ∧
      s'.world.committed = s.world.committed.marked
        ((StartInput.handled tm inputs s.l1Synced s.l2Synced).flatMap
          tm.statusCalls) := by
  induction inputs generalizing s with
  | nil => exact ⟨s, rfl, by simp [StartInput.handled]⟩
  | cons input rest induction =>
    have later := fun ger inside => answered ger (mem_cons_of_mem _ inside)
    cases input with
    | synced netID =>
      rw [listen, synced_eq]
      exact induction idle faultless later
    | exitRoot ger =>
      obtain ⟨updated, s', ran, l1, l2, marked, idle', faultless'⟩ :=
        received_marks idle faultless (answered ger mem_cons_self)
      obtain ⟨final, listened, flags⟩ := induction idle' faultless'
        fun ger inside => marked ▸ (later ger inside).marked _
      rw [listen, ran]
      refine ⟨final, listened, ?_⟩
      rw [flags, marked, Tables.marked_marked, l1, l2, StartInput.handled,
        flatMap_append]
      split <;> simp

end StartLoop

omit [DecidableEq H] in
theorem StartInput.mem_of_handled {l1Synced l2Synced : Bool}
    (inside : ger ∈ handled tm inputs l1Synced l2Synced) :
    .exitRoot ger ∈ inputs := by
  induction inputs generalizing l1Synced l2Synced with
  | nil => contradiction
  | cons input rest induction =>
    cases input with
    | synced netID => exact mem_cons_of_mem _ (induction inside)
    | exitRoot channelGer =>
      rcases mem_append.mp inside with here | later
      · split at here
        · simp [mem_singleton.mp here]
        · contradiction
      · exact mem_cons_of_mem _ (induction later)

omit [DecidableEq H] in
theorem StartInput.mem_handled :
    ger ∈ handled tm inputs true true ↔ .exitRoot ger ∈ inputs := by
  induction inputs with
  | nil => simp [handled]
  | cons input rest induction => cases input <;> simp [handled, induction]

variable (tm inputs groupingEnabled) in
/-- The flags are as if both signals had come first, exactly if no deposit is
marked only by global exit roots that came before the signals. -/
theorem startup_keeps_flags_iff [Externals H] (idle : w.dbTx = none)
    (faultless : w.Faultless)
    (answered : ∀ ger, .exitRoot ger ∈ inputs →
      tm.Answered w.committed ger) :
    ∃ s s', StartLoop.listen tm groupingEnabled inputs (.init w) = some s ∧
      StartLoop.listen tm groupingEnabled
        (.synced 0 :: .synced tm.l2NetworkID :: inputs) (.init w) =
          some s' ∧
      (s.world.committed.deposit = s'.world.committed.deposit ↔
        ∀ deposit ∈ w.committed.deposit, deposit.readyForClaim = false →
          (∃ ger, .exitRoot ger ∈ inputs ∧
            tm.Marks w.committed deposit ger) →
          ∃ ger ∈ StartInput.handled tm inputs false false,
            tm.Marks w.committed deposit ger) := by
  obtain ⟨s, listened, flags⟩ :=
    StartLoop.listen_marks inputs (s := .init w) idle faultless answered
  obtain ⟨s', listened', flags'⟩ := StartLoop.listen_marks
    (.synced 0 :: .synced tm.l2NetworkID :: inputs) (s := .init w) idle
      faultless (by simpa [StartLoop.init] using answered)
  refine ⟨s, s', listened, listened', ?_⟩
  have all : StartInput.handled tm
      (.synced 0 :: .synced tm.l2NetworkID :: inputs) false false =
        StartInput.handled tm inputs true true := by
    simp [StartInput.handled]
  have regroup : ∀ (gers : List (GlobalExitRoot H)) deposit,
      (∃ call ∈ gers.flatMap tm.statusCalls,
        call.Marks w.committed deposit) ↔
        ∃ ger ∈ gers, tm.Marks w.committed deposit ger := by
    intro gers deposit
    constructor
    · rintro ⟨call, inside, marks⟩
      obtain ⟨ger, stored, named⟩ := mem_flatMap.mp inside
      exact ⟨ger, stored, call, named, marks⟩
    · rintro ⟨ger, stored, call, named, marks⟩
      exact ⟨call, mem_flatMap.mpr ⟨ger, stored, named⟩, marks⟩
  rw [flags, flags', Tables.marked_deposit_eq_iff]
  · simp only [StartLoop.init, all, regroup, StartInput.mem_handled]
  · intro call inside
    simp only [StartLoop.init, all, mem_flatMap, StartInput.mem_handled]
    obtain ⟨ger, handled, named⟩ := mem_flatMap.mp inside
    exact ⟨ger, StartInput.mem_of_handled handled, named⟩

end Startup

section Samples

def claimManager : ClaimTxManager := ⟨1, 1⟩

def numberedGer (id : Nat) : GlobalExitRoot Digest :=
  { blockID := 0
    blockNumber := 0
    exitRoots := [hashZero, hashZero]
    globalExitRoot := hashZero
    networkID := 1
    id := id }

def syncedLoop : StartLoop Digest :=
  ((StartLoop.init (World.start 2 [])).synced claimManager 0).synced
    claimManager 1

theorem syncedLoop_started :
    Started claimManager false syncedLoop ⟨[], [], [], false⟩ :=
  .synced 1 (.synced 0 (.start _))

/-- Both global exit roots mark the deposits, with some change of the loop
between them. -/
def receivesTwo (between : StartLoop Digest → StartLoop Digest) : Bool :=
  match syncedLoop.received claimManager false (numberedGer 1) with
  | some (true, first) =>
    match (between first).received claimManager false (numberedGer 2) with
    | some (true, _) => true
    | _ => false
  | _ => false

theorem exists_of_receivesTwo {between : StartLoop Digest → StartLoop Digest}
    (receives : receivesTwo between = true) :
    ∃ first second,
      syncedLoop.received claimManager false (numberedGer 1) =
        some (true, first) ∧
      (between first).received claimManager false (numberedGer 2) =
        some (true, second) := by
  rw [receivesTwo] at receives
  split at receives
  · next first ran =>
    split at receives
    · next second ran' => exact ⟨first, second, ran, ran'⟩
    · contradiction
  · contradiction

/-- Two global exit roots are received before a goroutine runs. -/
theorem overtaken_exit_root_not_processed :
    ∃ (s : StartLoop Digest) (h : StartHistory Digest),
      Started claimManager false s h ∧ s.goroutines = 0 ∧
      numberedGer 1 ∈ h.updated ∧
      h.processed = [numberedGer 2, numberedGer 2] := by
  obtain ⟨first, second, ran, ran'⟩ := exists_of_receivesTwo
    (show receivesTwo id = true by decide +kernel)
  obtain ⟨_, started⟩ := StartLoop.received_spec ran
  obtain ⟨ger, started'⟩ := StartLoop.received_spec ran'
  have two : second.goroutines = 1 + 1 := by
    rw [started', id, started]
    rfl
  have run := Started.goroutine
    (.goroutine (.received (.received syncedLoop_started ran) ran') two) rfl
  refine ⟨_, _, run, rfl, mem_cons_self, ?_⟩
  rw [ger]
  rfl

theorem prompt_exit_roots_processed :
    ∃ (s : StartLoop Digest) (h : StartHistory Digest),
      Started claimManager false s h ∧
      h.updated = [numberedGer 1, numberedGer 2] ∧
      h.processed = h.updated := by
  obtain ⟨first, second, ran, ran'⟩ := exists_of_receivesTwo
    (show receivesTwo (fun s => { s with goroutines := 0 }) = true by
      decide +kernel)
  have one : first.goroutines = 0 + 1 := (StartLoop.received_spec ran).2
  have one' : second.goroutines = 0 + 1 := (StartLoop.received_spec ran').2
  have run := Started.goroutine (.received
    (.goroutine (.received syncedLoop_started ran) one) ran') one'
  exact ⟨_, _, run, rfl, (run.processed_once_iff rfl).1 rfl⟩

/-- A global exit root of L1 for the deposit of the rollup. -/
def rollupGer : GlobalExitRoot Digest :=
  { numberedGer 1 with
    blockID := 1
    networkID := 0 }

def unmarkedStart : World Digest :=
  { World.start 2 [] with committed := unmarkedTables }

def readyAfter (inputs : List (StartInput Digest)) : Option (List Bool) :=
  ((StartLoop.init unmarkedStart).listen claimManager false inputs).map
    fun s => s.world.committed.deposit.map DepositRow.readyForClaim

theorem early_exit_root_lost :
    readyAfter [.exitRoot rollupGer, .synced 0, .synced 1] =
        some [false, false] ∧
      readyAfter [.synced 0, .synced 1, .exitRoot rollupGer] =
        some [false, true] := by
  decide +kernel

/-- The exit root is received again after the signals. -/
theorem early_exit_root_made_up_for :
    ∃ s s', (StartLoop.init unmarkedStart).listen claimManager false
        [.exitRoot rollupGer, .synced 0, .synced 1, .exitRoot rollupGer] =
          some s ∧
      (StartLoop.init unmarkedStart).listen claimManager false
        [.synced 0, .synced 1, .exitRoot rollupGer, .synced 0, .synced 1,
          .exitRoot rollupGer] = some s' ∧
      s.world.committed.deposit = s'.world.committed.deposit := by
  have answered : ∀ ger, StartInput.exitRoot ger ∈
      [.exitRoot rollupGer, .synced 0, .synced 1, .exitRoot rollupGer] →
      claimManager.Answered unmarkedTables ger := by
    simpa using ⟨rfl, fun call _ => unmarkedTables_distinct.single call⟩
  obtain ⟨s, s', listened, listened', flags⟩ :=
    startup_keeps_flags_iff claimManager
      [.exitRoot rollupGer, .synced 0, .synced 1, .exitRoot rollupGer] false
      (show unmarkedStart.dbTx = none from rfl) (fun _ _ _ => rfl) answered
  refine ⟨s, s', listened, listened', flags.mpr ?_⟩
  rintro deposit _ _ ⟨ger, inside, marks⟩
  obtain rfl : ger = rollupGer := by simpa using inside
  exact ⟨_, by simp [StartInput.handled, claimManager], marks⟩

end Samples

end BridgeService
