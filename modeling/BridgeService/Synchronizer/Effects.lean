import BridgeService.Synchronizer.RollupEffects
import BridgeService.Synchronizer.TreeEffects

/-!
# Effects of the other handlers

The remaining handlers leave the exit trees alone.  With them, every element of
a block is handled by the rule of its event, or the block is undone.
-/

namespace BridgeService

open ErrorState List

variable {H α : Type} [DecidableEq H] [Externals H]

namespace ClientSynchronizer

variable {s : ClientSynchronizer} {height : Nat} {before : World H}
  {t : Tables H}

section Claims

omit [DecidableEq H] in
private theorem addClaim_processing (claim : Claim H) :
    before.Attempts s.networkID height t (Storage.addClaim claim .tx)
      (fun _ => before.Processing s.networkID height
        { t with claim := t.claim ++ [Storage.claimRow claim] }) := by
  have added : ∀ {t' : Tables H},
      (if t.claim.any fun row =>
          row.index == claim.index && row.rollupIndex == claim.rollupIndex &&
            row.networkID == claim.networkID &&
            row.mainnetFlag == claim.mainnetFlag then
        .error .database
      else
        .ok { t with claim := t.claim ++ [Storage.claimRow claim] }) =
        (.ok t' : Except Err (Tables H)) →
      t' = { t with claim := t.claim ++ [Storage.claimRow claim] } := by
    intro t' changed
    split at changed
    · contradiction
    · exact (Except.ok.inj changed).symm
  refine (update_processing ?_).post ?_
  · intro t' changed
    rw [added changed]
    exact ⟨⟨rfl, rfl, rfl⟩, fun _ issued => issued.congr rfl rfl rfl rfl⟩
  · rintro _ w ⟨t', changed, processing⟩
    rw [added changed] at processing
    exact processing

theorem processClaim_effect (ready : s.Ready height before)
    (claim : Claim H) (blockID blockNumber : Nat) :
    s.Performs before height blockID blockNumber t
      (s.processClaim claim blockID) (.claim claim) :=
  orRollback_triple ready
    ((addClaim_processing _).post
      (fun _ _ processing => ⟨_, .claim, processing⟩))

omit [DecidableEq H] in
private theorem addSetUnsetClaim_processing (row : SetUnsetClaimRow) :
    before.Attempts s.networkID height t (Storage.addSetUnsetClaim row .tx)
      (fun _ => before.Processing s.networkID height
        { t with setUnsetClaim := t.setUnsetClaim ++ [row] }) := by
  exact change_processing ⟨rfl, rfl, rfl⟩
    fun _ issued => issued.congr rfl rfl rfl rfl

theorem processUnsetClaimSovereign_effect (ready : s.Ready height before)
    (unsetClaim : UnsetClaim) (blockID blockNumber : Nat) :
    s.Performs before height blockID blockNumber t
      (s.processUnsetClaimSovereign unsetClaim blockID)
      (.unsetClaim unsetClaim) := by
  refine .bind (orRollback_triple ready
    (addSetUnsetClaim_processing _)) fun _ => ?_
  exact orRollback_triple ready ((change_processing ⟨rfl, rfl, rfl⟩
    fun _ issued => issued.congr rfl rfl rfl rfl).post
      fun _ _ processing => ⟨_, .unsetClaim, processing⟩)

theorem processSetClaimSovereign_effect (ready : s.Ready height before)
    (setClaim : SetClaim H) (blockID blockNumber : Nat) :
    s.Performs before height blockID blockNumber t
      (s.processSetClaimSovereign setClaim blockID blockNumber)
      (.setClaim setClaim) := by
  refine .bind (orRollback_triple ready
    (addSetUnsetClaim_processing _)) fun _ => ?_
  refine .bind (orRollback_triple ready (query_processing _))
    fun deposit => ?_
  apply Triple.ite
  · intro _
    exact (rollback_bind ready _).consequence
      (fun _ start => start.1.working) (fun _ _ result => result)
      fun _ _ failed => failed
  · intro _
    exact orRollback_triple ready ((addClaim_processing _).consequence
      (fun _ start => start.1)
      (fun _ _ processing => ⟨_, .setClaim deposit, processing⟩)
      fun _ _ failed => failed)

end Claims

section Tokens

omit [DecidableEq H] in
private theorem insertTokenWrapped_processing (token : TokenWrapped)
    (metadata : TokenMetadata) :
    before.Attempts s.networkID height t
      (Storage.insertTokenWrapped token metadata .tx)
      (fun _ w => ∃ row : TokenRow, row.blockID = token.blockID ∧
        row.networkID = token.networkID ∧
        before.Processing s.networkID height
          { t with tokenWrapped := t.tokenWrapped ++ [row] } w) := by
  refine (update_processing ?_).post ?_
  · intro t' changed
    split at changed
    · contradiction
    · rw [← Except.ok.inj changed]
      exact ⟨⟨rfl, rfl, rfl⟩, fun _ issued => issued.congr rfl rfl rfl rfl⟩
  · rintro _ w ⟨t', changed, processing⟩
    split at changed
    · contradiction
    · rw [← Except.ok.inj changed] at processing
      exact ⟨_, rfl, rfl, processing⟩

omit [DecidableEq H] in
private theorem addTokenWrapped_processing (token : TokenWrapped) :
    before.Attempts s.networkID height t
      (Storage.addTokenWrapped token .tx)
      (fun _ w => ∃ row : TokenRow, row.blockID = token.blockID ∧
        row.networkID = token.networkID ∧
        before.Processing s.networkID height
          { t with tokenWrapped := t.tokenWrapped ++ [row] } w) := by
  refine .bind ((query_processing _).post (fun _ _ result => result.1))
    fun metadata => ?_
  cases metadata with
  | none => exact insertTokenWrapped_processing token _
  | some bytes =>
    dsimp only
    cases Externals.decodeToken H bytes with
    | none => exact .throw fun _ processing => processing.working
    | some decoded => exact insertTokenWrapped_processing token decoded

theorem processTokenWrapped_effect (ready : s.Ready height before)
    (token : TokenWrapped) (blockID blockNumber : Nat) :
    s.Performs before height blockID blockNumber t
      (s.processTokenWrapped token blockID) (.token token) := by
  refine orRollback_triple ready ((addTokenWrapped_processing _).post ?_)
  rintro _ w ⟨row, here, onNetwork, processing⟩
  exact ⟨_, .token row here onNetwork, processing⟩

end Tokens

section ExitRoots

private theorem addGlobalExitRoot_processing
    {exitRoot : GlobalExitRoot H}
    (network : exitRoot.networkID = s.networkID)
    (complete : exitRoot.exitRoots.length ≠ 1)
    (short : exitRoot.exitRoots.length ≤ 2) (blockNumber : Nat) :
    before.Attempts s.networkID height t
      (Storage.addGlobalExitRoot exitRoot .tx)
      (fun _ w => ∃ id, (∀ row, row ∈ t.exitRoot → row.id < id) ∧
        before.Processing s.networkID height
          ((before.context s height exitRoot.blockID
            blockNumber).pushExitRoot id exitRoot.globalExitRoot
              exitRoot.exitRoots t) w) := by
  have inserted : ∀ {seqs seqs' : Sequences} {t' : Tables H},
      (if Storage.exitRootConflict t exitRoot.blockID
          exitRoot.globalExitRoot exitRoot.networkID then
        .error .database
      else
        .ok ((), Storage.insertExitRoot seqs t exitRoot.blockID
          exitRoot.globalExitRoot (exitRoot.exitRoots.take 2)
          exitRoot.networkID)) =
        (.ok ((), seqs', t') : Except Err (Unit × Sequences × Tables H)) →
      seqs' = { seqs with exitRoot := seqs.exitRoot + 1 } ∧
        t' = (before.context s height exitRoot.blockID
          blockNumber).pushExitRoot (seqs.exitRoot + 1)
            exitRoot.globalExitRoot exitRoot.exitRoots t := by
    intro seqs seqs' t' ran
    split at ran
    · contradiction
    · rw [take_of_length_le short, network] at ran
      simp only [Except.ok.injEq, Prod.mk.injEq, true_and] at ran
      obtain ⟨sameSeqs, sameTables⟩ := Prod.mk.inj ran
      exact ⟨sameSeqs.symm, sameTables.symm⟩
  rw [Storage.addGlobalExitRoot, if_neg complete]
  refine (exec_processing ?_).post ?_
  · intro seqs _ seqs' t' issued ran
    obtain ⟨rfl, rfl⟩ := inserted ran
    refine ⟨⟨rfl, rfl, rfl⟩, ⟨le_rfl, le_rfl, Nat.le_succ _,
      le_rfl⟩, issued.block, issued.deposit, ?_, issued.rollupExit⟩
    intro row stored
    rcases Rows.mem_push.mp stored with old | rfl
    · exact (issued.exitRoot row old).trans (Nat.le_succ _)
    · rfl
  · rintro _ w ⟨seqs, seqs', t', issued, ran, processing⟩
    obtain ⟨_, rfl⟩ := inserted ran
    exact ⟨seqs.exitRoot + 1, fun row stored =>
      Nat.lt_succ_of_le (issued.exitRoot row stored), processing⟩

omit [DecidableEq H] [Externals H] in
private theorem updateL2GER_ids (t : Tables H) (ger : GlobalExitRoot H) :
    (t.updateL2GER ger).exitRoot.map ExitRootRow.id =
      t.exitRoot.map ExitRootRow.id := by
  rw [Tables.updateL2GER, map_map]
  apply map_congr_left
  intro row _
  by_cases hit : row.id = ger.id
  · simp [hit]
  · simp [hit]

private theorem completeL2_processing (ready : s.Ready height before)
    (gers : List (GlobalExitRoot H)) (exitRoots : List H) (t : Tables H) :
    before.Handles s.networkID height t
      (gers.foldlM (fun _ ger =>
        s.orRollback (Storage.updateL2GER
          { ger with exitRoots := exitRoots } .tx)) ())
      (fun _ => before.Processing s.networkID height
        (gers.foldl (fun t row =>
          t.updateL2GER { row with exitRoots := exitRoots }) t)) := by
  induction gers generalizing t with
  | nil => exact .pure fun _ processing => processing
  | cons ger rest induction =>
    rw [foldlM_cons, foldl_cons]
    exact .bind (orRollback_triple ready
      (change_processing ⟨rfl, rfl, rfl⟩ fun _ issued =>
        issued.congr rfl rfl (updateL2GER_ids t _) rfl)) fun _ => induction _

private theorem knownExitRoots_processing (ger : H)
    (blockID blockNumber : Nat) :
    before.Attempts s.networkID height t (knownExitRoots ger)
      (fun exitRoots w => before.Processing s.networkID height t w ∧
        (before.context s height blockID blockNumber).KnownExitRoots ger
          exitRoots) := by
  apply Triple.handle
  · refine .bind (poolQuery_processing _) fun l1GER =>
      .pure ?_
    rintro w ⟨processing, found⟩
    exact ⟨processing, .inl ⟨l1GER, found, rfl⟩⟩
  · intro err
    have raised : Triple
        (fun w => before.Processing s.networkID height t w ∧
          (err = .database ∨
            before.committed.getL1ExitRootByGER ger = .error err))
        (throw err : Service H (List H))
        (fun exitRoots w => before.Processing s.networkID height t w ∧
          (before.context s height blockID blockNumber).KnownExitRoots ger
            exitRoots)
        (fun _ => before.opened.Working .tx s.networkID height) :=
      .throw fun _ failed => failed.1.working
    cases err with
    | storageNotFound =>
      apply Triple.pure
      rintro w ⟨processing, impossible | missing⟩
      · contradiction
      · exact ⟨processing, .inr ⟨missing, rfl⟩⟩
    | _ => exact raised

omit [Externals H] in
private theorem knownExitRoots_length {ctx : BlockContext H} {ger : H}
    {exitRoots : List H} (known : ctx.KnownExitRoots ger exitRoots) :
    exitRoots.length = 0 ∨ exitRoots.length = 2 := by
  rcases known with ⟨l1GER, found, rfl⟩ | ⟨_, rfl⟩
  · exact .inr (Tables.length_latestL1ExitRoot found)
  · exact .inl rfl

theorem processGlobalExitRoot_effect (ready : s.Ready height before)
    {ger : GlobalExitRoot H}
    (wellFormed : ger.exitRoots.length = 0 ∨ ger.exitRoots.length = 2)
    (blockID blockNumber : Nat) :
    s.Performs before height blockID blockNumber t
      (s.processGlobalExitRoot ger blockID) (.globalExitRoot ger) := by
  rw [processGlobalExitRoot]
  apply Triple.ite
  · intro two
    refine .bind (orRollback_triple ready
      ((poolQuery_processing _).onError fun _ _ failed =>
          failed.1.working)) fun gers => ?_
    rintro w ⟨processing, found⟩
    have waiting := Except.ok.inj found
    subst waiting
    refine (Triple.bind (completeL2_processing ready _ _ t)
      fun _ => orRollback_triple ready
        ((addGlobalExitRoot_processing ?_ ?_ ?_ blockNumber).post ?_)) w
          processing
    · rfl
    · dsimp only
      omega
    · dsimp only
      omega
    · rintro _ w ⟨id, fresh, processing⟩
      exact ⟨_, .globalExitRootL1 id two fresh, processing⟩
  · intro notTwo
    apply Triple.ite
    · intro none
      refine .bind (orRollback_triple ready
        (knownExitRoots_processing _ blockID blockNumber))
          fun exitRoots => ?_
      rintro w ⟨processing, known⟩
      have length := knownExitRoots_length known
      refine orRollback_triple ready
        ((addGlobalExitRoot_processing ?_ ?_ ?_ blockNumber).post ?_) w
          processing
      · rfl
      · dsimp only
        omega
      · dsimp only
        omega
      · rintro _ w ⟨id, fresh, processing⟩
        have absent : ger.exitRoots.length = 0 := none
        exact ⟨_, .globalExitRootL2 id absent exitRoots known fresh,
          processing⟩
    · intro notNone
      rcases wellFormed with none | two
      · exact absurd none notNone
      · exact absurd two notTwo

private theorem depositIDByGER_processing (ger : H)
    (network missing : Nat) :
    before.Attempts s.networkID height t
      (Storage.depositIDByGER ger network missing .tx)
      (fun _ => before.Processing s.networkID height t) := by
  apply Triple.handle ((query_keeps _).post (fun _ _ result => result.1))
  intro err
  have raised : before.Attempts s.networkID height t
    (throw err : Service H Nat)
    (fun _ => before.Processing s.networkID height t) :=
    .throw fun _ processing => processing.working
  cases err with
  | storageNotFound => exact .pure fun _ processing => processing
  | _ => exact raised

private theorem updateGERStatus_processing (ger : GlobalExitRoot H) :
    before.Attempts s.networkID height t (Storage.updateGERStatus ger .tx)
      (fun _ w => (∃ row, row ∈ t.exitRoot ∧
          Storage.isEntryOf ger.globalExitRoot ger.networkID row = true) ∧
        before.Processing s.networkID height
          { t with
            exitRoot := t.exitRoot.map fun row =>
              if Storage.isEntryOf ger.globalExitRoot ger.networkID row then
                { row with allowed := false }
              else
                row } w) := by
  have ids : (t.exitRoot.map fun row =>
      if Storage.isEntryOf ger.globalExitRoot ger.networkID row then
        { row with allowed := false }
      else
        row).map ExitRootRow.id = t.exitRoot.map ExitRootRow.id := by
    rw [map_map]
    apply map_congr_left
    intro row _
    rw [Function.comp_apply]
    split <;> rfl
  refine (exec_processing ?_).post ?_
  · intro seqs value seqs' t' issued ran
    split at ran
    · contradiction
    · simp only [Except.ok.injEq, Prod.mk.injEq] at ran
      obtain ⟨_, rfl, rfl⟩ := ran
      exact ⟨⟨rfl, rfl, rfl⟩, .refl _, issued.congr rfl rfl ids rfl⟩
  · rintro _ w ⟨seqs, seqs', t', issued, ran, processing⟩
    split at ran
    · contradiction
    · next row found =>
      simp only [Except.ok.injEq, Prod.mk.injEq] at ran
      obtain ⟨_, rfl, rfl⟩ := ran
      exact ⟨⟨row, mem_of_find?_eq_some found,
        find?_some found⟩, processing⟩

omit [DecidableEq H] in
private theorem updateDepositsFlag_processing (low high network : Nat) :
    before.Attempts s.networkID height t
      (Storage.updateDepositsFlag low high network .tx)
      (fun _ => before.Processing s.networkID height
        (t.setReady false fun row => low < row.id && row.id ≤ high &&
          row.networkID == 0 && row.destNet == network)) := by
  refine (update_processing ?_).post ?_
  · intro t' changed
    split at changed
    · contradiction
    · rw [← Except.ok.inj changed]
      exact ⟨⟨t.entries_setReady _ _, rfl, rfl⟩, fun _ issued =>
        issued.setReady _ _⟩
  · rintro _ w ⟨t', changed, processing⟩
    split at changed
    · contradiction
    · rw [← Except.ok.inj changed] at processing
      exact processing

theorem processRemoveL2GlobalExitRoot_effect (ready : s.Ready height before)
    (ger : GlobalExitRoot H) (blockID blockNumber : Nat) :
    s.Performs before height blockID blockNumber t
      (s.processRemoveL2GlobalExitRoot ger blockID) (.removeL2GER ger) := by
  refine orRollback_triple ready ?_
  refine .bind (update_processing ?_) fun _ => ?_
  · intro t' changed
    rw [← Except.ok.inj changed]
    exact ⟨⟨rfl, rfl, rfl⟩, fun _ issued => issued.congr rfl rfl rfl rfl⟩
  rintro w ⟨t₁, changed, processing⟩
  rw [← Except.ok.inj changed] at processing
  refine (Triple.bind (updateGERStatus_processing _) fun gerID => ?_) w
    processing
  rintro w ⟨found, processing⟩
  refine (Triple.bind ((query_processing _).post (fun _ _ result => result.1))
    fun prevGer =>
    .bind (depositIDByGER_processing _ _ _) fun prevDepositID =>
    .bind (depositIDByGER_processing _ _ _) fun currentDepositID =>
    (updateDepositsFlag_processing _ _ _).post ?_) w processing
  intro _ w processing
  exact ⟨_, .removeL2GER prevDepositID currentDepositID found, processing⟩

end ExitRoots

section Batches

theorem checkIfRootExists_processing (root : H) (network : Nat) :
    before.Attempts s.networkID height t
      (Storage.checkIfRootExists root network .tx)
      (fun ok w => before.Processing s.networkID height t w ∧
        (ok = true → t.checkIfRootExists root network = true)) := by
  refine .handle
    ((query_keeps _).post (fun _ _ result => ⟨result.1, fun ok =>
      (Except.ok.inj result.2).trans ok⟩)) fun _ =>
        .pure fun _ processing => ⟨processing, nofun⟩

theorem addRollupExitLeaf_processing
    (rollupLeaf : RollupExitLeaf H) :
    before.Attempts s.networkID height t
      (BridgeController.addRollupExitLeaf rollupLeaf .tx)
      (fun _ w => 0 < rollupLeaf.rollupId ∧
        ∃ t', RollupLeafAdded before.rollupsTree.height rollupLeaf t t' ∧
          before.Processing s.networkID height t' w) := by
  intro w processing
  have same : w.rollupsTree = before.rollupsTree := by
    obtain ⟨mt, ⟨seqs, tick, rfl, _⟩, _⟩ := processing.session
    rfl
  rw [BridgeController.addRollupExitLeaf, same]
  exact addRollupExitLeaf_triple
    (carries_processing before s.networkID height) before.rollupsTree
    rollupLeaf w processing

theorem processVerifyBatch_effect (ready : s.Ready height before)
    (batch : VerifiedBatch H) (blockID blockNumber : Nat) :
    s.Performs before height blockID blockNumber t
      (s.processVerifyBatch batch blockID) (.verifyBatch batch) := by
  apply Triple.ite
  · intro zero
    exact .pure fun w processing =>
      ⟨t, .verifyBatchIgnored zero, processing⟩
  · intro nonzero
    have added : (batch.rollupID ∈ s.allNetworkIDs →
        t.checkIfRootExists batch.localExitRoot batch.rollupID = true) →
        before.Handles s.networkID height t
          (s.orRollback (BridgeController.addRollupExitLeaf
            { id := 0
              blockID := blockID
              leaf := batch.localExitRoot
              rollupId := batch.rollupID
              root := hashZero } .tx))
          (fun _ => before.Handled
            (before.context s height blockID blockNumber) t
            (.verifyBatch batch)) := by
      intro known
      refine orRollback_triple ready
        ((addRollupExitLeaf_processing _).post ?_)
      rintro _ w ⟨positive, t', added, processing⟩
      exact ⟨t', .verifyBatch nonzero positive known added, processing⟩
    apply Triple.ite
    · intro member
      refine .bind (orRollback_triple ready
        (checkIfRootExists_processing _ _)) fun ok => ?_
      cases ok with
      | true =>
        rintro w ⟨processing, known⟩
        exact added (fun _ => known rfl) w processing
      | false =>
        exact (rollback_bind ready _).consequence
          (fun _ start => start.1.working) (fun _ _ result => result)
          fun _ _ failed => failed
    · intro notMember
      exact added fun member => absurd member notMember

end Batches

section Elements

variable {block : Block H} {element : Order}

omit [DecidableEq H] [Externals H] in
private theorem eventAt_some {name : EventOrder} {events : List α}
    {pos : Nat} {found : α} (here : events[pos]? = some found) :
    (eventAt name events pos : Service H α) = pure found := by
  rw [eventAt, here]

omit [DecidableEq H] [Externals H] in
private theorem then_pure {β : Type} {program : Service H Unit}
    {value : β} {start after : World H → Prop}
    {failed : Err → World H → Prop}
    (triple : Triple start program (fun _ => after) failed) :
    Triple start (do program; pure value) (fun _ => after) failed :=
  .bind triple fun _ => .pure fun _ done => done

theorem processElement_effect (ready : s.Ready height before)
    {event : Event H} (here : block.event element = some event)
    (wellFormed : event.WellFormed) (withinCap : event.WithinCap height)
    (blockID : Nat) (gers : NewGers) :
    before.Handles s.networkID height t
      (s.processElement block blockID gers element)
      (fun _ => before.Handled
        (before.context s height blockID block.blockNumber) t event) := by
  obtain ⟨name, pos⟩ := element
  cases name with
  | globalExitRootsOrder =>
    obtain ⟨ger, found, rfl⟩ := Option.map_eq_some_iff.mp here
    simp only [processElement, eventAt_some found, pure_bind]
    exact then_pure (processGlobalExitRoot_effect ready wellFormed blockID _)
  | removeL2GEROrder =>
    obtain ⟨ger, found, rfl⟩ := Option.map_eq_some_iff.mp here
    simp only [processElement, eventAt_some found, pure_bind]
    exact then_pure (processRemoveL2GlobalExitRoot_effect ready ger blockID _)
  | depositsOrder =>
    obtain ⟨deposit, found, rfl⟩ := Option.map_eq_some_iff.mp here
    simp only [processElement, eventAt_some found, pure_bind]
    exact then_pure (processDeposit_effect ready withinCap blockID _)
  | claimsOrder =>
    obtain ⟨claim, found, rfl⟩ := Option.map_eq_some_iff.mp here
    simp only [processElement, eventAt_some found, pure_bind]
    exact then_pure (processClaim_effect ready claim blockID _)
  | tokensOrder =>
    obtain ⟨token, found, rfl⟩ := Option.map_eq_some_iff.mp here
    simp only [processElement, eventAt_some found, pure_bind]
    exact then_pure (processTokenWrapped_effect ready token blockID _)
  | verifyBatchOrder =>
    obtain ⟨batch, found, rfl⟩ := Option.map_eq_some_iff.mp here
    simp only [processElement, eventAt_some found, pure_bind]
    exact then_pure (processVerifyBatch_effect ready batch blockID _)
  | backwardLETOrder =>
    obtain ⟨backward, found, rfl⟩ := Option.map_eq_some_iff.mp here
    simp only [processElement, eventAt_some found, pure_bind]
    exact then_pure
      (processBackwardLETSovereign_effect ready backward blockID _)
  | unsetClaimOrder =>
    obtain ⟨unset, found, rfl⟩ := Option.map_eq_some_iff.mp here
    simp only [processElement, eventAt_some found, pure_bind]
    exact then_pure (processUnsetClaimSovereign_effect ready unset blockID _)
  | setClaimOrder =>
    obtain ⟨set, found, rfl⟩ := Option.map_eq_some_iff.mp here
    simp only [processElement, eventAt_some found, pure_bind]
    exact then_pure (processSetClaimSovereign_effect ready set blockID _)
  | forwardLETOrder =>
    obtain ⟨forward, found, rfl⟩ := Option.map_eq_some_iff.mp here
    simp only [processElement, eventAt_some found, pure_bind]
    exact then_pure
      (processForwardLETSovereign_effect ready withinCap blockID _)

theorem processElement_malformed (malformed : ¬block.WellFormedAt element)
    (blockID : Nat) (gers : NewGers) (w : World H) :
    ∃ err, s.processElement block blockID gers element w = .error err w := by
  obtain ⟨name, pos⟩ := element
  have missing : ∀ {β : Type} {events : List β}
      {rest : β → Service H NewGers},
      events[pos]? = none →
      ∃ err, (eventAt name events pos >>= rest) w = .error err w := by
    intro β events rest absent
    rw [eventAt, absent]
    exact ⟨_, rfl⟩
  have absent : ∀ {β : Type} {events : List β} (make : β → Event H),
      block.event ⟨name, pos⟩ = events[pos]?.map make →
      (∀ found, (make found).WellFormed) → events[pos]? = none := by
    intro β events make here wellFormed
    cases found : events[pos]? with
    | none => rfl
    | some event =>
      rw [found] at here
      exact absurd ⟨make event, here, wellFormed event⟩ malformed
  cases name with
  | globalExitRootsOrder =>
    cases found : block.globalExitRoots[pos]? with
    | none => exact missing found
    | some ger =>
      have wrong : ¬(ger.exitRoots.length = 0 ∨
          ger.exitRoots.length = 2) := by
        intro wellFormed
        exact malformed ⟨.globalExitRoot ger, by
          rw [Block.event, found]; rfl, wellFormed⟩
      rw [not_or] at wrong
      simp only [processElement, eventAt_some found, pure_bind,
        processGlobalExitRoot, if_neg wrong.1, if_neg wrong.2]
      exact ⟨_, rfl⟩
  | removeL2GEROrder =>
    exact missing (absent .removeL2GER rfl fun _ => trivial)
  | depositsOrder => exact missing (absent .deposit rfl fun _ => trivial)
  | claimsOrder => exact missing (absent .claim rfl fun _ => trivial)
  | tokensOrder => exact missing (absent .token rfl fun _ => trivial)
  | verifyBatchOrder =>
    exact missing (absent .verifyBatch rfl fun _ => trivial)
  | backwardLETOrder =>
    exact missing (absent .backwardLET rfl fun _ => trivial)
  | unsetClaimOrder =>
    exact missing (absent .unsetClaim rfl fun _ => trivial)
  | setClaimOrder => exact missing (absent .setClaim rfl fun _ => trivial)
  | forwardLETOrder =>
    exact missing (absent .forwardLET rfl fun _ => trivial)

end Elements

end ClientSynchronizer

end BridgeService
