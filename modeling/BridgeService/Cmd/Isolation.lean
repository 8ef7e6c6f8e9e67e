import BridgeService.Cmd.Run

/-!
# Isolation of networks

In every reachable state of the service, a block or a reset of one network
leaves the tree in memory and the rows of every other network as they are, up
to the exit roots that an L1 block fills in and the status that the removal of a
global exit root clears.
-/

namespace BridgeService

open ErrorState

variable {H : Type} [DecidableEq H] [Externals H]

structure World.Isolated (networkID other : Nat) (events : List (Event H))
    (w w' : World H) : Prop where
  exitTree : w'.exitTrees other = w.exitTrees other
  tables : w.committed.Isolated networkID other events w'.committed

variable {networkID other height : Nat}

omit [DecidableEq H] in
private theorem exitTrees_other {before w : World H} {t : Tables H}
    (settled : before.Settled networkID height t w)
    (different : other ≠ networkID) :
    w.exitTrees other = before.exitTrees other := by
  obtain ⟨mt, ⟨seqs, tick, rfl, _⟩, _⟩ := settled.session
  exact Function.update_of_ne different _ _

omit [DecidableEq H] [Externals H] in
private theorem isolated_self (t : Tables H) :
    t.Isolated networkID other [] t where
  blocks := rfl
  deposits := List.forall₂_same.mpr fun _ _ => .inl rfl
  claims := rfl
  tokens := rfl
  exitRoots := List.forall₂_same.mpr fun _ _ => .inl rfl
  roots := rfl
  nodes := rfl
  rollupExit := fun _ => rfl

omit [DecidableEq H] in
private theorem isolated_reset {t : Tables H} {blockNumber : Nat}
    (tree : t.TreeTables height)
    (tree' : (t.reset blockNumber networkID).TreeTables height)
    (separated : t.Separated) (different : other ≠ networkID) :
    t.Isolated networkID other [] (t.reset blockNumber networkID) := by
  obtain ⟨blocks, deposits, claims, tokens, exitRoots⟩ :=
    separated.reset_other blockNumber different
  have trees := tree.same_trees tree' (congrArg _ deposits)
  exact
    { blocks := blocks
      deposits := by
        rw [deposits]
        exact List.forall₂_same.mpr fun _ _ => .inl rfl
      claims := claims
      tokens := tokens
      exitRoots := by
        rw [exitRoots]
        exact List.forall₂_same.mpr fun _ _ => .inl rfl
      roots := trees.1
      nodes := trees.2
      rollupExit := fun notL1 => separated.rollupExit_reset notL1 }

namespace Deployment

variable {d : Deployment} {start w : World H} {s : ClientSynchronizer}

theorem eq_l1_of_networkID (deployed : s ∈ d.synchronizers)
    (l1 : s.networkID = 0) : s = d.l1 := by
  rcases List.mem_cons.mp deployed with same | other
  · exact same
  · obtain ⟨networkID, inside, rfl⟩ := List.mem_map.mp other
    exact absurd l1 (d.notL1 networkID inside)

private theorem Step.rollupExit {w' : World H} (step : d.Step height w w')
    (sound : d.Sound height w) :
    w'.committed.rollupExit = w.committed.rollupExit ∨
      (∃ order gers gers' block,
        d.l1.processBlock order gers block w = .ok gers' w') ∨
      ∃ blockNumber, d.l1.resetState blockNumber w = .ok () w' := by
  cases step.change sound with
  | kept same => exact .inl (congrArg Tables.rollupExit same)
  | block s deployed order gers gers' block emitted inOrder ran commits =>
    by_cases l1 : s.networkID = 0
    · rw [eq_l1_of_networkID deployed l1] at ran
      exact .inr (.inl ⟨order, gers, gers', block, ran⟩)
    · have tree := (sound.ready s deployed).consistent.tables
      exact .inl ((commits.isolated tree sound.separated inOrder emitted
        (Ne.symm l1)).rollupExit l1)
  | reset s deployed blockNumber ran committed =>
    by_cases l1 : s.networkID = 0
    · rw [eq_l1_of_networkID deployed l1] at ran
      exact .inr (.inr ⟨blockNumber, ran⟩)
    · rw [committed]
      exact .inl (sound.separated.rollupExit_reset l1)
  | trusted networkID deployed lastGER mainnet rollup added =>
    obtain ⟨_, _, committed⟩ := added.committed
    rw [committed]
    exact .inl rfl
  | status networkID deployed ger rest pending received updated =>
    let holds : Tables H → Prop := fun t =>
      t.rollupExit = w.committed.rollupExit
    have closed : ∀ t matching, holds t →
        holds (t.setReady true matching) := fun _ _ same => same
    exact .inl (updated.preserves closed rfl)

/-- Blocks and resets of one network leave every other network alone. -/
theorem networks_are_isolated
    (ready : ∀ s, s ∈ d.synchronizers → s.Ready height start)
    (empty : start.committed = Tables.empty) (run : d.Run height start w)
    (deployed : s ∈ d.synchronizers) (different : other ≠ s.networkID) :
    (∀ order gers gers' block w',
      (s.networkID ≠ 0 → block.OfL2) → block.WithinCap height →
      w.committed.InOrder s.networkID block →
      s.processBlock order gers block w = .ok gers' w' →
      w.Isolated s.networkID other
        ((order block.blockHash).filterMap block.event) w') ∧
    (∀ order gers block err w', block.WithinCap height →
      s.processBlock order gers block w = .error err w' →
      err ≠ .panic → ¬s.StopsIn order gers block w w' →
      w'.exitTrees other = w.exitTrees other ∧ w'.committed = w.committed) ∧
    (∀ blockNumber w', (s.resetState blockNumber).Ends w w' →
      w.Isolated s.networkID other [] w') ∧
    ∀ w', d.Step height w w' →
      w'.committed.rollupExit = w.committed.rollupExit ∨
      (∃ order gers gers' block,
        d.l1.processBlock order gers block w = .ok gers' w') ∨
      ∃ blockNumber, d.l1.resetState blockNumber w = .ok () w' := by
  have sound := run.sound (sound_initial ready empty)
  have readyNow := sound.ready s deployed
  have tree := readyNow.consistent.tables
  have separated := sound.separated
  refine ⟨?_, ?_, ?_, ?_⟩
  · intro order gers gers' block w' emitted withinCap inOrder ran
    obtain ⟨t, commits, settled⟩ :=
      ClientSynchronizer.processBlock_ok readyNow withinCap ran
    refine ⟨exitTrees_other settled different, ?_⟩
    rw [settled.committed]
    exact commits.isolated tree separated inOrder emitted different
  · intro order gers block err w' withinCap ran returned handled
    rcases ClientSynchronizer.processBlock_error readyNow withinCap ran with
      panicked | settled | ⟨stops, _⟩
    · exact absurd panicked returned
    · exact ⟨exitTrees_other settled different, settled.committed⟩
    · exact absurd stops handled
  · rintro blockNumber w' (⟨_, ran⟩ | ⟨err, returned, ran⟩)
    · have settled := ClientSynchronizer.resetState_ok readyNow
        separated.chained ran
      refine ⟨exitTrees_other settled different, ?_⟩
      rw [settled.committed]
      exact isolated_reset tree settled.tables separated different
    · rcases ClientSynchronizer.resetState_error readyNow separated.chained
        ran with panicked | settled
      · exact absurd panicked returned
      · refine ⟨exitTrees_other settled different, ?_⟩
        rw [settled.committed]
        exact isolated_self w.committed
  · intro w' step
    exact step.rollupExit sound

theorem deposits_are_isolated :
    ∃ w w' : World Digest, sampleDeployment.Run 2 (World.start 2 [0, 1, 2]) w ∧
        (w.committed.depositsOf 0).length = 1 ∧
        (w'.committed.depositsOf 1).length = 1 ∧
        w.Isolated 1 0 [.deposit (sampleDeposit 1 0)] w' := by
  let gers : NewGers := ⟨false, false⟩
  let onL2 : Block Digest := depositBlock 2 [sampleDeposit 1 0]
  have returned : commits 2 sampleDeployment.l1 (depositOrder 1)
      (depositBlock 1 [sampleDeposit 0 0])
      (fun w =>
        decide ((w.committed.depositsOf 0).length = 1 ∧
          w.committed.InOrder 1 onL2) &&
        returns
          ((sampleDeployment.l2 1).processBlock (depositOrder 1) gers onL2)
          (fun _ (w' : World Digest) =>
            (w'.committed.depositsOf 1).length = 1) w)
      (World.start 2 [0, 1, 2]) = true := by
    decide +kernel
  obtain ⟨w, step, held⟩ := step_of_commits List.mem_cons_self returned
  obtain ⟨first, held⟩ := Bool.and_eq_true_iff.mp held
  obtain ⟨stored, inOrder⟩ := of_decide_eq_true first
  obtain ⟨_, w', ran, stored'⟩ := exists_of_returns held
  have run : sampleDeployment.Run 2 (World.start 2 [0, 1, 2]) w := .single step
  refine ⟨w, w', run, stored, of_decide_eq_true stored', ?_⟩
  exact (networks_are_isolated
    (sampleDeployment_ready Digest.hash_injective 2 (by decide)) rfl run
    (s := sampleDeployment.l2 1) (by decide) (by decide)).1 _ _ _ onL2 w'
    (fun _ => ⟨rfl, nofun⟩) (by decide) inOrder ran

end Deployment

end BridgeService
