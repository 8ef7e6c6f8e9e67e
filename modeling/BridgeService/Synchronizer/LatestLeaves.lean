import BridgeService.Lib.Dedup
import BridgeService.Synchronizer.RollupRun
import Mathlib.Data.List.Induction

/-!
# The latest leaves of the rollups

The current leaf of every rollup is read from the newest rows of the table,
but a version whose root is already stored is not stored again.  The table is
therefore a history without repetitions, and it follows the leaves only as long
as they do not come back to an earlier version.
-/

namespace BridgeService

open ErrorState PaddedTree List

variable {H : Type}

section Specification

variable [Externals H]

def largestID (calls : List (RollupExitLeaf H)) : Nat :=
  (calls.map RollupExitLeaf.rollupId).foldl max 0

def lastLeaf (calls : List (RollupExitLeaf H)) (rollupId : Nat) : H :=
  match calls.reverse.find? fun call => call.rollupId == rollupId with
  | none => hashZero
  | some call => call.leaf

/-- The leaf of the last call for every rollup up to the largest one. -/
def lastWritten (calls : List (RollupExitLeaf H)) : List H :=
  (List.range (largestID calls)).map fun index => lastLeaf calls (index + 1)

variable {calls : List (RollupExitLeaf H)} {call : RollupExitLeaf H}

omit [Externals H] in
theorem largestID_snoc :
    largestID (calls ++ [call]) = max (largestID calls) call.rollupId := by
  simp [largestID]

theorem lastLeaf_snoc (rollupId : Nat) :
    lastLeaf (calls ++ [call]) rollupId =
      if call.rollupId = rollupId then call.leaf
      else lastLeaf calls rollupId := by
  rw [lastLeaf, reverse_append, reverse_singleton,
    singleton_append, find?_cons]
  by_cases same : call.rollupId = rollupId
  · simp [same]
  · have different : (call.rollupId == rollupId) = false := by
      simpa using same
    rw [different, if_neg same, lastLeaf]

omit [Externals H] in
theorem le_largestID (mem : call ∈ calls) :
    call.rollupId ≤ largestID calls := by
  induction calls using List.reverseRecOn with
  | nil => contradiction
  | append_singleton rest last induction =>
    rw [largestID_snoc]
    rcases Rows.mem_push.mp mem with old | rfl
    · exact (induction old).trans (Nat.le_max_left _ _)
    · exact Nat.le_max_right _ _

theorem lastLeaf_outside {rollupId : Nat}
    (outside : largestID calls < rollupId) :
    lastLeaf calls rollupId = hashZero := by
  rw [lastLeaf]
  split
  · rfl
  · next call found =>
    have mem := mem_reverse.mp (mem_of_find?_eq_some found)
    have same : call.rollupId = rollupId := by
      simpa using find?_some found
    have bound := le_largestID mem
    omega

theorem lastWritten_snoc (positive : 0 < call.rollupId) :
    lastWritten (calls ++ [call]) =
      putLeaf call.rollupId call.leaf (lastWritten calls) := by
  apply ext_getElem?
  intro index
  rw [getElem?_putLeaf positive, lastWritten, lastWritten,
    largestID_snoc, length_map, length_range, getElem?_map,
    getElem?_map]
  by_cases here : index + 1 = call.rollupId
  · rw [if_pos here, getElem?_range (by omega), Option.map_some,
      lastLeaf_snoc, if_pos here.symm]
  · rw [if_neg here]
    by_cases old : index < largestID calls
    · rw [if_pos old, getElem?_range (by omega),
        getElem?_range old, Option.map_some, Option.map_some,
        lastLeaf_snoc, if_neg (Ne.symm here)]
    · rw [if_neg old]
      by_cases inside : index < call.rollupId
      · rw [if_pos inside, getElem?_range (by omega), Option.map_some,
          lastLeaf_snoc, if_neg (Ne.symm here),
          lastLeaf_outside (by omega)]
      · rw [if_neg inside, getElem?_eq_none (by simp; omega),
          Option.map_none]

def putCall (leaves : List H) (call : RollupExitLeaf H) : List H :=
  putLeaf call.rollupId call.leaf leaves

theorem lastWritten_eq_foldl
    (positive : ∀ call, call ∈ calls → 0 < call.rollupId) :
    lastWritten calls = calls.foldl putCall [] := by
  induction calls using List.reverseRecOn with
  | nil => rfl
  | append_singleton rest last induction =>
    rw [lastWritten_snoc (positive last (by simp)), foldl_append,
      induction fun call mem => positive call (by simp [mem])]
    rfl

end Specification

section History

variable [DecidableEq H] [Externals H] {height : Nat}
  {versions versions' : List (Version H)}

omit [DecidableEq H] [Externals H] in
theorem latestLeaves_eq_current (versions : List (Version H)) :
    latestLeaves versions =
      Dedup.current [] (versions.map Version.leaves) := by
  rw [latestLeaves, Dedup.current, getLast?_map]

theorem VersionAdded.leaves_eq {rows : List (RollupExitLeaf H)}
    {call : RollupExitLeaf H}
    (injective : Function.Injective2 (hash : H → H → H))
    (valid : Versions height rows versions) (positive : 0 < call.rollupId)
    (fits : call.rollupId ≤ 2 ^ height) (nonzero : call.leaf ≠ hashZero)
    (added : VersionAdded height call versions versions') :
    versions'.map Version.leaves = Dedup.record (versions.map Version.leaves)
        (putCall (Dedup.current [] (versions.map Version.leaves)) call) := by
  rw [← latestLeaves_eq_current, Dedup.record]
  have complete : Complete (putCall (latestLeaves versions) call) :=
    complete_putLeaf positive nonzero valid.latest_complete
  have short : (putCall (latestLeaves versions) call).length ≤
      2 ^ height := by
    rw [putCall, length_putLeaf]
    exact Nat.max_le.mpr ⟨valid.latest_fits, fits⟩
  cases added with
  | known version mem same =>
    obtain ⟨versionComplete, versionFits⟩ := valid.complete version mem
    have equal := versionComplete.eq_of_root_eq injective complete
      versionFits short same
    rw [if_pos (mem_map.mpr ⟨version, mem, equal⟩)]
  | new first unknown =>
    have fresh : putCall (latestLeaves versions) call ∉
        versions.map Version.leaves := by
      intro mem
      obtain ⟨version, versionIn, same⟩ := mem_map.mp mem
      apply unknown version versionIn
      rw [Version.root, same]
      rfl
    rw [if_neg fresh, map_append]
    rfl

end History

section Calls

variable [DecidableEq H] [Externals H] {height : Nat} {w : World H}
  {dbTx : Querier} {t : Tables H}

structure World.QuietLeaves (w : World H) (dbTx : Querier) : Prop where
  getLatestRollupExitLeaves : ¬w.Faulty .getLatestRollupExitLeaves dbTx
  isRollupExitRoot : ¬w.Faulty .isRollupExitRoot dbTx
  addRollupExitLeaves : ¬w.Faulty .addRollupExitLeaves dbTx

structure RollupExitLeaf.Fits (height : Nat) (call : RollupExitLeaf H) :
    Prop where
  positive : 0 < call.rollupId
  inside : call.rollupId ≤ 2 ^ height
  nonzero : call.leaf ≠ hashZero

omit [DecidableEq H] [Externals H] in
private theorem quiet_at {call : StorageCall} (quiet : ¬w.Faulty call dbTx)
    (tick : Nat) : w.fault tick call dbTx = false := by
  cases fault : w.fault tick call dbTx with
  | false => rfl
  | true => exact absurd ⟨tick, fault⟩ quiet

omit [DecidableEq H] [Externals H] in
private theorem query_answers {α : Type} {call : StorageCall}
    (quiet : ¬w.Faulty call dbTx) (view : w.view dbTx = some t)
    (read : Tables H → α) :
    Storage.query call dbTx (fun t => .ok (read t)) w =
      .ok (read t) w.advance := by
  rw [Storage.query_view (quiet_at quiet w.tick) view]

private theorem storeLeaves_returns {mt : MerkleTree H}
    (view : w.view dbTx = some t) (quiet : w.QuietLeaves dbTx)
    {leaves : List H} {root : H} (blockID : Nat)
    (rooted : MerkleTree.buildMTRoot mt.height leaves = .ok root) :
    ∃ w', MerkleTree.storeLeaves Storage.merkleTreeStore mt leaves blockID
      dbTx w = .ok () w' := by
  have asked : Storage.merkleTreeStore.isRollupExitRoot root dbTx w =
      .ok (t.isRollupExitRoot root) w.advance :=
    query_answers quiet.isRollupExitRoot view fun t =>
      t.isRollupExitRoot root
  have later : w.advance.view dbTx = some t := by
    cases dbTx <;> exact view
  have noFault : w.advance.fault w.advance.tick .addRollupExitLeaves dbTx =
      false := quiet_at quiet.addRollupExitLeaves (w.tick + 1)
  have inserted : ∀ rows, ∃ w',
      Storage.addRollupExitLeaves rows dbTx w.advance = .ok () w' := by
    intro rows
    rw [Storage.addRollupExitLeaves, Storage.exec_view noFault later]
    exact ⟨_, rfl⟩
  rw [MerkleTree.storeLeaves, rooted]
  cases exist : t.isRollupExitRoot root with
  | true =>
    rw [exist] at asked
    exact ⟨_, bind_of_ok asked⟩
  | false =>
    rw [exist] at asked
    obtain ⟨w', stored⟩ := inserted _
    exact ⟨w', (bind_of_ok asked).trans stored⟩

omit [DecidableEq H] in
private theorem rollupId_at {stored : List (RollupExitLeaf H)} {n : Nat}
    (ids : stored.map RollupExitLeaf.rollupId = List.range' 1 n)
    {call : RollupExitLeaf H} (positive : 0 < call.rollupId) :
    ∃ old, (stored ++ MerkleTree.emptyRollupLeaves call stored.length)[
        call.rollupId - 1]? = some old ∧ old.rollupId = call.rollupId := by
  have length : stored.length = n := by
    simpa using congrArg List.length ids
  have added : (MerkleTree.emptyRollupLeaves call stored.length).map
      RollupExitLeaf.rollupId =
      List.range' (1 + stored.length) (call.rollupId - stored.length) := by
    rw [MerkleTree.emptyRollupLeaves, map_map, ← map_add_range']
    apply map_congr_left
    intro index _
    exact Nat.add_comm index 1
  have places : (stored ++ MerkleTree.emptyRollupLeaves call
      stored.length).map RollupExitLeaf.rollupId =
      List.range' 1 (n + (call.rollupId - n)) := by
    rw [map_append, ids, added, length, range'_append_1]
  have here := congrArg (fun list => list[call.rollupId - 1]?) places
  simp only [getElem?_map] at here
  rw [getElem?_range' (by omega)] at here
  obtain ⟨old, found, same⟩ := Option.map_eq_some_iff.mp here
  exact ⟨old, found, by omega⟩

private theorem addRollupExitLeaf_returns {versions : List (Version H)}
    (positive : 0 < height) (small : height ≤ 64)
    (sameHeight : w.rollupsTree.height = height)
    (view : w.view dbTx = some t)
    (valid : Versions height t.rollupExit versions)
    (quiet : w.QuietLeaves dbTx) {call : RollupExitLeaf H}
    (fits : call.Fits height) :
    ∃ w', BridgeController.addRollupExitLeaf call dbTx w = .ok () w' := by
  obtain ⟨leaves, ids⟩ := valid.getLatestRollupExitLeaves
  obtain ⟨old, found, sameId⟩ := rollupId_at ids fits.positive
  have read : Storage.merkleTreeStore.getLatestRollupExitLeaves dbTx w =
      .ok t.getLatestRollupExitLeaves w.advance :=
    query_answers quiet.getLatestRollupExitLeaves view
      Tables.getLatestRollupExitLeaves
  have rooted : MerkleTree.buildMTRoot w.rollupsTree.height
      (nextRollupLeaves call t.getLatestRollupExitLeaves) =
      .ok (treeRoot height
        (nextRollupLeaves call t.getLatestRollupExitLeaves)) := by
    rw [sameHeight]
    apply MerkleTree.buildMTRoot_eq_treeRoot positive small
    rw [nextRollupLeaves_eq, leaves, length_putLeaf]
    exact Nat.max_le.mpr ⟨valid.latest_fits, fits.inside⟩
  have later : w.advance.view dbTx = some t := by
    cases dbTx <;> exact view
  have calm : w.advance.QuietLeaves dbTx :=
    ⟨quiet.getLatestRollupExitLeaves, quiet.isRollupExitRoot,
      quiet.addRollupExitLeaves⟩
  obtain ⟨w', stored⟩ := storeLeaves_returns later calm call.blockID rooted
  refine ⟨w', (bind_of_ok read).trans ?_⟩
  simp only [found, sameId, if_neg (Nat.pos_iff_ne_zero.mp fits.positive)]
  exact stored

def addCalls (dbTx : Querier) : List (RollupExitLeaf H) → Service H Unit
  | [] => pure ()
  | call :: rest => do
      BridgeController.addRollupExitLeaf call dbTx
      addCalls dbTx rest

private theorem addCalls_history
    (injective : Function.Injective2 (hash : H → H → H))
    (positive : 0 < height) (small : height ≤ 64)
    (calls : List (RollupExitLeaf H))
    (fits : ∀ call, call ∈ calls → call.Fits height)
    {versions : List (Version H)}
    (sameHeight : w.rollupsTree.height = height)
    (view : w.view dbTx = some t) (issued : t.Issued w.seqs)
    (valid : Versions height t.rollupExit versions)
    (quiet : w.QuietLeaves dbTx) :
    ∃ w' t' versions', addCalls dbTx calls w = .ok () w' ∧
      w'.view dbTx = some t' ∧ Versions height t'.rollupExit versions' ∧
      versions'.map Version.leaves =
        Dedup.run putCall [] (versions.map Version.leaves) calls := by
  induction calls generalizing w t versions with
  | nil => exact ⟨w, t, versions, rfl, view, valid, rfl⟩
  | cons call rest induction =>
    have callFits := fits call mem_cons_self
    obtain ⟨between, ran⟩ := addRollupExitLeaf_returns positive small
      sameHeight view valid quiet callFits
    have start : w.Carrying dbTx t w :=
      ⟨view, issued, .refl _, fun _ => rfl, rfl, rfl⟩
    obtain ⟨_, t', added, carrying⟩ :=
      (addRollupExitLeaf_carrying call).ok start ran
    rw [sameHeight] at added
    obtain ⟨versions', versionAdded, valid'⟩ := added.versionAdded small
      valid callFits.positive callFits.nonzero
    have calm : between.QuietLeaves dbTx := by
      constructor
      all_goals rw [World.Faulty, carrying.fault]
      · exact quiet.getLatestRollupExitLeaves
      · exact quiet.isRollupExitRoot
      · exact quiet.addRollupExitLeaves
    obtain ⟨w', t'', versions'', others, view'', valid'', history⟩ :=
      induction (fun call mem =>
        fits call (mem_cons_of_mem _ mem))
        (carrying.rollupsTree ▸ sameHeight) carrying.view carrying.issued
        valid' calm
    refine ⟨w', t'', versions'', (bind_of_ok ran).trans others, view'',
      valid'', ?_⟩
    rw [history, versionAdded.leaves_eq injective valid callFits.positive
      callFits.inside callFits.nonzero]
    rfl

end Calls

section LastWriter

variable [DecidableEq H] [Externals H] {height : Nat} {start : World H}
  {dbTx : Querier} {t : Tables H}

/-- The latest leaves are those of the last calls, and their root is
stored. -/
structure Tables.LastWins (height : Nat) (calls : List (RollupExitLeaf H))
    (t : Tables H) : Prop where
  leaves : t.getLatestRollupExitLeaves.map RollupExitLeaf.leaf =
    lastWritten calls
  rollupIds : t.getLatestRollupExitLeaves.map RollupExitLeaf.rollupId =
    List.range' 1 (largestID calls)
  stored : ∃ root,
    MerkleTree.buildMTRoot height (lastWritten calls) = .ok root ∧
      t.isRollupExitRoot root = true

/-- No call brings the leaves back to a vector that they had before and that
was given up in between. -/
def NeverReturns (calls : List (RollupExitLeaf H)) : Prop :=
  ∀ i j k, 0 < i → i ≤ j → j ≤ k → k ≤ calls.length →
    lastWritten (calls.take i) = lastWritten (calls.take k) →
    lastWritten (calls.take j) = lastWritten (calls.take k)

omit [DecidableEq H] in
theorem length_lastWritten (calls : List (RollupExitLeaf H)) :
    (lastWritten calls).length = largestID calls := by
  rw [lastWritten, length_map, length_range]

private theorem lastWins_iff {versions : List (Version H)}
    {calls : List (RollupExitLeaf H)} (positive : 0 < height)
    (small : height ≤ 64) (valid : Versions height t.rollupExit versions)
    (nonempty : versions ≠ []) :
    t.LastWins height calls ↔ latestLeaves versions = lastWritten calls := by
  obtain ⟨leaves, ids⟩ := valid.getLatestRollupExitLeaves
  constructor
  · intro wins
    rw [← leaves, wins.leaves]
  · intro same
    refine ⟨leaves.trans same, ?_, ?_⟩
    · rw [ids, same, length_lastWritten]
    · refine ⟨treeRoot height (lastWritten calls), ?_, ?_⟩
      · rw [← same]
        exact MerkleTree.buildMTRoot_eq_treeRoot positive small
          valid.latest_fits
      · apply valid.isRollupExitRoot_iff.mpr
        refine ⟨versions.getLast nonempty, getLast_mem nonempty, ?_⟩
        rw [← same, latestLeaves, getLast?_eq_some_getLast nonempty]
        rfl

/-- Calls of `addRollupExitLeaf` return, and after each of them the leaves of
the last calls are the latest ones, exactly if the leaves never return to a
vector that was given up. -/
theorem last_leaf_wins_iff
    (injective : Function.Injective2 (hash : H → H → H))
    (positive : 0 < height) (small : height ≤ 64)
    (sameHeight : start.rollupsTree.height = height)
    (view : start.view dbTx = some t) (issued : t.Issued start.seqs)
    (empty : t.rollupExit = []) (quiet : start.QuietLeaves dbTx)
    (calls : List (RollupExitLeaf H))
    (fits : ∀ call, call ∈ calls → call.Fits height) :
    (∀ count, 0 < count → count ≤ calls.length →
      ∃ w t', addCalls dbTx (calls.take count) start = .ok () w ∧
        w.view dbTx = some t' ∧ t'.LastWins height (calls.take count)) ↔
      NeverReturns calls := by
  have written : ∀ count, lastWritten (calls.take count) =
      Dedup.after putCall [] calls count := fun count =>
    lastWritten_eq_foldl fun call mem =>
      (fits call (mem_of_mem_take mem)).positive
  have none : Versions height t.rollupExit ([] : List (Version H)) := by
    rw [empty]
    exact versions_nil height
  have wins : ∀ count, 0 < count → count ≤ calls.length →
      ((∃ w t', addCalls dbTx (calls.take count) start = .ok () w ∧
        w.view dbTx = some t' ∧ t'.LastWins height (calls.take count)) ↔
        Dedup.current [] (Dedup.run putCall [] [] (calls.take count)) =
          Dedup.after putCall [] calls count) := by
    intro count positiveCount inside
    obtain ⟨w, t', versions, ran, view', valid, history⟩ :=
      addCalls_history injective positive small (calls.take count)
        (fun call mem => fits call (mem_of_mem_take mem))
        sameHeight view issued none quiet
    rw [map_nil] at history
    have nonempty : versions ≠ [] := by
      rintro rfl
      exact Dedup.run_take_ne_nil positiveCount inside history.symm
    rw [← history, ← latestLeaves_eq_current, ← written,
      ← lastWins_iff positive small valid nonempty]
    constructor
    · rintro ⟨other, found, ran', view'', lastWins⟩
      rw [ran] at ran'
      cases ran'
      rw [view'] at view''
      rw [Option.some.inj view'']
      exact lastWins
    · intro lastWins
      exact ⟨w, t', ran, view', lastWins⟩
  rw [NeverReturns]
  simp only [written]
  rw [← Dedup.NeverReturns, ← Dedup.follows_iff]
  exact forall_congr' fun count => forall_congr' fun positiveCount =>
    forall_congr' fun inside => wins count positiveCount inside

/-- A rollup that returns to its first leaf keeps the second one in the
table. -/
theorem returning_leaf_is_lost :
    ∃ (w : World Digest) (t : Tables Digest), addCalls .tx
          [sampleRollupLeaf 1 10, sampleRollupLeaf 1 20,
            sampleRollupLeaf 1 10] (World.start 2 [0]).opened =
        .ok () w ∧
      w.view .tx = some t ∧
      t.getLatestRollupExitLeaves.map RollupExitLeaf.leaf = [.bytes [20]] ∧
      lastWritten
          [sampleRollupLeaf 1 10, sampleRollupLeaf 1 20,
            sampleRollupLeaf 1 10] =
        [.bytes [10]] := by
  have returned : returns
      (addCalls .tx [sampleRollupLeaf 1 10, sampleRollupLeaf 1 20,
          sampleRollupLeaf 1 10])
      (fun _ (w : World Digest) => w.dbTx.any fun t =>
        t.getLatestRollupExitLeaves.map RollupExitLeaf.leaf == [.bytes [20]])
      (World.start 2 [0]).opened = true := by
    decide +kernel
  obtain ⟨_, w, ran, checked⟩ := exists_of_returns returned
  rw [Option.any_eq_true] at checked
  obtain ⟨t, view, latest⟩ := checked
  exact ⟨w, t, ran, view, beq_iff_eq.mp latest, by decide +kernel⟩

theorem two_rollups_never_return :
    NeverReturns [sampleRollupLeaf 1 10, sampleRollupLeaf 2 20] ∧
      ∃ w t', addCalls .tx
          [sampleRollupLeaf 1 10, sampleRollupLeaf 2 20]
          (World.start 2 [0]).opened = .ok () w ∧
        w.view .tx = some t' ∧
        t'.LastWins 2 [sampleRollupLeaf 1 10, sampleRollupLeaf 2 20] := by
  have never : NeverReturns
      [sampleRollupLeaf 1 10, sampleRollupLeaf 2 20] := by
    intro i j k positive early late inside same
    by_cases constant : j = k
    · rw [constant]
    · have bound : k ≤ 2 := inside
      have first : i = 1 := by omega
      have second : k = 2 := by omega
      subst first second
      exact absurd same (by decide +kernel)
  have issued : (Tables.empty : Tables Digest).Issued
      (World.start 2 [0] : World Digest).opened.seqs :=
    ⟨nofun, nofun, nofun, nofun⟩
  have fits : ∀ call : RollupExitLeaf Digest,
      call ∈ [sampleRollupLeaf 1 10, sampleRollupLeaf 2 20] →
      call.Fits 2 := by
    intro call mem
    rcases mem_pair.mp mem with rfl | rfl
    · exact ⟨by decide, by decide, sampleRollupLeaf_ne_zero 1 10⟩
    · exact ⟨by decide, by decide, sampleRollupLeaf_ne_zero 2 20⟩
  exact ⟨never, (last_leaf_wins_iff Digest.hash_injective (by decide)
    (by decide) rfl rfl issued rfl ⟨nofun, nofun, nofun⟩ _ fits).mpr never
      2 (by decide) (by decide)⟩

end LastWriter

end BridgeService
