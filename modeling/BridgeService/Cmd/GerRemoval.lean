import BridgeService.Bridgectrl.Runs
import BridgeService.Claimtxman.Status
import BridgeService.Storage.Removal

/-!
# Global exit roots that are removed

The entries of one L2 network are inserted and removed by its synchronizer, and
between these events its claim transaction manager marks L1 deposits as ready.
A removal clears the deposits that the removed entry covers and the entry
stored before it does not.  That entry may itself have been removed, and a
later entry may still cover what is cleared.  So a removal is right if, among
the ready deposits that the removed entry covers, those of the entry stored
before it are those of the other allowed entries.
-/

namespace BridgeService

open ErrorState Relation List

variable {H : Type} [DecidableEq H]

/-- What happens to the entries of one L2 network. -/
inductive GerEvent (H : Type)
  | insert (ger : GlobalExitRoot H)
  | updateStatus (mainnetExitRoot : H)
  | remove (ger : GlobalExitRoot H)

namespace GerEvent

def program (networkID : Nat) : GerEvent H → Service H Unit
  | .insert ger =>
    Storage.addGlobalExitRoot { ger with networkID := networkID } .pool
  | .updateStatus mainnetExitRoot =>
    Storage.updateL1DepositsStatus mainnetExitRoot networkID .pool
  | .remove ger =>
    Storage.addRemoveL2GER { ger with networkID := networkID } .pool

def Run (condition : GerEvent H → Tables H → Prop) (networkID : Nat) :
    World H → World H → Prop :=
  ReflTransGen fun w w' => ∃ event, condition event w.committed ∧
    event.program networkID w = .ok () w'

inductive Effect (networkID : Nat) (t : Tables H) :
    GerEvent H → Tables H → Prop
  | insert {ger : GlobalExitRoot H} (row : ExitRootRow H)
      (sameGER : row.globalExitRoot = ger.globalExitRoot)
      (sameRoots : row.exitRoots[0]? = ger.exitRoots[0]?)
      (onNetwork : row.networkID = networkID) :
      Effect networkID t (.insert ger)
        { t with exitRoot := t.exitRoot ++ [row] }
  | updateStatus {root : H} {t' : Tables H}
      (marked : t.readyL1 root networkID = .ok t') :
      Effect networkID t (.updateStatus root) t'
  | remove {ger : GlobalExitRoot H} {row previous : ExitRootRow H}
      {high : DepositRow H}
      (entry : t.exitRoot.find?
        (Storage.isEntryOf ger.globalExitRoot networkID) = some row)
      (before : t.previousEntry networkID row.id = some previous)
      (found : t.depositOfGER ger.globalExitRoot networkID = some high) :
      Effect networkID t (.remove ger)
        (t.removeGER { ger with networkID := networkID }
          (((t.depositOfGER previous.globalExitRoot networkID).map
            DepositRow.id).getD 0) high.id)

theorem effect {networkID : Nat} {event : GerEvent H} {w w' : World H}
    (ran : event.program networkID w = .ok () w') :
    Effect networkID w.committed event w'.committed := by
  cases event with
  | insert ger =>
    rw [program, Storage.addGlobalExitRoot] at ran
    split at ran
    · contradiction
    obtain ⟨t, seqs, t', view, inserted, rfl⟩ := Storage.exec_ok ran
    obtain rfl := Option.some.inj view
    dsimp only at inserted
    split at inserted
    · contradiction
    simp only [Storage.insertExitRoot, Except.ok.injEq,
      Prod.mk.injEq] at inserted
    obtain ⟨_, _, rfl⟩ := inserted
    exact .insert _ rfl (by simp) rfl
  | updateStatus root =>
    rw [program, Storage.updateL1DepositsStatus] at ran
    obtain ⟨t, t', view, marked, rfl⟩ := Storage.update_ok ran
    obtain rfl := Option.some.inj view
    exact .updateStatus marked
  | remove ger =>
    obtain ⟨t, row, previous, high, view, entry, before, found, after⟩ :=
      Storage.addRemoveL2GER_ok ran
    obtain rfl := Option.some.inj view
    rw [Option.some.inj after]
    exact .remove entry before found

end GerEvent

def DepositRow.ReadyFor (d : DepositRow H) (networkID : Nat) : Prop :=
  d.networkID = 0 ∧ d.destNet = networkID ∧ d.readyForClaim = true

instance (d : DepositRow H) (networkID : Nat) :
    Decidable (d.ReadyFor networkID) :=
  inferInstanceAs (Decidable (_ ∧ _ ∧ _))

section Coverage

variable [Externals H] {height networkID : Nat} {t t' : Tables H}

namespace ExitRootRow

variable {row : ExitRootRow H}

omit [DecidableEq H] in
theorem Covers.congr {depositCnt : Nat}
    (covers : row.Covers height t depositCnt)
    (leaves : t'.leavesOf 0 = t.leavesOf 0) :
    row.Covers height t' depositCnt := by
  obtain ⟨count, root, first, rootAt, bound⟩ := covers
  exact ⟨count, root, first, rootAt.congr leaves, bound⟩

omit [DecidableEq H] in
private theorem covers_iff {depositCnt : Nat} :
    row.Covers height t depositCnt ↔
      ∃ count, count < (t.leavesOf 0).length ∧ depositCnt ≤ count ∧
        row.exitRoots[0]? =
          some (treeRoot height ((t.leavesOf 0).take (count + 1))) := by
  constructor
  · rintro ⟨count, root, first, ⟨inside, rfl⟩, bound⟩
    exact ⟨count, inside, bound, first⟩
  · rintro ⟨count, inside, bound, first⟩
    exact ⟨count, _, first, ⟨inside, rfl⟩, bound⟩

instance (depositCnt : Nat) :
    Decidable (row.Covers height t depositCnt) :=
  decidable_of_iff' _ covers_iff

end ExitRootRow

namespace Tables

instance (ger : H) (depositCnt : Nat) :
    Decidable (t.GerCovers height networkID ger depositCnt) :=
  inferInstanceAs (Decidable (∃ row, row ∈ t.exitRoot ∧ _))

def AllowedCovers (height : Nat) (t : Tables H) (networkID depositCnt : Nat) :
    Prop :=
  ∃ row, row ∈ t.exitRoot ∧ row.networkID = networkID ∧
    row.allowed = true ∧ row.Covers height t depositCnt

def OtherCovers (height : Nat) (t : Tables H) (networkID : Nat) (ger : H)
    (depositCnt : Nat) : Prop :=
  ∃ row, row ∈ t.exitRoot ∧ row.networkID = networkID ∧
    row.allowed = true ∧ row.globalExitRoot ≠ ger ∧
    row.Covers height t depositCnt

instance (depositCnt : Nat) :
    Decidable (t.AllowedCovers height networkID depositCnt) :=
  inferInstanceAs (Decidable (∃ row, row ∈ t.exitRoot ∧ _))

instance (ger : H) (depositCnt : Nat) :
    Decidable (t.OtherCovers height networkID ger depositCnt) :=
  inferInstanceAs (Decidable (∃ row, row ∈ t.exitRoot ∧ _))

/-- Every L1 deposit for the network up to a count that is not ready yet is
covered by an allowed entry. -/
def UnreadyCovered (height : Nat) (t : Tables H) (networkID count : Nat) :
    Prop :=
  ∀ d, d ∈ t.deposit → d.networkID = 0 → d.destNet = networkID →
    d.readyForClaim = false → d.depositCnt ≤ count →
    t.AllowedCovers height networkID d.depositCnt

instance (count : Nat) :
    Decidable (t.UnreadyCovered height networkID count) :=
  inferInstanceAs (Decidable (∀ d, d ∈ t.deposit → _))

def ReadySound (height : Nat) (t : Tables H) (networkID : Nat) : Prop :=
  ∀ d, d ∈ t.deposit → d.ReadyFor networkID →
    t.AllowedCovers height networkID d.depositCnt

/-- Every L1 deposit for the network that was ready and is covered by an
allowed entry is still ready. -/
def KeepsClaimable (height : Nat) (t : Tables H) (networkID : Nat)
    (t' : Tables H) : Prop :=
  ∀ d, d ∈ t.deposit → d.ReadyFor networkID →
    t'.AllowedCovers height networkID d.depositCnt → d ∈ t'.deposit

/-- Of the ready deposits that the entries of a global exit root cover, those
that the entry stored before covers are covered by another allowed entry. -/
def PreviousIsAllowed (height : Nat) (t : Tables H) (networkID : Nat)
    (ger : H) : Prop :=
  ∀ row, row ∈ t.exitRoot.find? (Storage.isEntryOf ger networkID) →
    ∀ previous, previous ∈ t.previousEntry networkID row.id →
    ∀ d, d ∈ t.deposit → d.ReadyFor networkID →
      t.GerCovers height networkID ger d.depositCnt →
      t.GerCovers height networkID previous.globalExitRoot d.depositCnt →
      t.OtherCovers height networkID ger d.depositCnt

/-- Of the ready deposits that the entries of a global exit root cover, those
that another allowed entry covers are covered by the entry stored before. -/
def PreviousIsLargest (height : Nat) (t : Tables H) (networkID : Nat)
    (ger : H) : Prop :=
  ∀ row, row ∈ t.exitRoot.find? (Storage.isEntryOf ger networkID) →
    ∀ previous, previous ∈ t.previousEntry networkID row.id →
    ∀ d, d ∈ t.deposit → d.ReadyFor networkID →
      t.GerCovers height networkID ger d.depositCnt →
      t.OtherCovers height networkID ger d.depositCnt →
      t.GerCovers height networkID previous.globalExitRoot d.depositCnt

instance (ger : H) :
    Decidable (t.PreviousIsAllowed height networkID ger) :=
  inferInstanceAs (Decidable (∀ row, row ∈ _ → _))

instance (ger : H) :
    Decidable (t.PreviousIsLargest height networkID ger) :=
  inferInstanceAs (Decidable (∀ row, row ∈ _ → _))

end Tables

namespace GerEvent

/-- The mainnet exit root of an entry is determined by its global exit root,
and the status is updated for entries that are stored. -/
def Admitted (networkID : Nat) (event : GerEvent H) (t : Tables H) : Prop :=
  match event with
  | .insert ger => ∀ row, row ∈ t.exitRoot → row.networkID = networkID →
      row.globalExitRoot = ger.globalExitRoot →
      row.exitRoots[0]? = none ∨ ger.exitRoots[0]? = none ∨
        row.exitRoots[0]? = ger.exitRoots[0]?
  | .updateStatus root => ∃ row, row ∈ t.exitRoot ∧
      row.networkID = networkID ∧ row.exitRoots[0]? = some root
  | .remove _ => True

instance (event : GerEvent H) : Decidable (event.Admitted networkID t) :=
  match event with
  | .insert _ => inferInstanceAs (Decidable (∀ row, row ∈ t.exitRoot → _))
  | .updateStatus _ =>
    inferInstanceAs (Decidable (∃ row, row ∈ t.exitRoot ∧ _))
  | .remove _ => inferInstanceAs (Decidable True)

/-- An entry that is inserted is complete and new, and its mainnet exit root is
the root after some L1 deposit. -/
def Complete (height networkID : Nat) (event : GerEvent H) (t : Tables H) :
    Prop :=
  match event with
  | .insert ger => ger.exitRoots.length = 2 ∧
      (∀ row, row ∈ t.exitRoot → row.networkID = networkID →
        row.globalExitRoot ≠ ger.globalExitRoot) ∧
      ∃ count, count < (t.leavesOf 0).length ∧ ger.exitRoots[0]? =
        some (treeRoot height ((t.leavesOf 0).take (count + 1)))
  | _ => True

instance (event : GerEvent H) :
    Decidable (event.Complete height networkID t) :=
  match event with
  | .insert _ => inferInstanceAs (Decidable (_ ∧ _ ∧ _))
  | .updateStatus _ => inferInstanceAs (Decidable True)
  | .remove _ => inferInstanceAs (Decidable True)

/-- The deposits that an update of the status marks are covered by allowed
entries, and what the removed entry shares with the entry stored before it is
covered by another allowed entry. -/
def Safe (height networkID : Nat) (event : GerEvent H) (t : Tables H) : Prop :=
  match event with
  | .insert _ => True
  | .updateStatus root => ∀ count, count < (t.leavesOf 0).length →
      t.RootAt height 0 count root → t.UnreadyCovered height networkID count
  | .remove ger => t.PreviousIsAllowed height networkID ger.globalExitRoot

instance (event : GerEvent H) : Decidable (event.Safe height networkID t) :=
  match event with
  | .insert _ => inferInstanceAs (Decidable True)
  | .updateStatus _ => inferInstanceAs (Decidable (∀ count, count < _ → _))
  | .remove ger => inferInstanceAs
      (Decidable (t.PreviousIsAllowed height networkID ger.globalExitRoot))

end GerEvent

section Steps

omit [Externals H] in
theorem Tables.readyL1_ok {root : H}
    (marked : t.readyL1 root networkID = .ok t') :
    t.depositCountsByRoot root 0 = [] ∧ t' = t ∨
      ∃ limit, t.depositCountsByRoot root 0 = [limit] ∧
        t' = t.setReady true fun row => row.depositCnt ≤ limit &&
          (row.networkID == 0 && row.destNet == networkID) := by
  rw [Tables.readyL1, Storage.markReady.eq_def] at marked
  split at marked
  · next none => exact .inl ⟨none, (Except.ok.inj marked).symm⟩
  · next limit one =>
      exact .inr ⟨limit, one, (Except.ok.inj marked).symm⟩
  · contradiction

variable {event : GerEvent H}

theorem GerEvent.Effect.sameTrees (effect : Effect networkID t event t') :
    t.SameTrees t' := by
  cases effect with
  | insert => exact ⟨rfl, rfl, rfl⟩
  | updateStatus marked =>
    rcases Tables.readyL1_ok marked with ⟨_, rfl⟩ | ⟨_, _, rfl⟩
    · exact ⟨rfl, rfl, rfl⟩
    · exact ⟨Tables.entries_setReady _ _ _, rfl, rfl⟩
  | remove => exact ⟨Tables.entries_setReady _ _ _, rfl, rfl⟩

omit [DecidableEq H] in
private theorem determined_insert {ger : GlobalExitRoot H}
    {row : ExitRootRow H} (gers : t.GerTables height networkID)
    (admitted : (GerEvent.insert ger).Admitted networkID t)
    (sameGER : row.globalExitRoot = ger.globalExitRoot)
    (sameRoots : row.exitRoots[0]? = ger.exitRoots[0]?) :
    ∀ first second, first ∈ t.exitRoot ++ [row] →
      second ∈ t.exitRoot ++ [row] → first.networkID = networkID →
      second.networkID = networkID →
      first.globalExitRoot = second.globalExitRoot →
      ∀ root root', first.exitRoots[0]? = some root →
        second.exitRoots[0]? = some root' → root = root' := by
  have old : ∀ stored, stored ∈ t.exitRoot → stored.networkID = networkID →
      stored.globalExitRoot = row.globalExitRoot →
      ∀ root root', stored.exitRoots[0]? = some root →
        row.exitRoots[0]? = some root' → root = root' := by
    intro stored inside onNetwork same root root' first second
    rcases admitted stored inside onNetwork (same.trans sameGER) with
      none | none | equal
    · simp [none] at first
    · rw [sameRoots, none] at second
      contradiction
    · rw [← sameRoots, first, second] at equal
      exact Option.some.inj equal
  intro first second firstIn secondIn firstOn secondOn same root root'
    firstRoot secondRoot
  rw [mem_append, mem_singleton] at firstIn secondIn
  rcases firstIn with firstIn | rfl
  · rcases secondIn with secondIn | rfl
    · exact gers.determined first second firstIn secondIn firstOn secondOn
        same root root' firstRoot secondRoot
    · exact old first firstIn firstOn same root root' firstRoot secondRoot
  · rcases secondIn with secondIn | rfl
    · exact (old second secondIn secondOn same.symm root' root secondRoot
        firstRoot).symm
    · rw [firstRoot] at secondRoot
      exact Option.some.inj secondRoot

private theorem determined_forbidden {ger : GlobalExitRoot H}
    (gers : t.GerTables height networkID) :
    ∀ first second, first ∈ t.forbidden ger → second ∈ t.forbidden ger →
      first.networkID = networkID → second.networkID = networkID →
      first.globalExitRoot = second.globalExitRoot →
      ∀ root root', first.exitRoots[0]? = some root →
        second.exitRoots[0]? = some root' → root = root' := by
  have origin : ∀ row, row ∈ t.forbidden ger →
      ∃ old, old ∈ t.exitRoot ∧ old.networkID = row.networkID ∧
        old.globalExitRoot = row.globalExitRoot ∧
        old.exitRoots = row.exitRoots := by
    intro row inside
    obtain ⟨old, stored, ⟨rfl, _⟩ | ⟨rfl, _⟩⟩ :=
      Tables.mem_forbidden.mp inside
    · exact ⟨row, stored, rfl, rfl, rfl⟩
    · exact ⟨old, stored, rfl, rfl, rfl⟩
  intro first second firstIn secondIn firstOn secondOn same root root'
    firstRoot secondRoot
  obtain ⟨old, oldIn, oldOn, oldGER, oldRoots⟩ := origin first firstIn
  obtain ⟨old', oldIn', oldOn', oldGER', oldRoots'⟩ := origin second secondIn
  exact gers.determined old old' oldIn oldIn' (oldOn.trans firstOn)
    (oldOn'.trans secondOn) (oldGER.trans (same.trans oldGER'.symm)) root
    root' (oldRoots ▸ firstRoot) (oldRoots' ▸ secondRoot)

theorem GerEvent.Effect.gerTables (effect : Effect networkID t event t')
    (gers : t.GerTables height networkID)
    (admitted : event.Admitted networkID t) :
    t'.GerTables height networkID where
  tree := gers.tree.congr effect.sameTrees.entries effect.sameTrees.root
    effect.sameTrees.rht
  fits := by
    rw [Tables.leavesOf_congr effect.sameTrees.entries]
    exact gers.fits
  positive := by
    intro row stored
    have entry : Tables.depositEntry row ∈ t'.entries :=
      Tables.mem_entries.mpr ⟨row, stored, rfl⟩
    rw [effect.sameTrees.entries] at entry
    obtain ⟨old, oldIn, same⟩ := Tables.mem_entries.mp entry
    have positive := gers.positive old oldIn
    have sameID : old.id = row.id := congrArg Ledger.Entry.id same
    omega
  determined := by
    cases effect with
    | insert row sameGER sameRoots onNetwork =>
      exact determined_insert gers admitted sameGER sameRoots
    | updateStatus marked =>
      rcases Tables.readyL1_ok marked with ⟨_, rfl⟩ | ⟨_, _, rfl⟩
      · exact gers.determined
      · exact gers.determined
    | remove => exact determined_forbidden gers

theorem Tables.allowedCovers_removeGER {ger : GlobalExitRoot H}
    {low high depositCnt : Nat} (onNetwork : ger.networkID = networkID) :
    (t.removeGER ger low high).AllowedCovers height networkID depositCnt ↔
      t.OtherCovers height networkID ger.globalExitRoot depositCnt := by
  have leaves : (t.removeGER ger low high).leavesOf 0 = t.leavesOf 0 :=
    Tables.leavesOf_congr (Tables.entries_setReady _ _ _) 0
  constructor
  · rintro ⟨row, stored, sameNetwork, allowed, covers⟩
    obtain ⟨old, oldIn, ⟨rfl, other⟩ | ⟨rfl, _⟩⟩ :=
      Tables.mem_forbidden.mp stored
    · refine ⟨row, oldIn, sameNetwork, allowed, ?_, covers.congr leaves.symm⟩
      rintro same
      simp [Storage.isEntryOf, same, onNetwork, sameNetwork] at other
    · contradiction
  · rintro ⟨row, stored, sameNetwork, allowed, other, covers⟩
    refine ⟨row, Tables.mem_forbidden.mpr ⟨row, stored, .inl ⟨rfl, ?_⟩⟩,
      sameNetwork, allowed, covers.congr leaves⟩
    simp [Storage.isEntryOf, other]

section Removal

variable {ger : GlobalExitRoot H} {previous : ExitRootRow H}
  {high d : DepositRow H}

theorem Tables.GerTables.mem_removeGER (gers : t.GerTables height networkID)
    (injective : Function.Injective2 (hash : H → H → H))
    (nonzero : ∀ deposit : Deposit H, hashDeposit deposit ≠ hashZero)
    (found : t.depositOfGER ger.globalExitRoot networkID = some high)
    (stored : d ∈ t.deposit) (ready : d.ReadyFor networkID) :
    d ∈ (t.removeGER { ger with networkID := networkID }
        (((t.depositOfGER previous.globalExitRoot networkID).map
          DepositRow.id).getD 0) high.id).deposit ↔
      (t.GerCovers height networkID ger.globalExitRoot d.depositCnt →
        t.GerCovers height networkID previous.globalExitRoot
          d.depositCnt) := by
  obtain ⟨l1, destination, marked⟩ := ready
  have cleared := gers.cleared_iff injective nonzero
    previous.globalExitRoot found stored l1
  rw [Tables.removeGER, Tables.mem_setReady]
  constructor
  · rintro ⟨old, oldIn, same⟩ covered
    by_contra uncovered
    split at same
    · simp [same] at marked
    next kept =>
    subst same
    have range := cleared.mpr ⟨covered, uncovered⟩
    simp [range.1, range.2, l1, destination] at kept
  · intro shared
    refine ⟨d, stored, ?_⟩
    rw [if_neg]
    intro range
    simp only [Bool.and_eq_true, decide_eq_true_eq] at range
    obtain ⟨covered, uncovered⟩ := cleared.mp ⟨range.1.1.1, range.1.1.2⟩
    exact uncovered (shared covered)

omit [Externals H] in
theorem Tables.mem_of_mem_removeGER {low high : Nat}
    (stored : d ∈ (t.removeGER ger low high).deposit)
    (ready : d.readyForClaim = true) : d ∈ t.deposit := by
  rw [Tables.removeGER, Tables.mem_setReady] at stored
  obtain ⟨old, oldIn, same⟩ := stored
  split at same
  · simp [same] at ready
  · rw [same]
    exact oldIn

end Removal

theorem GerEvent.Effect.readySound
    (injective : Function.Injective2 (hash : H → H → H))
    (nonzero : ∀ deposit : Deposit H, hashDeposit deposit ≠ hashZero)
    (effect : Effect networkID t event t')
    (gers : t.GerTables height networkID)
    (safe : event.Safe height networkID t)
    (sound : t.ReadySound height networkID) :
    t'.ReadySound height networkID := by
  have leaves := Tables.leavesOf_congr effect.sameTrees.entries 0
  cases effect with
  | insert row sameGER sameRoots onNetwork =>
    intro d inside ready
    obtain ⟨entry, stored, here, allowed, covers⟩ := sound d inside ready
    exact ⟨entry, mem_append_left _ stored, here, allowed,
      covers.congr leaves⟩
  | @updateStatus root t' marked =>
    rcases Tables.readyL1_ok marked with ⟨_, rfl⟩ | ⟨limit, one, rfl⟩
    · exact sound
    intro d inside ready
    obtain ⟨old, oldIn, same⟩ := Tables.mem_setReady.mp inside
    have covered : t.AllowedCovers height networkID d.depositCnt := by
      split at same
      · next marked =>
        have rootAt : ∃ count, t.RootAt height 0 count root := by
          by_contra missing
          rw [gers.tree.depositCountsByRoot_nil (not_exists.mp missing)] at one
          contradiction
        obtain ⟨count, rootAt⟩ := rootAt
        rw [gers.tree.depositCountsByRoot_eq injective nonzero gers.fits
          rootAt] at one
        simp only [Bool.and_eq_true, decide_eq_true_eq, beq_iff_eq] at marked
        obtain ⟨low, l1, destination⟩ := marked
        rw [same]
        by_cases before : old.readyForClaim = true
        · exact sound old oldIn ⟨l1, destination, before⟩
        · exact safe count rootAt.1 rootAt old oldIn l1 destination
            (eq_false_of_ne_true before) (head_eq_of_cons_eq one ▸ low)
      · subst same
        exact sound d oldIn ready
    obtain ⟨entry, stored, here, allowed, covers⟩ := covered
    exact ⟨entry, stored, here, allowed, covers.congr leaves⟩
  | @remove ger row previous high entry before found =>
    intro d inside ready
    have was := Tables.mem_of_mem_removeGER inside ready.2.2
    rw [Tables.allowedCovers_removeGER rfl]
    obtain ⟨row', stored, here, allowed, covers⟩ := sound d was ready
    by_cases removed : row'.globalExitRoot = ger.globalExitRoot
    · have covered : t.GerCovers height networkID ger.globalExitRoot
          d.depositCnt :=
        ⟨row', stored, by simp [Storage.isEntryOf, removed, here], covers⟩
      have shared := (gers.mem_removeGER injective nonzero found was
        ready).mp inside covered
      exact safe row entry previous before d was ready covered shared
    · exact ⟨row', stored, here, allowed, removed, covers⟩

end Steps

namespace GerEvent

variable {start w w' : World H}

theorem Run.gerTables
    (run : Run (fun event t => event.Admitted networkID t) networkID start w)
    (gers : start.committed.GerTables height networkID) :
    w.committed.GerTables height networkID := by
  induction run with
  | refl => exact gers
  | tail _ step induction =>
    obtain ⟨event, admitted, ran⟩ := step
    exact (effect ran).gerTables induction admitted

/-- In a run of safe events, every L1 deposit that is ready is covered by an
allowed entry. -/
theorem ready_covered_of_safe_events
    (injective : Function.Injective2 (hash : H → H → H))
    (nonzero : ∀ deposit : Deposit H, hashDeposit deposit ≠ hashZero)
    (gers : start.committed.GerTables height networkID)
    (sound : start.committed.ReadySound height networkID)
    (run : Run (fun event t => event.Admitted networkID t ∧
      event.Safe height networkID t) networkID start w) :
    w.committed.ReadySound height networkID := by
  have both : w.committed.GerTables height networkID ∧
      w.committed.ReadySound height networkID := by
    induction run with
    | refl => exact ⟨gers, sound⟩
    | tail _ step induction =>
      obtain ⟨event, ⟨admitted, safe⟩, ran⟩ := step
      obtain ⟨gers, sound⟩ := induction
      exact ⟨(effect ran).gerTables gers admitted,
        (effect ran).readySound injective nonzero gers safe sound⟩
  exact both.2

/-- A removal keeps the deposits that are still covered if, among the ready
deposits that the removed entry covers, those that another allowed entry covers
are covered by the entry stored before. -/
theorem removal_keeps_claimable_iff {ger : GlobalExitRoot H}
    (injective : Function.Injective2 (hash : H → H → H))
    (nonzero : ∀ deposit : Deposit H, hashDeposit deposit ≠ hashZero)
    (gers : start.committed.GerTables height networkID)
    (run : Run (fun event t => event.Admitted networkID t) networkID start w)
    (ran : (GerEvent.remove ger).program networkID w = .ok () w') :
    w.committed.KeepsClaimable height networkID w'.committed ↔
      w.committed.PreviousIsLargest height networkID
        ger.globalExitRoot := by
  have now := run.gerTables gers
  have changed := effect ran
  generalize w.committed = t at now changed ⊢
  generalize w'.committed = t' at changed ⊢
  cases changed with
  | @remove _ row previous high entry before found =>
    rw [Tables.KeepsClaimable]
    simp only [Tables.allowedCovers_removeGER]
    constructor
    · intro keeps row' entry' previous' before' d stored ready covered other
      obtain rfl := Option.some.inj (entry.symm.trans entry')
      obtain rfl := Option.some.inj (before.symm.trans before')
      exact (now.mem_removeGER injective nonzero found stored ready).mp
        (keeps d stored ready other) covered
    · intro largest d stored ready other
      apply (now.mem_removeGER injective nonzero found stored ready).mpr
      intro covered
      exact largest row entry previous before d stored ready covered other

end GerEvent

end Coverage

namespace GerEvent

def runs (condition : GerEvent H → Tables H → Prop)
    [∀ event t, Decidable (condition event t)] (networkID : Nat)
    (check : World H → Bool) : List (GerEvent H) → World H → Bool
  | [], w => check w
  | event :: events, w =>
    decide (condition event w.committed) &&
      returns (event.program networkID)
        (fun _ next => runs condition networkID check events next) w

theorem run_of_runs {condition : GerEvent H → Tables H → Prop}
    [∀ event t, Decidable (condition event t)] {networkID : Nat}
    {check : World H → Bool} {events : List (GerEvent H)} {w : World H}
    (passed : runs condition networkID check events w = true) :
    ∃ w', Run condition networkID w w' ∧ check w' = true := by
  induction events generalizing w with
  | nil => exact ⟨w, .refl, passed⟩
  | cons event events induction =>
    obtain ⟨holds, returned⟩ := Bool.and_eq_true_iff.mp passed
    obtain ⟨_, next, ran, passed⟩ := exists_of_returns returned
    obtain ⟨w', run, checked⟩ := induction passed
    exact ⟨w', .head ⟨event, of_decide_eq_true holds, ran⟩ run, checked⟩

section Applies

/-- The mainnet exit root of an entry of the global exit root is the root after
a stored deposit of L1. -/
def OnL1 (networkID : Nat) (ger : H) (t : Tables H) : Prop :=
  ∃ deposit root entry, deposit ∈ t.deposit ∧ root ∈ t.root ∧
    entry ∈ t.exitRoot ∧ root.depositID = deposit.id ∧ root.network = 0 ∧
    entry.exitRoots[0]? = some root.root ∧
    Storage.isEntryOf ger networkID entry = true

/-- The entry is moreover not the first one of its network. -/
def Removable (networkID : Nat) (ger : H) (t : Tables H) : Prop :=
  OnL1 networkID ger t ∧ ∃ row previous,
    t.exitRoot.find? (Storage.isEntryOf ger networkID) = some row ∧
      previous ∈ t.exitRoot ∧ previous.networkID = networkID ∧
      previous.id < row.id

private theorem depositOfGER_isSome {t : Tables H} {ger : H}
    {networkID : Nat} :
    (∃ deposit, t.depositOfGER ger networkID = some deposit) ↔
      OnL1 networkID ger t := by
  rw [← Option.isSome_iff_exists, Tables.depositOfGER, find?_isSome, OnL1]
  simp only [any_eq_true, Bool.and_eq_true, beq_iff_eq, Storage.isEntryOf]
  constructor
  · rintro ⟨deposit, stored, root, rootIn, ⟨owner, l1⟩, entry, entryIn,
      ⟨mainnet, sameGER⟩, onNetwork⟩
    exact ⟨deposit, root, entry, stored, rootIn, entryIn, owner, l1, mainnet,
      sameGER, onNetwork⟩
  · rintro ⟨deposit, root, entry, stored, rootIn, entryIn, owner, l1,
      mainnet, sameGER, onNetwork⟩
    exact ⟨deposit, stored, root, rootIn, ⟨owner, l1⟩, entry, entryIn,
      ⟨mainnet, sameGER⟩, onNetwork⟩

/-- On a working database, whose ids are signed numbers of 64 bits, exactly
these global exit roots can be removed. -/
theorem removal_applies_iff {ger : GlobalExitRoot H} {networkID : Nat}
    {w : World H} (working : ∀ tick call, w.fault tick call .pool = false)
    (bigint : ∀ d, d ∈ w.committed.deposit → d.id < 2 ^ 63) :
    (∃ w', (remove ger).program networkID w = .ok () w') ↔
      Removable networkID ger.globalExitRoot w.committed := by
  constructor
  · rintro ⟨w', ran⟩
    obtain ⟨t, row, previous, high, view, entry, before, found, _⟩ :=
      Storage.addRemoveL2GER_ok ran
    obtain rfl := Option.some.inj view
    obtain ⟨stored, smaller⟩ :=
      mem_filter.mp (Rows.lastBy_eq_some before).1
    simp only [Bool.and_eq_true, beq_iff_eq, decide_eq_true_eq] at smaller
    exact ⟨depositOfGER_isSome.mp ⟨high, found⟩, row, previous, entry,
      stored, smaller⟩
  · rintro ⟨onL1, row, earlier, entry, stored, smaller⟩
    obtain ⟨high, found⟩ := depositOfGER_isSome.mpr onL1
    cases before : w.committed.previousEntry networkID row.id with
    | none =>
      have rejected := filter_eq_nil_iff.mp
        (Rows.lastBy_eq_none before) earlier stored
      simp [smaller] at rejected
    | some previous =>
      exact Storage.addRemoveL2GER_succeeds working rfl entry before found
        (bigint high (mem_of_find?_eq_some found))

end Applies

section Samples

def bridgedDeposit (depositCount : Nat) : DepositRow Digest :=
  Storage.depositRow (depositCount + 1)
    { (sampleDeposit 0 depositCount : Deposit Digest) with
      destinationNetwork := 1 }

def bridgedTables : Tables Digest :=
  ((Tables.empty.pushDeposit 2 (bridgedDeposit 0)).pushDeposit 2
    (bridgedDeposit 1)).pushDeposit 2 (bridgedDeposit 2)

def bridgedWorld : World Digest :=
  { (World.start 2 [0, 1] : World Digest) with committed := bridgedTables }

theorem bridgedTables_gerTables : bridgedTables.GerTables 2 1 where
  tree := by
    refine .pushDeposit (.pushDeposit (.pushDeposit
      (Tables.treeTables_empty 2) ?_ ?_) ?_ ?_) ?_ ?_
    · decide
    · decide
    · decide
    · decide
    · decide
    · decide
  fits := by decide
  positive := by decide
  determined := nofun

theorem bridgedTables_readySound : bridgedTables.ReadySound 2 1 := by
  rintro d stored ⟨_, _, ready⟩
  have none : ∀ d, d ∈ bridgedTables.deposit →
      d.readyForClaim = false := by
    decide
  rw [none d stored] at ready
  contradiction

def bridgedRoot (depositCount : Nat) : Digest :=
  treeRoot 2 ((bridgedTables.leavesOf 0).take (depositCount + 1))

def bridgedGer (depositCount : Nat) : GlobalExitRoot Digest :=
  { blockID := 0
    blockNumber := 0
    exitRoots := [bridgedRoot depositCount, hashZero]
    globalExitRoot := hash (bridgedRoot depositCount) hashZero
    networkID := 1
    id := 0 }

/-- The entry stored before the last one has been removed, so that its deposit
stays ready. -/
theorem ready_deposit_uncovered :
    ∃ w, Run (fun event t => event.Admitted 1 t ∧ event.Complete 2 1 t) 1
        bridgedWorld w ∧
      ¬w.committed.ReadySound 2 1 := by
  have passed : runs (fun event t => event.Admitted 1 t ∧
      event.Complete 2 1 t) 1
      (fun w => decide (∃ d, d ∈ w.committed.deposit ∧ d.ReadyFor 1 ∧
        ¬w.committed.AllowedCovers 2 1 d.depositCnt))
      [.insert (bridgedGer 0), .insert (bridgedGer 1),
        .remove (bridgedGer 1), .insert (bridgedGer 2),
        .updateStatus (bridgedRoot 2), .remove (bridgedGer 2)]
      bridgedWorld = true := by
    decide +kernel
  obtain ⟨w, run, checked⟩ := run_of_runs passed
  obtain ⟨d, stored, ready, uncovered⟩ := of_decide_eq_true checked
  exact ⟨w, run, fun sound => uncovered (sound d stored ready)⟩

theorem ready_covered_after_removal :
    ∃ w, Run (fun event t => event.Admitted 1 t ∧ event.Safe 2 1 t) 1
        bridgedWorld w ∧
      { bridgedDeposit 0 with readyForClaim := true } ∈
        w.committed.deposit ∧
      w.committed.ReadySound 2 1 := by
  have passed : runs (fun event t => event.Admitted 1 t ∧
      event.Safe 2 1 t) 1
      (fun w => decide ({ bridgedDeposit 0 with readyForClaim := true } ∈
        w.committed.deposit))
      [.insert (bridgedGer 0), .insert (bridgedGer 1),
        .updateStatus (bridgedRoot 1), .remove (bridgedGer 1)]
      bridgedWorld = true := by
    decide +kernel
  obtain ⟨w, run, checked⟩ := run_of_runs passed
  exact ⟨w, run, of_decide_eq_true checked,
    ready_covered_of_safe_events Digest.hash_injective
      Digest.hashDeposit_ne_zero bridgedTables_gerTables
      bridgedTables_readySound run⟩

def threeInsertions : List (GerEvent Digest) :=
  [.insert (bridgedGer 0), .insert (bridgedGer 1), .insert (bridgedGer 2),
    .updateStatus (bridgedRoot 2)]

/-- The second entry is removed, and its deposit is hidden although the third
one covers it. -/
theorem removal_hides_deposit :
    ∃ w w', Run (fun event t => event.Admitted 1 t ∧ event.Complete 2 1 t) 1
        bridgedWorld w ∧
      (GerEvent.remove (bridgedGer 1)).program 1 w = .ok () w' ∧
      ¬w.committed.KeepsClaimable 2 1 w'.committed := by
  have passed : runs (fun event t => event.Admitted 1 t ∧
      event.Complete 2 1 t) 1
      (fun w => returns ((GerEvent.remove (bridgedGer 1)).program 1)
        (fun _ w' => decide (∃ d, d ∈ w.committed.deposit ∧ d.ReadyFor 1 ∧
          w'.committed.AllowedCovers 2 1 d.depositCnt ∧
          d ∉ w'.committed.deposit)) w)
      threeInsertions bridgedWorld = true := by
    decide +kernel
  obtain ⟨w, run, returned⟩ := run_of_runs passed
  obtain ⟨_, w', ran, checked⟩ := exists_of_returns returned
  obtain ⟨d, stored, ready, covered, hidden⟩ := of_decide_eq_true checked
  exact ⟨w, w', run, ran, fun keeps => hidden (keeps d stored ready covered)⟩

theorem removal_keeps_deposits :
    ∃ w w', Run (fun event t => event.Admitted 1 t) 1 bridgedWorld w ∧
      (GerEvent.remove (bridgedGer 2)).program 1 w = .ok () w' ∧
      w.committed.KeepsClaimable 2 1 w'.committed := by
  have passed : runs (fun event t => event.Admitted 1 t) 1
      (fun w => returns ((GerEvent.remove (bridgedGer 2)).program 1)
        (fun _ _ => decide (w.committed.PreviousIsLargest 2 1
          (bridgedGer 2).globalExitRoot)) w)
      threeInsertions bridgedWorld = true := by
    decide +kernel
  obtain ⟨w, run, returned⟩ := run_of_runs passed
  obtain ⟨_, w', ran, checked⟩ := exists_of_returns returned
  exact ⟨w, w', run, ran, (removal_keeps_claimable_iff Digest.hash_injective
      Digest.hashDeposit_ne_zero bridgedTables_gerTables run ran).mpr
      (of_decide_eq_true checked)⟩

/-- The first global exit root of a network cannot be removed, although its L1
deposits are stored. -/
theorem first_ger_not_removed :
    ∃ w w', (insert (bridgedGer 1)).program 1 bridgedWorld = .ok () w ∧
      (remove (bridgedGer 1)).program 1 w = .error .database w' := by
  have ran : returns ((insert (bridgedGer 1)).program 1) (fun _ w =>
      raises ((remove (bridgedGer 1)).program 1)
        (fun err _ => err = .database) w) bridgedWorld = true := by
    decide +kernel
  obtain ⟨_, w, inserted, failed⟩ := exists_of_returns ran
  obtain ⟨err, w', removed, same⟩ := exists_of_raises failed
  refine ⟨w, w', inserted, ?_⟩
  rw [removed, of_decide_eq_true same]

def twoEntries : World Digest :=
  { bridgedWorld with
    committed :=
      { bridgedTables with
        exitRoot := [0, 1].map fun number =>
          { id := number + 1
            blockID := 1
            globalExitRoot := (bridgedGer number).globalExitRoot
            exitRoots := (bridgedGer number).exitRoots
            networkID := 1
            allowed := true } } }

theorem second_ger_removed :
    (∃ w', (remove (bridgedGer 1)).program 1 twoEntries = .ok () w') ∧
      Removable 1 (bridgedGer 1).globalExitRoot twoEntries.committed := by
  have ran : returns ((remove (bridgedGer 1)).program 1) (fun _ _ => true)
      twoEntries = true := by
    decide +kernel
  obtain ⟨_, w', removed, _⟩ := exists_of_returns ran
  exact ⟨⟨w', removed⟩, (removal_applies_iff (fun _ _ => rfl)
    (by decide)).mp ⟨w', removed⟩⟩

end Samples

end GerEvent

end BridgeService
