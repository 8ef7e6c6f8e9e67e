import BridgeService.Storage.Queries
import BridgeService.Storage.Roots

/-!
# Removal of a global exit root

`addRemoveL2GER` forbids the entries of a global exit root on a network and
clears the status of a range of L1 deposits.  The range ends with the deposit
whose root is the mainnet exit root of the removed entry, and begins after the
one of the entry stored before it.  With an injective hash the cleared deposits
are those that the removed entry covers and the entry before it does not.
-/

namespace BridgeService

open ErrorState Ledger List

variable {H : Type} [DecidableEq H]

namespace Tables

def depositOfGER (t : Tables H) (ger : H) (network : Nat) :
    Option (DepositRow H) :=
  t.deposit.find? fun deposit =>
    t.root.any fun root =>
      root.depositID == deposit.id && root.network == 0 &&
        t.exitRoot.any fun row =>
          row.exitRoots[0]? == some root.root &&
            row.globalExitRoot == ger && row.networkID == network

def forbidden (t : Tables H) (ger : GlobalExitRoot H) :
    List (ExitRootRow H) :=
  t.exitRoot.map fun row =>
    if Storage.isEntryOf ger.globalExitRoot ger.networkID row then
      { row with allowed := false }
    else
      row

/-- The tables after the removal of a global exit root, with the range of
cleared deposits. -/
def removeGER (t : Tables H) (ger : GlobalExitRoot H) (low high : Nat) :
    Tables H :=
  Tables.setReady
    { t with
      removeExitRoot := t.removeExitRoot ++
        [{ blockID := ger.blockID
           globalExitRoot := ger.globalExitRoot
           networkID := ger.networkID }]
      exitRoot := t.forbidden ger }
    false fun row => low < row.id && row.id ≤ high &&
      row.networkID == 0 && row.destNet == ger.networkID

def previousEntry (t : Tables H) (networkID id : Nat) :
    Option (ExitRootRow H) :=
  Rows.lastBy ExitRootRow.id (t.exitRoot.filter fun row =>
    row.networkID == networkID && row.id < id)

theorem mem_forbidden {t : Tables H} {ger : GlobalExitRoot H}
    {row : ExitRootRow H} :
    row ∈ t.forbidden ger ↔ ∃ old, old ∈ t.exitRoot ∧ (row = old ∧
          Storage.isEntryOf ger.globalExitRoot ger.networkID old = false ∨
        row = { old with allowed := false } ∧
          Storage.isEntryOf ger.globalExitRoot ger.networkID old =
            true) := by
  rw [forbidden, mem_map]
  constructor
  · rintro ⟨old, stored, rfl⟩
    refine ⟨old, stored, ?_⟩
    split
    · next entry => exact .inr ⟨rfl, entry⟩
    · next other => exact .inl ⟨rfl, by simpa using other⟩
  · rintro ⟨old, stored, ⟨rfl, other⟩ | ⟨rfl, entry⟩⟩
    · exact ⟨row, stored, by simp [other]⟩
    · exact ⟨old, stored, by simp [entry]⟩

theorem depositOfGER_forbidden (t : Tables H)
    (ger : GlobalExitRoot H) (rows : List (RemoveExitRootRow H)) (other : H)
    (network : Nat) :
    depositOfGER
        { t with
          removeExitRoot := rows
          exitRoot := t.forbidden ger } other network =
      t.depositOfGER other network := by
  have same : ∀ root : H, ((t.forbidden ger).any fun row =>
      row.exitRoots[0]? == some root && row.globalExitRoot == other &&
        row.networkID == network) =
      t.exitRoot.any fun row =>
        row.exitRoots[0]? == some root && row.globalExitRoot == other &&
          row.networkID == network := by
    intro root
    rw [forbidden, any_map]
    congr 1
    funext row
    simp only [Function.comp_apply]
    split <;> rfl
  rw [depositOfGER, depositOfGER]
  simp only [same]

end Tables

namespace Storage

variable {dbTx : Querier} {ger : GlobalExitRoot H} {w w' : World H}

private theorem getDepositCountByGER_eq (other : H) (network : Nat) :
    getDepositCountByGER other network dbTx =
      query .getDepositCountByGER dbTx fun t : Tables H =>
        match t.depositOfGER other network with
        | none => .error .storageNotFound
        | some deposit => .ok deposit.id :=
  rfl

private theorem depositIDByGER_view {other : H} {network missing : Nat}
    {t : Tables H}
    (noFault : w.fault w.tick .getDepositCountByGER dbTx = false)
    (view : w.view dbTx = some t) :
    depositIDByGER other network missing dbTx w =
      .ok (((t.depositOfGER other network).map DepositRow.id).getD missing)
        w.advance := by
  rw [depositIDByGER, handle, getDepositCountByGER_eq, query_view noFault view]
  cases t.depositOfGER other network with
  | none => rfl
  | some deposit => rfl

private theorem depositIDByGER_ok {other : H} {network missing id : Nat}
    (ran : depositIDByGER other network missing dbTx w = .ok id w') :
    ∃ t, w.view dbTx = some t ∧ w'.view dbTx = some t ∧
      id = ((t.depositOfGER other network).map DepositRow.id).getD
        missing := by
  cases fault : w.fault w.tick .getDepositCountByGER dbTx with
  | true =>
    rw [depositIDByGER, handle, getDepositCountByGER, query,
      exec_faulty fault] at ran
    contradiction
  | false =>
    cases view : w.view dbTx with
    | none =>
      simp only [depositIDByGER, handle, getDepositCountByGER, query, exec,
        fault, view] at ran
      contradiction
    | some t =>
      rw [depositIDByGER_view fault view] at ran
      injection ran with sameValue sameState
      refine ⟨t, rfl, ?_, sameValue.symm⟩
      rw [← sameState, w.view_advance dbTx, view]

private theorem lastBy_forbidden (t : Tables H) (ger : GlobalExitRoot H)
    (id : Nat) :
    (Rows.lastBy ExitRootRow.id ((t.forbidden ger).filter fun row =>
        row.networkID == ger.networkID && row.id < id)).map
      ExitRootRow.globalExitRoot =
    (t.previousEntry ger.networkID id).map ExitRootRow.globalExitRoot := by
  rw [Tables.forbidden, filter_map, Rows.lastBy_map, Option.map_map,
    Tables.previousEntry]
  · congr 1
    · funext row
      simp only [Function.comp_apply]
      split <;> rfl
    · congr 1
      apply filter_congr
      intro row _
      simp only [Function.comp_apply]
      split <;> rfl
  · intro row
    split <;> rfl

theorem addRemoveL2GER_ok
    (ran : addRemoveL2GER ger dbTx w = .ok () w') :
    ∃ t row prev high, w.view dbTx = some t ∧
      t.exitRoot.find? (isEntryOf ger.globalExitRoot ger.networkID) =
        some row ∧
      t.previousEntry ger.networkID row.id = some prev ∧
      t.depositOfGER ger.globalExitRoot ger.networkID = some high ∧
      w'.view dbTx = some (t.removeGER ger
        (((t.depositOfGER prev.globalExitRoot ger.networkID).map
          DepositRow.id).getD 0) high.id) := by
  obtain ⟨_, w₁, inserted, ran⟩ := bind_ok ran
  obtain ⟨gerID, w₂, updated, ran⟩ := bind_ok ran
  obtain ⟨prevGer, w₃, previous, ran⟩ := bind_ok ran
  obtain ⟨prevDepositID, w₄, prevFound, ran⟩ := bind_ok ran
  obtain ⟨currentDepositID, w₅, currentFound, cleared⟩ := bind_ok ran
  obtain ⟨t, t₁, view, changed, state₁⟩ := update_ok inserted
  have view₁ : w₁.view dbTx = some t₁ := by
    rw [state₁]
    exact World.view_write view w.seqs t₁
  obtain ⟨t₁', seqs, t₂, view₁', forbade, state₂⟩ := exec_ok updated
  rw [view₁] at view₁'
  have view₂ : w₂.view dbTx = some t₂ := by
    rw [state₂]
    exact World.view_write view₁ seqs t₂
  rw [← Option.some.inj view₁', ← Except.ok.inj changed] at forbade
  dsimp only at forbade
  split at forbade
  · contradiction
  next row entry =>
  simp only [Except.ok.injEq, Prod.mk.injEq] at forbade
  obtain ⟨sameID, _, sameTables⟩ := forbade
  obtain ⟨t₂', view₂', found, state₃⟩ := query_ok previous
  rw [view₂] at view₂'
  rw [← Option.some.inj view₂'] at found
  split at found
  · contradiction
  next prev last =>
  have view₃ : w₃.view dbTx = some t₂ := by
    rw [state₃, w₂.view_advance dbTx, view₂]
  rw [← sameTables] at last
  have sameGER := lastBy_forbidden t ger gerID
  rw [Tables.forbidden, last] at sameGER
  obtain ⟨old, before, sameGER⟩ := Option.map_eq_some_iff.mp sameGER.symm
  obtain ⟨t₃, view₃', view₄, prevID⟩ := depositIDByGER_ok prevFound
  obtain ⟨t₄, view₄', view₅, currentID⟩ := depositIDByGER_ok currentFound
  obtain ⟨t₅, t₆, view₅', flagged, state₆⟩ := update_ok cleared
  have same₃ : t₂ = t₃ := Option.some.inj (view₃.symm.trans view₃')
  have same₄ : t₃ = t₄ := Option.some.inj (view₄.symm.trans view₄')
  have same₅ : t₄ = t₅ := Option.some.inj (view₅.symm.trans view₅')
  subst same₃ same₄ same₅
  have deposits : ∀ other network,
      t₂.depositOfGER other network = t.depositOfGER other network := by
    intro other network
    rw [← sameTables]
    exact Tables.depositOfGER_forbidden t ger _ other network
  rw [deposits, ← Except.ok.inj found, ← sameGER] at prevID
  rw [deposits] at currentID
  split at flagged
  · contradiction
  next inRange =>
  cases high : t.depositOfGER ger.globalExitRoot ger.networkID with
  | none =>
    rw [high] at currentID
    simp only [Option.map_none, Option.getD_none] at currentID
    omega
  | some deposit =>
    rw [high] at currentID
    refine ⟨t, row, old, deposit, view, entry, sameID ▸ before, high, ?_⟩
    rw [state₆, World.view_write view₅', ← Except.ok.inj flagged, prevID,
      currentID, ← sameTables]
    rfl

theorem addRemoveL2GER_succeeds {t : Tables H}
    {row previous : ExitRootRow H} {high : DepositRow H}
    (working : ∀ tick call, w.fault tick call dbTx = false)
    (view : w.view dbTx = some t)
    (entry : t.exitRoot.find?
      (isEntryOf ger.globalExitRoot ger.networkID) = some row)
    (before : t.previousEntry ger.networkID row.id = some previous)
    (found : t.depositOfGER ger.globalExitRoot ger.networkID = some high)
    (bigint : high.id < 2 ^ 63) :
    ∃ w', addRemoveL2GER ger dbTx w = .ok () w' := by
  let t₁ : Tables H :=
    { t with
      removeExitRoot := t.removeExitRoot ++
        [{ blockID := ger.blockID
           globalExitRoot := ger.globalExitRoot
           networkID := ger.networkID }] }
  let t₂ : Tables H := { t₁ with exitRoot := t.forbidden ger }
  have kept : ∀ (w : World H) seqs t,
      (w.advance.write dbTx seqs t).fault = w.fault := by
    cases dbTx with
    | pool => exact fun _ _ _ => rfl
    | tx => exact fun _ _ _ => rfl
  have inserted : insertRemoveGER ger dbTx w =
      .ok () (w.advance.write dbTx w.seqs t₁) := by
    rw [insertRemoveGER, update, exec_view (working _ _) view]
    rfl
  generalize entered : w.advance.write dbTx w.seqs t₁ = w₁ at inserted
  have view₁ : w₁.view dbTx = some t₁ := entered ▸ World.view_write view _ _
  have working₁ : w₁.fault = w.fault := entered ▸ kept w _ _
  have forbade : updateGERStatus ger dbTx w₁ =
      .ok row.id (w₁.advance.write dbTx w₁.seqs t₂) := by
    rw [updateGERStatus, exec_view (by rw [working₁, working]) view₁]
    simp only [t₁, entry]
    rfl
  generalize changed : w₁.advance.write dbTx w₁.seqs t₂ = w₂ at forbade
  have view₂ : w₂.view dbTx = some t₂ := changed ▸ World.view_write view₁ _ _
  have working₂ : w₂.fault = w.fault := changed ▸ (kept w₁ _ _).trans working₁
  have sameGER := lastBy_forbidden t ger row.id
  rw [before, Option.map_some] at sameGER
  obtain ⟨last, lastBefore, _⟩ := Option.map_eq_some_iff.mp sameGER
  have asked : getPreviousGER row.id ger.networkID dbTx w₂ =
      .ok last.globalExitRoot w₂.advance := by
    rw [getPreviousGER, query_view (by rw [working₂, working]) view₂]
    simp only [t₂, lastBefore]
  have current : t₂.depositOfGER ger.globalExitRoot ger.networkID =
      some high := (t.depositOfGER_forbidden ger _ _ _).trans found
  have view₃ : w₂.advance.view dbTx = some t₂ :=
    (w₂.view_advance dbTx).trans view₂
  have view₄ := (w₂.advance.view_advance dbTx).trans view₃
  have view₅ := (w₂.advance.advance.view_advance dbTx).trans view₄
  have quiet : ∀ tick call, w₂.fault tick call dbTx = false := by
    rw [working₂]
    exact working
  rw [addRemoveL2GER, bind_of_ok inserted, bind_of_ok forbade,
    bind_of_ok asked,
    bind_of_ok (depositIDByGER_view (w := w₂.advance) (quiet _ _) view₃),
    bind_of_ok (depositIDByGER_view (w := w₂.advance.advance) (quiet _ _)
      view₄),
    current, updateDepositsFlag, update,
    exec_view (w := w₂.advance.advance.advance) (quiet _ _) view₅]
  simp only [Option.map_some, Option.getD_some,
    if_neg (Nat.not_le_of_lt bigint)]
  exact ⟨_, rfl⟩

end Storage

section Coverage

variable [Externals H]

/-- The mainnet exit root of the entry is the root of L1 after the deposit with
this count or a later one. -/
def ExitRootRow.Covers (height : Nat) (t : Tables H) (row : ExitRootRow H)
    (depositCnt : Nat) : Prop :=
  ∃ count root, row.exitRoots[0]? = some root ∧
    t.RootAt height 0 count root ∧ depositCnt ≤ count

namespace Tables

/-- Some entry of the global exit root on the network covers the count. -/
def GerCovers (height : Nat) (t : Tables H) (networkID : Nat) (ger : H)
    (depositCnt : Nat) : Prop :=
  ∃ row, row ∈ t.exitRoot ∧ Storage.isEntryOf ger networkID row = true ∧
    row.Covers height t depositCnt

/-- The exit tree of L1 is stored, and the mainnet exit root of an entry of the
network is determined by its global exit root. -/
structure GerTables (height networkID : Nat) (t : Tables H) : Prop where
  tree : t.TreeTables height
  fits : (t.leavesOf 0).length ≤ 2 ^ height
  positive : ∀ row, row ∈ t.deposit → 0 < row.id
  determined : ∀ first second, first ∈ t.exitRoot → second ∈ t.exitRoot →
    first.networkID = networkID → second.networkID = networkID →
    first.globalExitRoot = second.globalExitRoot →
    ∀ root root', first.exitRoots[0]? = some root →
      second.exitRoots[0]? = some root' → root = root'

variable {height networkID : Nat} {t : Tables H} {ger : H}

theorem GerTables.depositOfGER_some (gers : t.GerTables height networkID)
    (injective : Function.Injective2 (hash : H → H → H))
    (nonzero : ∀ deposit : Deposit H, hashDeposit deposit ≠ hashZero)
    {d : DepositRow H} (found : t.depositOfGER ger networkID = some d) :
    d ∈ t.deposit ∧ d.networkID = 0 ∧
      ∀ depositCnt, t.GerCovers height networkID ger depositCnt ↔
        depositCnt ≤ d.depositCnt := by
  have stored := mem_of_find?_eq_some found
  have matching := find?_some found
  simp only [any_eq_true, Bool.and_eq_true, beq_iff_eq] at matching
  obtain ⟨root, rootIn, ⟨owner, onL1⟩, row, rowIn,
    ⟨mainnet, sameGER⟩, onNetwork⟩ := matching
  obtain ⟨network, value⟩ := gers.tree.root_of_deposit stored rootIn owner.symm
  have l1 : d.networkID = 0 := network.symm.trans onL1
  have rootAt : t.RootAt height 0 d.depositCnt root.root := by
    rw [l1] at value
    refine ⟨?_, value⟩
    rw [← l1]
    exact gers.tree.count_lt stored
  refine ⟨stored, l1, fun depositCnt => ⟨?_, ?_⟩⟩
  · rintro ⟨other, otherIn, entry, count, mainnet', first, otherAt, bound⟩
    simp only [Storage.isEntryOf, Bool.and_eq_true, beq_iff_eq] at entry
    have same := gers.determined other row otherIn rowIn entry.2 onNetwork
      (entry.1.trans sameGER.symm) mainnet' root.root first mainnet
    rw [same] at otherAt
    rw [← RootAt.unique injective nonzero gers.fits otherAt rootAt]
    exact bound
  · intro bound
    refine ⟨row, rowIn, ?_, d.depositCnt, root.root, mainnet, rootAt, bound⟩
    simp [Storage.isEntryOf, sameGER, onNetwork]

theorem GerTables.depositOfGER_none (gers : t.GerTables height networkID)
    (missing : t.depositOfGER ger networkID = none) (depositCnt : Nat) :
    ¬t.GerCovers height networkID ger depositCnt := by
  rintro ⟨row, rowIn, entry, count, root, mainnet, rootAt, _⟩
  obtain ⟨d, stored, l1, rfl⟩ := gers.tree.exists_deposit rootAt.1
  have rejected := find?_eq_none.mp missing d stored
  have own := gers.tree.roots_of_deposit stored
  rw [l1, ← rootAt.2] at own
  have rootIn : { root := root, depositID := d.id, network := 0 } ∈
      t.root.filter fun other => other.depositID == d.id := by
    rw [own]
    exact mem_singleton_self _
  simp only [Storage.isEntryOf, Bool.and_eq_true, beq_iff_eq] at entry
  apply rejected
  simp only [any_eq_true, Bool.and_eq_true, beq_iff_eq]
  exact ⟨_, (mem_filter.mp rootIn).1, ⟨rfl, rfl⟩, row, rowIn,
    ⟨mainnet, entry.1⟩, entry.2⟩

theorem GerTables.cleared_iff (gers : t.GerTables height networkID)
    (injective : Function.Injective2 (hash : H → H → H))
    (nonzero : ∀ deposit : Deposit H, hashDeposit deposit ≠ hashZero)
    (previous : H) {high d : DepositRow H}
    (found : t.depositOfGER ger networkID = some high)
    (stored : d ∈ t.deposit) (l1 : d.networkID = 0) :
    (((t.depositOfGER previous networkID).map DepositRow.id).getD 0 < d.id ∧
        d.id ≤ high.id) ↔
      t.GerCovers height networkID ger d.depositCnt ∧
        ¬t.GerCovers height networkID previous d.depositCnt := by
  have ordered : ∀ first second : DepositRow H, first ∈ t.deposit →
      second ∈ t.deposit → first.networkID = second.networkID →
      (first.id ≤ second.id ↔ first.depositCnt ≤ second.depositCnt) :=
    fun first second firstIn secondIn same =>
      gers.tree.ledger.id_le_iff
        (mem_entries.mpr ⟨first, firstIn, rfl⟩)
        (mem_entries.mpr ⟨second, secondIn, rfl⟩) same
  obtain ⟨highIn, highL1, covered⟩ :=
    gers.depositOfGER_some injective nonzero found
  rw [covered, ordered d high stored highIn (l1.trans highL1.symm)]
  cases before : t.depositOfGER previous networkID with
  | none =>
    have uncovered := gers.depositOfGER_none before d.depositCnt
    have positive := gers.positive d stored
    simp [uncovered, positive]
  | some low =>
    obtain ⟨lowIn, lowL1, lowCovered⟩ :=
      gers.depositOfGER_some injective nonzero before
    have order := ordered d low stored lowIn (l1.trans lowL1.symm)
    simp only [Option.map_some, Option.getD_some, lowCovered]
    omega

end Tables

end Coverage

end BridgeService
