import BridgeService.Lib.Trace
import BridgeService.Synchronizer.Events

/-!
# Completion of the entries of L2 networks

A global exit root is stored once by the synchronizer of L1, with its exit
roots, and once by the synchronizer of every L2 network on which it is inserted,
with the exit roots of the L1 entry if that one is stored.  The L1 transaction
completes the entries that it finds.  Each transaction reads the committed
entries first, then writes, and then commits, and the transactions interleave.
-/

namespace BridgeService

open Trace List

variable {H : Type}

/-- What a transaction writes after it has read the committed entries. -/
structure GerPlan (H : Type) where
  updates : List (GlobalExitRoot H)
  added : GlobalExitRoot H
deriving DecidableEq

def exitRootRow (id : Nat) (ger : GlobalExitRoot H) : ExitRootRow H :=
  { id := id
    blockID := ger.blockID
    globalExitRoot := ger.globalExitRoot
    exitRoots := ger.exitRoots
    networkID := ger.networkID
    allowed := true }

/-- The entries after the writes of a transaction. -/
def Tables.publish (t : Tables H) (updates : List (GlobalExitRoot H))
    (row : ExitRootRow H) : Tables H :=
  let t := updates.foldl Tables.updateL2GER t
  { t with exitRoot := t.exitRoot ++ [row] }

section Reads

variable [DecidableEq H]

/-- The read of `processGlobalExitRoot`: the entries of L2 networks that wait
for an L1 entry, or the L1 entry of an L2 entry. -/
def Tables.gerPlan (t : Tables H) (ger : GlobalExitRoot H) :
    Except Err (GerPlan H) :=
  if ger.exitRoots.length = 2 then
    .ok
      { updates := (t.getL2ExitRootsByGER ger.globalExitRoot).map fun row =>
          { row with exitRoots := ger.exitRoots }
        added := ger }
  else
    match t.getL1ExitRootByGER ger.globalExitRoot with
    | .ok l1GER =>
      .ok
        { updates := []
          added := { ger with exitRoots := l1GER.exitRoots } }
    | .error .storageNotFound =>
      .ok
        { updates := []
          added := ger }
    | .error err => .error err

/-- The handler of a global exit root reads and writes in this way. -/
theorem Applies.eq_publish [Externals H] {ctx : BlockContext H}
    {t t' : Tables H} {ger : GlobalExitRoot H}
    (applies : Applies ctx t (.globalExitRoot ger) t') :
    ∃ plan id,
      ctx.committed.gerPlan
          { ger with
            blockID := ctx.blockID
            networkID := ctx.networkID } = .ok plan ∧
        t' = t.publish plan.updates (exitRootRow id plan.added) := by
  cases applies with
  | globalExitRootL1 id two fresh =>
    refine ⟨_, id, if_pos two, ?_⟩
    simp only [Tables.publish, foldl_map]
    rfl
  | globalExitRootL2 id none exitRoots known fresh =>
    have notTwo : ger.exitRoots.length ≠ 2 := by omega
    have empty := length_eq_zero_iff.mp none
    rcases known with ⟨l1GER, found, rfl⟩ | ⟨missing, rfl⟩
    · exact ⟨_, id, by rw [Tables.gerPlan, if_neg notTwo, found], rfl⟩
    · refine ⟨_, id, by rw [Tables.gerPlan, if_neg notTwo, missing], ?_⟩
      rw [exitRootRow, empty]
      rfl

end Reads

/-- A global exit root that is emitted on L1 and inserted on L2 networks, in
one block of each network. -/
structure GerInsertion (H : Type) where
  globalExitRoot : H
  mainnetExitRoot : H
  rollupExitRoot : H
  blockID : Nat → Nat
  positive : ∀ networkID, 0 < blockID networkID

namespace GerInsertion

def exitRoots (g : GerInsertion H) : List H :=
  [g.mainnetExitRoot, g.rollupExitRoot]

/-- The event of a network; only the one of L1 has exit roots. -/
def event (g : GerInsertion H) (networkID : Nat) : GlobalExitRoot H :=
  { blockID := g.blockID networkID
    blockNumber := 0
    exitRoots := if networkID = 0 then g.exitRoots else []
    globalExitRoot := g.globalExitRoot
    networkID := networkID
    id := 0 }

end GerInsertion

inductive GerPhase (H : Type)
  | idle
  | planned (plan : GerPlan H)
  | written (updates : List (GlobalExitRoot H)) (row : ExitRootRow H)
  | committed

inductive GerAction
  | read (networkID : Nat)
  | write (networkID : Nat)
  | commit (networkID : Nat)
deriving DecidableEq

structure GerState (H : Type) where
  committed : Tables H
  sequence : Nat
  phase : Nat → GerPhase H

namespace GerState

def start (t : Tables H) (sequence : Nat) : GerState H :=
  { committed := t
    sequence := sequence
    phase := fun _ => .idle }

section Actions

variable [DecidableEq H]

/-- One action of a transaction; there is no next state if the transaction is
not at this point, or if a statement fails. -/
def step (g : GerInsertion H) (s : GerState H) :
    GerAction → Option (GerState H)
  | .read networkID =>
    match s.phase networkID with
    | .idle =>
      match s.committed.gerPlan (g.event networkID) with
      | .ok plan =>
        some
          { s with
            phase := Function.update s.phase networkID (.planned plan) }
      | .error _ => none
    | _ => none
  | .write networkID =>
    match s.phase networkID with
    | .planned plan =>
      if Storage.exitRootConflict s.committed plan.added.blockID
          plan.added.globalExitRoot plan.added.networkID then
        none
      else
        some
          { s with
            sequence := s.sequence + 1
            phase := Function.update s.phase networkID
              (.written plan.updates
                (exitRootRow (s.sequence + 1) plan.added)) }
    | _ => none
  | .commit networkID =>
    match s.phase networkID with
    | .written updates row =>
      some
        { s with
          committed := s.committed.publish updates row
          phase := Function.update s.phase networkID .committed }
    | _ => none

def run (g : GerInsertion H) (trace : List GerAction) (s : GerState H) :
    Option (GerState H) :=
  trace.foldlM (step g) s

end Actions

/-- The exit roots are those of L1 if a condition holds, and else missing. -/
def CompleteIf (g : GerInsertion H) (condition : Prop) (exitRoots : List H) :
    Prop :=
  (condition → exitRoots = g.exitRoots) ∧ (¬condition → exitRoots = [])

/-- The L1 entry is committed when the transaction reads it. -/
def Known (trace : List GerAction) (networkID : Nat) : Prop :=
  networkID = 0 ∨ Precedes trace (.commit 0) (.read networkID)

/-- The entry is committed when the L1 transaction looks for it. -/
def Seen (trace : List GerAction) (networkID : Nat) : Prop :=
  Precedes trace (.commit networkID) (.read 0)

structure Covers (g : GerInsertion H) (trace : List GerAction) (t : Tables H)
    (networkID : Nat) (updates : List (GlobalExitRoot H)) : Prop where
  exitRoots : ∀ ger, ger ∈ updates → ger.exitRoots = g.exitRoots
  stored : ∀ ger, ger ∈ updates → ∃ row, row ∈ t.exitRoot ∧ row.id = ger.id
  exact : ∀ row, row ∈ t.exitRoot → ((∃ ger, ger ∈ updates ∧ ger.id = row.id) ↔
      networkID = 0 ∧ row.globalExitRoot = g.globalExitRoot ∧
        row.networkID ≠ 0 ∧ Seen trace row.networkID)

/-- The L1 entry was committed before the entry was read, or completes it. -/
def Filled (trace : List GerAction) (networkID : Nat) : Prop :=
  Known trace networkID ∨ Seen trace networkID ∧ .commit 0 ∈ trace

def Adds (g : GerInsertion H) (trace : List GerAction) (networkID : Nat)
    (added : GlobalExitRoot H) : Prop :=
  ∃ exitRoots, added = { g.event networkID with exitRoots := exitRoots } ∧
    CompleteIf g (Known trace networkID) exitRoots

def PlanFits (g : GerInsertion H) (trace : List GerAction) (t : Tables H)
    (networkID : Nat) (plan : GerPlan H) : Prop :=
  Adds g trace networkID plan.added ∧ Covers g trace t networkID plan.updates

def RowFits (g : GerInsertion H) (trace : List GerAction) (t : Tables H)
    (networkID : Nat) (updates : List (GlobalExitRoot H))
    (row : ExitRootRow H) : Prop :=
  (∃ added, row = exitRootRow row.id added ∧ Adds g trace networkID added) ∧
    Covers g trace t networkID updates

/-- The id of an entry was issued and is not used by another one. -/
def Reserved (s : GerState H) (row : ExitRootRow H) : Prop :=
  row.id ≤ s.sequence ∧
    ∀ other, other ∈ s.committed.exitRoot → other.id ≠ row.id

structure Inv (g : GerInsertion H) (trace : List GerAction)
    (s : GerState H) : Prop where
  reads : ∀ networkID, .read networkID ∈ trace ↔ s.phase networkID ≠ .idle
  commits : ∀ networkID, .commit networkID ∈ trace ↔
    s.phase networkID = .committed
  ids : (s.committed.exitRoot.map ExitRootRow.id).Nodup
  issued : ∀ row, row ∈ s.committed.exitRoot → row.id ≤ s.sequence
  rows : ∀ row, row ∈ s.committed.exitRoot →
    row.globalExitRoot = g.globalExitRoot →
    s.phase row.networkID = .committed ∧ row.allowed = true ∧ 0 < row.blockID ∧
      CompleteIf g (Filled trace row.networkID) row.exitRoots
  present : ∀ networkID, s.phase networkID = .committed →
    ∃ row, row ∈ s.committed.exitRoot ∧
      row.globalExitRoot = g.globalExitRoot ∧ row.networkID = networkID
  planned : ∀ networkID plan, s.phase networkID = .planned plan →
    PlanFits g trace s.committed networkID plan
  written : ∀ networkID updates row, s.phase networkID = .written updates row →
    RowFits g trace s.committed networkID updates row
  reserved : ∀ networkID updates row,
    s.phase networkID = .written updates row → s.Reserved row
  unique : ∀ networkID updates row other updates' row',
    s.phase networkID = .written updates row →
    s.phase other = .written updates' row' → row'.id = row.id →
    other = networkID

theorem inv_start {g : GerInsertion H} {t : Tables H} {sequence : Nat}
    (ids : (t.exitRoot.map ExitRootRow.id).Nodup)
    (issued : ∀ row, row ∈ t.exitRoot → row.id ≤ sequence)
    (new : ∀ row, row ∈ t.exitRoot → row.globalExitRoot ≠ g.globalExitRoot) :
    Inv g [] (start t sequence) where
  reads := by simp [start]
  commits := by simp [start]
  ids := ids
  issued := issued
  rows := fun row stored same => absurd same (new row stored)
  present := nofun
  planned := nofun
  written := nofun
  reserved := nofun
  unique := nofun

section Traces

variable {g : GerInsertion H} {trace : List GerAction} {action : GerAction}
  {networkID other : Nat}

theorem CompleteIf.congr {condition condition' : Prop} {exitRoots : List H}
    (complete : CompleteIf g condition exitRoots)
    (same : condition' ↔ condition) : CompleteIf g condition' exitRoots := by
  rw [CompleteIf, same]
  exact complete

theorem Adds.congr {added : GlobalExitRoot H} {trace' : List GerAction}
    (adds : Adds g trace networkID added)
    (same : Known trace' networkID ↔ Known trace networkID) :
    Adds g trace' networkID added := by
  obtain ⟨exitRoots, added, complete⟩ := adds
  exact ⟨exitRoots, added, complete.congr same⟩

theorem known_snoc_of_ne (different : action ≠ .read other) :
    Known (trace ++ [action]) other ↔ Known trace other := by
  rw [Known, Known, precedes_snoc_of_ne (Ne.symm different)]

theorem seen_snoc_of_ne (different : action ≠ .read 0) :
    Seen (trace ++ [action]) other ↔ Seen trace other := by
  rw [Seen, Seen, precedes_snoc_of_ne (Ne.symm different)]

theorem Covers.congr {t t' : Tables H} {updates : List (GlobalExitRoot H)}
    (covers : Covers g trace t networkID updates)
    (rows : t'.exitRoot = t.exitRoot)
    (seen : networkID = 0 → ∀ other,
      Seen (trace ++ [action]) other ↔ Seen trace other) :
    Covers g (trace ++ [action]) t' networkID updates where
  exitRoots := covers.exitRoots
  stored := by
    rw [rows]
    exact covers.stored
  exact := by
    rw [rows]
    intro row inside
    rw [covers.exact row inside]
    constructor
    · rintro ⟨l1, same, notL1, before⟩
      exact ⟨l1, same, notL1, (seen l1 _).mpr before⟩
    · rintro ⟨l1, same, notL1, before⟩
      exact ⟨l1, same, notL1, (seen l1 _).mp before⟩

end Traces

section Steps

variable {g : GerInsertion H} {trace : List GerAction} {s s' : GerState H}
  {networkID : Nat}

private structure Moved (s s' : GerState H) (networkID : Nat)
    (phase : GerPhase H) : Prop where
  here : s'.phase networkID = phase
  others : ∀ other, other ≠ networkID → s'.phase other = s.phase other

private theorem moved_update (s : GerState H) (networkID : Nat)
    (phase : GerPhase H) (t : Tables H) (sequence : Nat) :
    Moved s
      { committed := t
        sequence := sequence
        phase := Function.update s.phase networkID phase }
      networkID phase where
  here := Function.update_self _ _ _
  others := fun _ different => Function.update_of_ne different _ _

private theorem Moved.split {phase : GerPhase H}
    (moved : Moved s s' networkID phase) {other : Nat} {later : GerPhase H}
    (reached : s'.phase other = later) :
    other = networkID ∧ phase = later ∨
      other ≠ networkID ∧ s.phase other = later := by
  by_cases same : other = networkID
  · exact .inl ⟨same, by rw [← reached, same, moved.here]⟩
  · exact .inr ⟨same, by rw [← reached, moved.others other same]⟩

section Moves

variable {action : GerAction} {phase : GerPhase H} (inv : Inv g trace s)
  (moved : Moved s s' networkID phase)

include inv moved

private theorem Inv.reads_moved (begun : phase ≠ .idle)
    (reads : action = .read networkID ∨
      s.phase networkID ≠ .idle ∧ ∀ other, action ≠ .read other) :
    ∀ other, .read other ∈ trace ++ [action] ↔ s'.phase other ≠ .idle := by
  intro other
  rw [mem_append, mem_singleton, inv.reads]
  by_cases same : other = networkID
  · subst same
    rcases reads with rfl | ⟨before, _⟩
    · simp [moved.here, begun]
    · simp [moved.here, begun, before]
  · rw [moved.others other same]
    rcases reads with rfl | ⟨_, none⟩
    · simp [same]
    · simp [Ne.symm (none other)]

private theorem Inv.commits_moved (unfinished : s.phase networkID ≠ .committed)
    (commits : action = .commit networkID ∧ phase = .committed ∨
      phase ≠ .committed ∧ ∀ other, action ≠ .commit other) :
    ∀ other, .commit other ∈ trace ++ [action] ↔
      s'.phase other = .committed := by
  intro other
  rw [mem_append, mem_singleton, inv.commits]
  by_cases same : other = networkID
  · subst same
    rcases commits with ⟨rfl, rfl⟩ | ⟨unfinished', none⟩
    · simp [moved.here]
    · simp [moved.here, unfinished, unfinished', Ne.symm (none other)]
  · rw [moved.others other same]
    rcases commits with ⟨rfl, _⟩ | ⟨_, none⟩
    · simp [same]
    · simp [Ne.symm (none other)]

section Fits

variable
  (known : ∀ other, other ≠ networkID →
    (Known (trace ++ [action]) other ↔ Known trace other))
  (covers : ∀ {other updates}, other ≠ networkID →
    Covers g trace s.committed other updates →
    Covers g (trace ++ [action]) s'.committed other updates)

include known covers

private theorem Inv.planned_moved
    (own : ∀ plan, phase = .planned plan →
      PlanFits g (trace ++ [action]) s'.committed networkID plan) :
    ∀ other plan, s'.phase other = .planned plan →
      PlanFits g (trace ++ [action]) s'.committed other plan := by
  intro other plan planned
  rcases moved.split planned with ⟨rfl, mine⟩ | ⟨different, before⟩
  · exact own plan mine
  · obtain ⟨adds, updated⟩ := inv.planned other plan before
    exact ⟨adds.congr (known other different), covers different updated⟩

private theorem Inv.written_moved
    (own : ∀ updates row, phase = .written updates row →
      RowFits g (trace ++ [action]) s'.committed networkID updates row) :
    ∀ other updates row, s'.phase other = .written updates row →
      RowFits g (trace ++ [action]) s'.committed other updates row := by
  intro other updates row written
  rcases moved.split written with ⟨rfl, mine⟩ | ⟨different, before⟩
  · exact own updates row mine
  · obtain ⟨⟨added, rowEq, adds⟩, updated⟩ :=
      inv.written other updates row before
    exact ⟨⟨added, rowEq, adds.congr (known other different)⟩,
      covers different updated⟩

end Fits

private theorem Inv.reserved_moved (sequence : s.sequence ≤ s'.sequence)
    (fresh : ∀ other updates row, other ≠ networkID →
      s.phase other = .written updates row →
      ∀ new, new ∈ s'.committed.exitRoot → new.id ≠ row.id)
    (own : ∀ updates row, phase = .written updates row → s'.Reserved row) :
    ∀ other updates row, s'.phase other = .written updates row →
      s'.Reserved row := by
  intro other updates row written
  rcases moved.split written with ⟨rfl, mine⟩ | ⟨different, before⟩
  · exact own updates row mine
  · exact ⟨Nat.le_trans (inv.reserved other updates row before).1 sequence,
      fresh other updates row different before⟩

private theorem Inv.unique_moved
    (own : ∀ updates row, phase = .written updates row →
      ∀ other updates' row', s.phase other = .written updates' row' →
        row'.id ≠ row.id) :
    ∀ first updates row second updates' row',
      s'.phase first = .written updates row →
      s'.phase second = .written updates' row' → row'.id = row.id →
      second = first := by
  intro first updates row second updates' row' written written' sameID
  rcases moved.split written with ⟨rfl, mine⟩ | ⟨_, before⟩
  · rcases moved.split written' with ⟨rfl, _⟩ | ⟨_, before'⟩
    · rfl
    · exact absurd sameID (own updates row mine second updates' row' before')
  · rcases moved.split written' with ⟨rfl, mine'⟩ | ⟨_, before'⟩
    · exact absurd sameID.symm
        (own updates' row' mine' first updates row before)
    · exact inv.unique first updates row second updates' row' before before'
        sameID

section Unpublished

variable (unfinished : s.phase networkID ≠ .committed)
  (open' : phase ≠ .committed) (committed : s'.committed = s.committed)

include unfinished committed

private theorem Inv.rows_kept
    (filled : ∀ other, other ≠ networkID →
      (Filled (trace ++ [action]) other ↔ Filled trace other)) :
    ∀ row, row ∈ s'.committed.exitRoot →
      row.globalExitRoot = g.globalExitRoot →
      s'.phase row.networkID = .committed ∧ row.allowed = true ∧
        0 < row.blockID ∧
        CompleteIf g (Filled (trace ++ [action]) row.networkID)
          row.exitRoots := by
  rw [committed]
  intro row stored same
  obtain ⟨done, allowed, positive, complete⟩ := inv.rows row stored same
  have different : row.networkID ≠ networkID := by
    intro same
    exact unfinished (same ▸ done)
  exact ⟨(moved.others _ different).trans done, allowed, positive,
    complete.congr (filled _ different)⟩

include open'

private theorem Inv.present_kept :
    ∀ other, s'.phase other = .committed →
      ∃ row, row ∈ s'.committed.exitRoot ∧
        row.globalExitRoot = g.globalExitRoot ∧ row.networkID = other := by
  intro other done
  have different : other ≠ networkID := by
    rintro rfl
    exact open' (moved.here.symm.trans done)
  rw [committed]
  exact inv.present other ((moved.others other different).symm.trans done)

end Unpublished

end Moves

private theorem known_read_of_ne {other : Nat}
    (different : other ≠ networkID) :
    Known (trace ++ [.read networkID]) other ↔ Known trace other :=
  known_snoc_of_ne fun same => different (GerAction.read.inj same).symm

private theorem Inv.filled_read (inv : Inv g trace s)
    (idle : s.phase networkID = .idle) {other : Nat}
    (different : other ≠ networkID) :
    Filled (trace ++ [.read networkID]) other ↔ Filled trace other := by
  rw [Filled, Filled, known_read_of_ne different]
  by_cases l1 : networkID = 0
  · have notYet : GerAction.commit 0 ∉ trace := by
      rw [inv.commits, ← l1, idle]
      nofun
    simp [notYet]
  · rw [seen_snoc_of_ne fun read => l1 (GerAction.read.inj read)]
    simp

section Publish

variable {updates : List (GlobalExitRoot H)}

private theorem exitRoot_publish (t : Tables H) (row : ExitRootRow H)
    {exitRoots : List H}
    (complete : ∀ ger, ger ∈ updates → ger.exitRoots = exitRoots) :
    (t.publish updates row).exitRoot =
      t.exitRoot.map (fun old =>
        if ∃ ger, ger ∈ updates ∧ ger.id = old.id then
          { old with exitRoots := exitRoots }
        else old) ++ [row] := by
  rw [Tables.publish]
  simp only [append_cancel_right_eq]
  induction updates generalizing t with
  | nil => simp
  | cons ger rest induction =>
    rw [foldl_cons, induction _ fun other inside =>
      complete other (mem_cons_of_mem ger inside),
      Tables.updateL2GER, map_map]
    apply map_congr_left
    intro old _
    have first := complete ger mem_cons_self
    by_cases same : old.id = ger.id
    · simp [same, first]
    · simp [same, Ne.symm same]

private theorem Inv.published (inv : Inv g trace s) {row : ExitRootRow H}
    (written : s.phase networkID = .written updates row)
    {new : ExitRootRow H}
    (stored : new ∈ (s.committed.publish updates row).exitRoot) :
    new = row ∨ ∃ old, old ∈ s.committed.exitRoot ∧
      (new = old ∧ ¬(networkID = 0 ∧
          old.globalExitRoot = g.globalExitRoot ∧ old.networkID ≠ 0 ∧
          Seen trace old.networkID) ∨
        new = { old with exitRoots := g.exitRoots } ∧ networkID = 0 ∧
          old.globalExitRoot = g.globalExitRoot ∧ old.networkID ≠ 0 ∧
          Seen trace old.networkID) := by
  obtain ⟨_, covers⟩ := inv.written networkID updates row written
  rw [exitRoot_publish _ _ covers.exitRoots] at stored
  rcases mem_append.mp stored with kept | added
  · obtain ⟨old, inside, rfl⟩ := mem_map.mp kept
    refine .inr ⟨old, inside, ?_⟩
    have listed := covers.exact old inside
    split
    · next hit => exact .inr ⟨rfl, listed.mp hit⟩
    · next miss => exact .inl ⟨rfl, fun seen => miss (listed.mpr seen)⟩
  · exact .inl (mem_singleton.mp added)

private theorem ids_publish (t : Tables H) (row : ExitRootRow H)
    {exitRoots : List H}
    (complete : ∀ ger, ger ∈ updates → ger.exitRoots = exitRoots) :
    (t.publish updates row).exitRoot.map ExitRootRow.id =
      t.exitRoot.map ExitRootRow.id ++ [row.id] := by
  rw [exitRoot_publish _ _ complete, map_append, map_map]
  congr 1
  apply map_congr_left
  intro old _
  simp only [Function.comp_apply]
  split <;> rfl

section Commit

variable (inv : Inv g trace s) {row : ExitRootRow H}
  (here : s.phase networkID = .written updates row)

include inv here

private theorem Inv.row_network : row.networkID = networkID := by
  obtain ⟨⟨_, rowEq, _, rfl, _⟩, _⟩ := inv.written networkID updates row here
  rw [rowEq]
  rfl

private theorem Inv.unseen_of_written : ¬Seen trace networkID := by
  intro before
  have committed := (inv.commits networkID).mp before.first_mem
  rw [here] at committed
  contradiction

private theorem Inv.ids_published :
    (s.committed.publish updates row).exitRoot.map ExitRootRow.id =
      s.committed.exitRoot.map ExitRootRow.id ++ [row.id] :=
  ids_publish s.committed row
    (inv.written networkID updates row here).2.exitRoots

private theorem Inv.id_published {new : ExitRootRow H}
    (stored : new ∈ (s.committed.publish updates row).exitRoot) :
    (∃ old, old ∈ s.committed.exitRoot ∧ old.id = new.id) ∨
      new.id = row.id := by
  have inside := mem_map_of_mem (f := ExitRootRow.id) stored
  rw [inv.ids_published here] at inside
  rcases mem_append.mp inside with old | added
  · exact .inl (mem_map.mp old)
  · exact .inr (mem_singleton.mp added)

private theorem Inv.nodup_published :
    ((s.committed.publish updates row).exitRoot.map
      ExitRootRow.id).Nodup := by
  rw [inv.ids_published here]
  apply List.Nodup.append inv.ids (nodup_singleton _)
  intro id inside same
  obtain ⟨old, stored, sameID⟩ := mem_map.mp inside
  exact (inv.reserved networkID updates row here).2 old stored
    (sameID.trans (mem_singleton.mp same))

private theorem Inv.rows_published
    (moved : Moved s s' networkID .committed) {new : ExitRootRow H}
    (stored : new ∈ (s.committed.publish updates row).exitRoot)
    (same : new.globalExitRoot = g.globalExitRoot) :
    s'.phase new.networkID = .committed ∧ new.allowed = true ∧
      0 < new.blockID ∧
      CompleteIf g (Filled (trace ++ [.commit networkID]) new.networkID)
        new.exitRoots := by
  have filled : ∀ other, Filled (trace ++ [.commit networkID]) other ↔
      Known trace other ∨ Seen trace other ∧
        (.commit 0 ∈ trace ∨ networkID = 0) := by
    intro other
    have known : Known (trace ++ [.commit networkID]) other ↔
        Known trace other := known_snoc_of_ne nofun
    have seen : Seen (trace ++ [.commit networkID]) other ↔
        Seen trace other := seen_snoc_of_ne nofun
    rw [Filled, known, seen]
    simp [eq_comm]
  rcases inv.published here stored with rfl |
    ⟨old, inside, ⟨rfl, kept⟩ | ⟨rfl, l1, _, notL1, before⟩⟩
  · rw [inv.row_network here]
    obtain ⟨⟨_, rowEq, _, rfl, complete⟩, _⟩ :=
      inv.written networkID updates new here
    rw [rowEq]
    refine ⟨moved.here, rfl, g.positive networkID, complete.congr ?_⟩
    rw [filled]
    simp [inv.unseen_of_written here]
  · obtain ⟨done, allowed, positive, complete⟩ := inv.rows new inside same
    have different : new.networkID ≠ networkID := by
      intro same
      rw [same, here] at done
      contradiction
    refine ⟨(moved.others _ different).trans done, allowed, positive,
      complete.congr ?_⟩
    rw [filled, Filled]
    by_cases l1 : networkID = 0
    · have notSeen : ¬Seen trace new.networkID := fun before =>
        kept ⟨l1, same, fun zero => different (zero.trans l1.symm), before⟩
      simp [notSeen]
    · simp [l1]
  · obtain ⟨done, allowed, positive, _⟩ := inv.rows old inside same
    have different : old.networkID ≠ networkID := l1 ▸ notL1
    refine ⟨(moved.others _ different).trans done, allowed, positive,
      fun _ => rfl, fun incomplete => ?_⟩
    exact absurd ((filled _).mpr (.inr ⟨before, .inr l1⟩)) incomplete

private theorem Inv.present_published
    (moved : Moved s s' networkID .committed) {other : Nat}
    (done : s'.phase other = .committed) :
    ∃ new, new ∈ (s.committed.publish updates row).exitRoot ∧
      new.globalExitRoot = g.globalExitRoot ∧ new.networkID = other := by
  obtain ⟨⟨_, rowEq, _, rfl, _⟩, covers⟩ :=
    inv.written networkID updates row here
  rw [exitRoot_publish _ _ covers.exitRoots]
  by_cases same : other = networkID
  · refine ⟨row, mem_append_right _ (mem_singleton_self row), ?_,
      (inv.row_network here).trans same.symm⟩
    rw [rowEq]
    rfl
  · obtain ⟨old, stored, sameGER, sameNetwork⟩ :=
      inv.present other ((moved.others other same).symm.trans done)
    refine ⟨_, mem_append_left _ (mem_map_of_mem stored), ?_⟩
    split
    · exact ⟨sameGER, sameNetwork⟩
    · exact ⟨sameGER, sameNetwork⟩

end Commit

private theorem Inv.covers_publish (inv : Inv g trace s)
    {otherUpdates : List (GlobalExitRoot H)} {row : ExitRootRow H}
    (written : s.phase networkID = .written updates row) {other : Nat}
    (covers : Covers g trace s.committed other otherUpdates) :
    Covers g (trace ++ [.commit networkID])
      (s.committed.publish updates row) other otherUpdates := by
  obtain ⟨_, own⟩ := inv.written networkID updates row written
  obtain ⟨_, fresh⟩ := inv.reserved networkID updates row written
  have unseen : ¬Seen trace row.networkID := by
    rw [inv.row_network written]
    exact inv.unseen_of_written written
  constructor
  · exact covers.exitRoots
  · intro ger inside
    obtain ⟨old, stored, same⟩ := covers.stored ger inside
    have ids := ids_publish s.committed row own.exitRoots
    have listed : ger.id ∈
        (s.committed.publish updates row).exitRoot.map ExitRootRow.id := by
      rw [ids, ← same]
      exact mem_append_left _ (mem_map_of_mem stored)
    obtain ⟨new, newStored, newID⟩ := mem_map.mp listed
    exact ⟨new, newStored, newID⟩
  · intro new stored
    have seen : Seen (trace ++ [.commit networkID]) new.networkID ↔
        Seen trace new.networkID := seen_snoc_of_ne nofun
    rw [seen]
    rcases inv.published written stored with rfl |
      ⟨old, inside, ⟨rfl, _⟩ | ⟨rfl, _⟩⟩
    · constructor
      · rintro ⟨ger, inside, sameID⟩
        obtain ⟨old, stored, same⟩ := covers.stored ger inside
        exact absurd (same.trans sameID) (fresh old stored)
      · rintro ⟨_, _, _, before⟩
        exact absurd before unseen
    · exact covers.exact new inside
    · exact covers.exact old inside

end Publish

variable [DecidableEq H]

private theorem step_read (stepped : step g s (.read networkID) = some s') :
    s.phase networkID = .idle ∧
      ∃ plan, s.committed.gerPlan (g.event networkID) = .ok plan ∧
        Moved s s' networkID (.planned plan) ∧
        s'.committed = s.committed ∧ s'.sequence = s.sequence := by
  simp only [step] at stepped
  split at stepped
  · next idle =>
    split at stepped
    · next plan found =>
      rw [← Option.some.inj stepped]
      exact ⟨idle, plan, found, moved_update _ _ _ _ _, rfl, rfl⟩
    · contradiction
  · contradiction

private theorem step_write
    (stepped : step g s (.write networkID) = some s') :
    ∃ plan, s.phase networkID = .planned plan ∧
      Moved s s' networkID (.written plan.updates
        (exitRootRow (s.sequence + 1) plan.added)) ∧
      s'.committed = s.committed ∧ s'.sequence = s.sequence + 1 := by
  simp only [step] at stepped
  split at stepped
  · next plan planned =>
    split at stepped
    · contradiction
    · rw [← Option.some.inj stepped]
      exact ⟨plan, planned, moved_update _ _ _ _ _, rfl, rfl⟩
  · contradiction

private theorem step_commit
    (stepped : step g s (.commit networkID) = some s') :
    ∃ updates row, s.phase networkID = .written updates row ∧
      Moved s s' networkID .committed ∧
      s'.committed = s.committed.publish updates row ∧
      s'.sequence = s.sequence := by
  simp only [step] at stepped
  split at stepped
  · next updates row written =>
    rw [← Option.some.inj stepped]
    exact ⟨updates, row, written, moved_update _ _ _ _ _, rfl, rfl⟩
  · contradiction

private theorem Inv.getL1ExitRootByGER (inv : Inv g trace s) :
    (GerAction.commit 0 ∈ trace →
      ∃ l1GER, s.committed.getL1ExitRootByGER g.globalExitRoot =
          .ok l1GER ∧ l1GER.exitRoots = g.exitRoots) ∧
    (GerAction.commit 0 ∉ trace →
      s.committed.getL1ExitRootByGER g.globalExitRoot =
        .error .storageNotFound) := by
  have selected : ∀ {row : ExitRootRow H},
      (row.allowed && decide (0 < row.blockID) && row.networkID == 0 &&
        row.globalExitRoot == g.globalExitRoot) = true ↔
      row.allowed = true ∧ 0 < row.blockID ∧ row.networkID = 0 ∧
        row.globalExitRoot = g.globalExitRoot := by
    simp [and_assoc]
  constructor
  · intro committed
    obtain ⟨row, stored, same, l1⟩ :=
      inv.present 0 ((inv.commits 0).mp committed)
    obtain ⟨_, allowed, positive, _⟩ := inv.rows row stored same
    rw [Tables.getL1ExitRootByGER, Tables.latestL1ExitRoot]
    split
    · next nothing =>
      have empty := Rows.lastBy_eq_none nothing
      have rejected := filter_eq_nil_iff.mp empty row stored
      exact absurd (selected.mpr ⟨allowed, positive, l1, same⟩) rejected
    · next last found =>
      obtain ⟨lastStored, matching⟩ :=
        mem_filter.mp (Rows.lastBy_eq_some found).1
      obtain ⟨_, _, lastL1, lastSame⟩ := selected.mp matching
      have exitRoots := (inv.rows last lastStored lastSame).2.2.2.1
        (.inl (.inl lastL1))
      simp only [Tables.twoExitRoots, exitRoots, GerInsertion.exitRoots]
      exact ⟨_, rfl, rfl⟩
  · intro notYet
    rw [Tables.getL1ExitRootByGER, Tables.latestL1ExitRoot]
    split
    · rfl
    · next last found =>
      obtain ⟨lastStored, matching⟩ :=
        mem_filter.mp (Rows.lastBy_eq_some found).1
      obtain ⟨_, _, lastL1, lastSame⟩ := selected.mp matching
      have committed := (inv.rows last lastStored lastSame).1
      rw [lastL1] at committed
      exact absurd ((inv.commits 0).mpr committed) notYet

private theorem Inv.plan (inv : Inv g trace s) {plan : GerPlan H}
    (idle : s.phase networkID = .idle)
    (found : s.committed.gerPlan (g.event networkID) = .ok plan) :
    PlanFits g (trace ++ [.read networkID]) s.committed networkID plan := by
  have notCommitted : GerAction.commit networkID ∉ trace := by
    rw [inv.commits, idle]
    nofun
  by_cases l1 : networkID = 0
  · subst l1
    rw [Tables.gerPlan, if_pos (by rfl)] at found
    rw [← Except.ok.inj found]
    refine ⟨⟨g.exitRoots, rfl, fun _ => rfl, fun unknown => ?_⟩, ?_⟩
    · exact absurd (.inl rfl) unknown
    have listed : ∀ row : ExitRootRow H,
        (∃ ger, ger ∈ (s.committed.getL2ExitRootsByGER
            g.globalExitRoot).map (fun waiting =>
              { waiting with exitRoots := g.exitRoots }) ∧
          ger.id = row.id) ↔
        row.id ∈ (s.committed.getL2ExitRootsByGER g.globalExitRoot).map
          GlobalExitRoot.id := by
      simp
    constructor
    · intro ger inside
      obtain ⟨waiting, _, rfl⟩ := mem_map.mp inside
      rfl
    · intro ger inside
      obtain ⟨waiting, waitingIn, rfl⟩ := mem_map.mp inside
      obtain ⟨row, rowIn, rfl⟩ := mem_map.mp waitingIn
      rw [mem_reverse, Rows.mem_orderBy, mem_filter] at rowIn
      exact ⟨row, rowIn.1, rfl⟩
    · intro row stored
      refine (listed row).trans ?_
      rw [Tables.mem_getL2ExitRootsByGER inv.ids stored]
      constructor
      · rintro ⟨_, _, same, notL1, _⟩
        refine ⟨rfl, same, notL1, precedes_snoc.mpr (.inr ⟨?_, rfl⟩)⟩
        exact (inv.commits _).mpr (inv.rows row stored same).1
      · rintro ⟨_, same, notL1, _⟩
        obtain ⟨_, allowed, positive, complete⟩ := inv.rows row stored same
        refine ⟨allowed, positive, same, notL1, complete.2 ?_⟩
        rintro ((l1 | known) | ⟨_, committed⟩)
        · exact notL1 l1
        · exact notCommitted known.first_mem
        · exact notCommitted committed
  · have known : Known (trace ++ [.read networkID]) networkID ↔
        GerAction.commit 0 ∈ trace := by
      constructor
      · rintro (same | precedes)
        · exact absurd same l1
        · rcases precedes_snoc.mp precedes with earlier | ⟨before, _⟩
          · have begun := (inv.reads networkID).mp earlier.second_mem
            exact absurd idle begun
          · exact before
      · intro before
        exact .inr (precedes_snoc.mpr (.inr ⟨before, rfl⟩))
    have notTwo : ¬(g.event networkID).exitRoots.length = 2 := by
      simp [GerInsertion.event, l1]
    have nothing : Covers g (trace ++ [.read networkID]) s.committed
        networkID [] :=
      { exitRoots := nofun
        stored := nofun
        exact := by simp [l1] }
    rw [Tables.gerPlan, if_neg notTwo] at found
    by_cases committed : GerAction.commit 0 ∈ trace
    · obtain ⟨l1GER, answer, exitRoots⟩ := inv.getL1ExitRootByGER.1 committed
      simp only [GerInsertion.event] at found
      rw [answer] at found
      rw [← Except.ok.inj found]
      refine ⟨⟨_, rfl, fun _ => exitRoots, fun unknown => ?_⟩, nothing⟩
      exact absurd (known.mpr committed) unknown
    · have answer := inv.getL1ExitRootByGER.2 committed
      simp only [GerInsertion.event] at found
      rw [answer] at found
      rw [← Except.ok.inj found]
      refine ⟨⟨_, rfl, fun isKnown => ?_, fun _ => if_neg l1⟩, nothing⟩
      exact absurd (known.mp isKnown) committed

theorem Inv.read (inv : Inv g trace s)
    (stepped : step g s (.read networkID) = some s') :
    Inv g (trace ++ [.read networkID]) s' := by
  obtain ⟨idle, plan, found, moved, committed, sequence⟩ := step_read stepped
  have unfinished : s.phase networkID ≠ .committed := by
    rw [idle]
    nofun
  have known : ∀ other, other ≠ networkID →
      (Known (trace ++ [.read networkID]) other ↔ Known trace other) :=
    fun _ => known_read_of_ne
  have covers : ∀ {other updates}, other ≠ networkID →
      Covers g trace s.committed other updates →
      Covers g (trace ++ [.read networkID]) s'.committed other updates := by
    intro other updates different covers
    refine covers.congr (congrArg _ committed) fun l1 _ =>
      seen_snoc_of_ne ?_
    intro same
    exact different (l1.trans (GerAction.read.inj same).symm)
  exact
    { reads := inv.reads_moved moved nofun (.inl rfl)
      commits := inv.commits_moved moved unfinished (.inr ⟨nofun, nofun⟩)
      ids := committed ▸ inv.ids
      issued := committed ▸ sequence ▸ inv.issued
      rows := inv.rows_kept moved unfinished committed fun _ =>
        inv.filled_read idle
      present := inv.present_kept moved unfinished nofun committed
      planned := inv.planned_moved moved known covers (by
        rintro _ ⟨⟩
        exact committed ▸ inv.plan idle found)
      written := inv.written_moved moved known covers nofun
      reserved := inv.reserved_moved moved sequence.ge
        (fun other updates row _ written => committed ▸
          (inv.reserved other updates row written).2) nofun
      unique := inv.unique_moved moved nofun }

theorem Inv.write (inv : Inv g trace s)
    (stepped : step g s (.write networkID) = some s') :
    Inv g (trace ++ [.write networkID]) s' := by
  obtain ⟨plan, here, moved, committed, sequence⟩ := step_write stepped
  obtain ⟨adds, updated⟩ := inv.planned networkID plan here
  have unfinished : s.phase networkID ≠ .committed := by
    rw [here]
    nofun
  have known : ∀ other, Known (trace ++ [.write networkID]) other ↔
      Known trace other := fun _ => known_snoc_of_ne nofun
  have seen : ∀ other, Seen (trace ++ [.write networkID]) other ↔
      Seen trace other := fun _ => seen_snoc_of_ne nofun
  have covers : ∀ {other updates},
      Covers g trace s.committed other updates →
      Covers g (trace ++ [.write networkID]) s'.committed other updates :=
    fun covers => covers.congr (congrArg _ committed) fun _ => seen
  have later : ∀ row, row ∈ s'.committed.exitRoot → row.id ≤ s.sequence :=
    committed ▸ inv.issued
  exact
    { reads := inv.reads_moved moved nofun
        (.inr ⟨by rw [here]; nofun, nofun⟩)
      commits := inv.commits_moved moved unfinished (.inr ⟨nofun, nofun⟩)
      ids := committed ▸ inv.ids
      issued := fun row stored => by
        rw [sequence]
        exact Nat.le_succ_of_le (later row stored)
      rows := inv.rows_kept moved unfinished committed fun other _ => by
        simp [Filled, known, seen]
      present := inv.present_kept moved unfinished nofun committed
      planned := inv.planned_moved moved (fun other _ => known other)
        (fun _ => covers) nofun
      written := inv.written_moved moved (fun other _ => known other)
        (fun _ => covers) (by
          rintro _ _ ⟨⟩
          exact ⟨⟨_, rfl, adds.congr (known networkID)⟩, covers updated⟩)
      reserved := inv.reserved_moved moved (by omega)
        (fun other updates row _ written => committed ▸
          (inv.reserved other updates row written).2) (by
          rintro _ _ ⟨⟩
          refine ⟨sequence.ge, fun row stored same => ?_⟩
          have bound := later row stored
          simp only [exitRootRow] at same
          omega)
      unique := inv.unique_moved moved (by
        rintro _ _ ⟨⟩ other updates' row' written sameID
        have bound := (inv.reserved other updates' row' written).1
        simp only [exitRootRow] at sameID
        omega) }

theorem Inv.commit (inv : Inv g trace s)
    (stepped : step g s (.commit networkID) = some s') :
    Inv g (trace ++ [.commit networkID]) s' := by
  obtain ⟨updates, row, here, moved, committed, sequence⟩ :=
    step_commit stepped
  have known : ∀ other, other ≠ networkID →
      (Known (trace ++ [.commit networkID]) other ↔ Known trace other) :=
    fun _ _ => known_snoc_of_ne nofun
  have covers : ∀ {other otherUpdates}, other ≠ networkID →
      Covers g trace s.committed other otherUpdates →
      Covers g (trace ++ [.commit networkID]) s'.committed other
        otherUpdates :=
    fun _ covers => committed ▸ inv.covers_publish here covers
  exact
    { reads := inv.reads_moved moved nofun
        (.inr ⟨by rw [here]; nofun, nofun⟩)
      commits := inv.commits_moved moved (by rw [here]; nofun)
        (.inl ⟨rfl, rfl⟩)
      ids := committed ▸ inv.nodup_published here
      issued := by
        rw [committed, sequence]
        intro new stored
        rcases inv.id_published here stored with ⟨old, inside, same⟩ | same
        · exact same ▸ inv.issued old inside
        · exact same ▸ (inv.reserved networkID updates row here).1
      rows := committed ▸ fun _ => inv.rows_published here moved
      present := committed ▸ fun _ => inv.present_published here moved
      planned := inv.planned_moved moved known covers nofun
      written := inv.written_moved moved known covers nofun
      reserved := inv.reserved_moved moved sequence.ge (by
        rw [committed]
        intro other otherUpdates otherRow different written new stored same
        rcases inv.id_published here stored with ⟨old, inside, sameID⟩ | own
        · exact (inv.reserved other otherUpdates otherRow written).2 old
            inside (sameID.trans same)
        · exact different (inv.unique networkID updates row other otherUpdates
            otherRow here written (same.symm.trans own))) nofun
      unique := inv.unique_moved moved nofun }

theorem Inv.step {action : GerAction} (inv : Inv g trace s)
    (stepped : step g s action = some s') :
    Inv g (trace ++ [action]) s' := by
  cases action with
  | read networkID => exact inv.read stepped
  | write networkID => exact inv.write stepped
  | commit networkID => exact inv.commit stepped

theorem Inv.run {rest : List GerAction} (inv : Inv g trace s)
    (ran : run g rest s = some s') : Inv g (trace ++ rest) s' := by
  induction rest generalizing trace s with
  | nil =>
    rw [append_nil, ← Option.some.inj ran]
    exact inv
  | cons action rest induction =>
    rw [GerState.run, foldlM_cons] at ran
    obtain ⟨middle, stepped, ran⟩ := Option.bind_eq_some_iff.mp ran
    have later := induction (inv.step stepped) ran
    rw [append_assoc] at later
    exact later

end Steps

/-- After all transactions have committed, all entries of L2 networks carry the
exit roots if each of them was committed before the L1 transaction looked for
it, or was read after the L1 transaction was committed. -/
theorem entries_complete_iff [DecidableEq H] {g : GerInsertion H} {t : Tables H}
    {sequence : Nat} {trace : List GerAction} {s : GerState H}
    (ids : (t.exitRoot.map ExitRootRow.id).Nodup)
    (issued : ∀ row, row ∈ t.exitRoot → row.id ≤ sequence)
    (new : ∀ row, row ∈ t.exitRoot → row.globalExitRoot ≠ g.globalExitRoot)
    (ran : run g trace (start t sequence) = some s)
    (l1 : s.phase 0 = .committed) :
    (∀ row, row ∈ s.committed.exitRoot →
      row.globalExitRoot = g.globalExitRoot → row.networkID ≠ 0 →
      row.exitRoots = g.exitRoots) ↔
    ∀ networkID, networkID ≠ 0 → .commit networkID ∈ trace →
      Precedes trace (.commit networkID) (.read 0) ∨
        Precedes trace (.commit 0) (.read networkID) := by
  have inv := (inv_start ids issued new).run ran
  rw [nil_append] at inv
  have committed := (inv.commits 0).mpr l1
  constructor
  · intro complete networkID notL1 done
    obtain ⟨row, stored, same, onNetwork⟩ :=
      inv.present networkID ((inv.commits networkID).mp done)
    have filled := (inv.rows row stored same).2.2.2
    rw [onNetwork] at filled
    by_contra neither
    have incomplete := filled.2 (by
      rintro ((zero | known) | ⟨seen, _⟩)
      · exact notL1 zero
      · exact neither (.inr known)
      · exact neither (.inl seen))
    have full := complete row stored same (onNetwork.trans_ne notL1)
    rw [incomplete] at full
    contradiction
  · intro ordered row stored same notL1
    obtain ⟨done, _, _, filled⟩ := inv.rows row stored same
    apply filled.1
    rcases ordered row.networkID notL1 ((inv.commits _).mpr done) with
      seen | known
    · exact .inr ⟨seen, committed⟩
    · exact .inl (.inr known)

section Samples

def sampleInsertion : GerInsertion Digest :=
  { globalExitRoot := .node (.bytes [1]) (.bytes [2])
    mainnetExitRoot := .bytes [1]
    rollupExitRoot := .bytes [2]
    blockID := fun networkID => networkID + 1
    positive := fun networkID => Nat.succ_pos networkID }

/-- Both transactions read before the other one is committed. -/
theorem entry_stays_incomplete :
    ∃ s row, run sampleInsertion
          [.read 1, .read 0, .write 1, .commit 1, .write 0, .commit 0]
          (start Tables.empty 0) = some s ∧
        s.phase 0 = .committed ∧ s.phase 1 = .committed ∧
        row ∈ s.committed.exitRoot ∧
        row.globalExitRoot = sampleInsertion.globalExitRoot ∧
        row.networkID = 1 ∧ row.exitRoots ≠ sampleInsertion.exitRoots := by
  refine ⟨_, { sampleInsertion.event 1 with id := 1, allowed := true }, rfl,
    rfl, rfl, ?_, rfl, rfl, nofun⟩
  exact mem_cons_self

/-- An entry that is committed early enough is completed. -/
theorem entry_is_completed :
    ∃ s, run sampleInsertion
          [.read 1, .write 1, .commit 1, .read 0, .write 0, .commit 0]
          (start Tables.empty 0) = some s ∧
        ∀ row, row ∈ s.committed.exitRoot →
          row.globalExitRoot = sampleInsertion.globalExitRoot →
          row.networkID ≠ 0 →
          row.exitRoots = sampleInsertion.exitRoots := by
  have finished : ∃ s,
      run sampleInsertion
          [.read 1, .write 1, .commit 1, .read 0, .write 0, .commit 0]
          (start Tables.empty 0) = some s ∧ s.phase 0 = .committed :=
    ⟨_, rfl, rfl⟩
  obtain ⟨s, ran, l1⟩ := finished
  refine ⟨s, ran, (entries_complete_iff (t := Tables.empty)
    nodup_nil nofun nofun ran l1).mpr ?_⟩
  intro networkID notL1 committed
  have first : networkID = 1 := by
    simpa [notL1] using committed
  subst first
  exact .inl (by decide)

end Samples

end GerState

end BridgeService
