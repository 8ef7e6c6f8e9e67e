import BridgeService.Claimtxman.NonceSteps
import BridgeService.Lib.Tickets

/-!
# Nonces that two goroutines take

The goroutine that creates claim transactions and the monitor take nonces from
one cache, in any order of their calls.  A nonce is held by the stored
transaction that has it, or by the goroutine that has taken it and not stored
it yet.  The nonces that are not used up stay different as long as the two
goroutines do not take a nonce of one sender at the same time, and the cache
does not forget a sender that has nonces which are not used up.
-/

namespace BridgeService

open Calls NoncePosition List

variable {H : Type}

def creator (sender : Address) : ClaimWorker → Option Address
  | .pendingDeposits => some sender
  | .monitorTxs => none

theorem creator_eq_none {sender : Address} {worker : ClaimWorker}
    (monitors : creator sender worker = none) : worker = .monitorTxs := by
  cases worker with
  | pendingDeposits => contradiction
  | monitorTxs => rfl

theorem creator_isSome {sender : Address} {worker : ClaimWorker}
    (creates : (creator sender worker).isSome) :
    worker = .pendingDeposits := by
  cases worker with
  | pendingDeposits => rfl
  | monitorTxs => contradiction

abbrev ClaimConfig (H : Type) :=
  Config ClaimWorker (ClaimShared H) (claimInterface H) (NoncePosition H)

inductive NonceHolder (H : Type)
  | row (mTx : MonitoredTx H)
  | goroutine (worker : ClaimWorker)

def HoldsNonce (shared : ClaimShared H)
    (positions : ClaimWorker → NoncePosition H) (fromAddr : Address) :
    NonceHolder H → Nat → Prop
  | .row mTx, nonce => mTx ∈ shared.store.monitoredTxs ∧
      mTx.status = .created ∧ mTx.fromAddr = fromAddr ∧ mTx.nonce = nonce
  | .goroutine worker, nonce =>
    (fromAddr, nonce) ∈ (positions worker).hands

/-- Nonces of a sender as numbers that are handed out: those below the nonce of
the account are used up, and the cache remembers the last one. -/
def nonceTickets (shared : ClaimShared H)
    (positions : ClaimWorker → NoncePosition H) (fromAddr : Address) :
    Tickets.State (NonceHolder H) where
  floor := shared.account fromAddr
  last := shared.nonceCache.value fromAddr
  holds := HoldsNonce shared positions fromAddr
  offered nonce := ∃ worker, (positions worker).phase = .read fromAddr nonce

/-- A row that is written gets a nonce from the hands, or keeps its nonce. -/
def WriteFits (shared : ClaimShared H) (worker : ClaimWorker)
    (position : NoncePosition H) : ClaimWrite H → Prop
  | .add mTx _ => worker = .pendingDeposits ∧ mTx.status = .created ∧
      (mTx.fromAddr, mTx.nonce) ∈ position.hands
  | .update mTx _ => worker = .monitorTxs ∧
      (∃ row, row ∈ shared.store.monitoredTxs ∧
        row.depositID = mTx.depositID ∧ row.fromAddr = mTx.fromAddr ∧
        row.status = .created ∧
        (mTx.nonce = row.nonce ∨ (mTx.fromAddr, mTx.nonce) ∈ position.hands)) ∧
      ∀ copy, copy ∈ position.copies → copy.depositID ≠ mTx.depositID

theorem WriteFits.of_position {shared : ClaimShared H}
    {worker : ClaimWorker} {position position' : NoncePosition H}
    {write : ClaimWrite H}
    (fits : WriteFits shared worker position write)
    (hands : ∀ taken, taken ∈ position.hands → taken ∈ position'.hands)
    (copies : position'.copies = position.copies) :
    WriteFits shared worker position' write := by
  cases write with
  | add mTx now =>
    obtain ⟨creates, created, taken⟩ := fits
    exact ⟨creates, created, hands _ taken⟩
  | update mTx now =>
    obtain ⟨monitors, ⟨row, stored, deposit, sender, created, nonce⟩,
      others⟩ := fits
    refine ⟨monitors, ⟨row, stored, deposit, sender, created, ?_⟩, ?_⟩
    · exact nonce.imp_right (hands _)
    · rw [copies]
      exact others

def ReadRow (shared : ClaimShared H) (copy : MonitoredTx H) : Prop :=
  ∃ row, row ∈ shared.store.monitoredTxs ∧
    row.depositID = copy.depositID ∧ row.fromAddr = copy.fromAddr ∧
    row.nonce = copy.nonce ∧ row.status = .created

structure TablesFit (shared : ClaimShared H)
    (positions : ClaimWorker → NoncePosition H) : Prop where
  keyed : (shared.store.monitoredTxs.map MonitoredTx.depositID).Nodup
  room : 0 < shared.nonceCache.size
  creates : (positions .pendingDeposits).copies = []
  copies : ∀ copy, copy ∈ (positions .monitorTxs).copies → ReadRow shared copy
  changes : ∀ worker changes, shared.dbTx worker = some changes →
    changes = [] ∨ ∃ write, changes = [write] ∧
      (positions worker).written = true ∧
      WriteFits shared worker (positions worker) write

structure NoncesKept (shared : ClaimShared H)
    (positions : ClaimWorker → NoncePosition H) : Prop where
  tickets : ∀ fromAddr, Tickets.Valid (nonceTickets shared positions fromAddr)
  tables : TablesFit shared positions

theorem TablesFit.unwritten {shared : ClaimShared H}
    {positions : ClaimWorker → NoncePosition H} {worker : ClaimWorker}
    {changes : List (ClaimWrite H)} (fit : TablesFit shared positions)
    (unwritten : (positions worker).written = false)
    (opened : shared.dbTx worker = some changes) : changes = [] := by
  rcases fit.changes worker changes opened with
    nothing | ⟨write, _, written, _⟩
  · exact nothing
  · simp [unwritten] at written

section Positions

variable {shared shared' : ClaimShared H}
  {positions : ClaimWorker → NoncePosition H} {worker : ClaimWorker}
  {position' : NoncePosition H} {fromAddr : Address} {nonce : Nat}

theorem HoldsNonce.of_update {holder : NonceHolder H}
    (holds : HoldsNonce shared (Function.update positions worker position')
      fromAddr holder nonce) :
    holder = .goroutine worker ∧ (fromAddr, nonce) ∈ position'.hands ∨
      HoldsNonce shared positions fromAddr holder nonce := by
  cases holder with
  | row mTx => exact .inr holds
  | goroutine other =>
    by_cases same : other = worker
    · subst same
      rw [HoldsNonce, Function.update_self] at holds
      exact .inl ⟨rfl, holds⟩
    · rw [HoldsNonce, Function.update_of_ne same] at holds
      exact .inr holds

theorem HoldsNonce.of_fewer {holder : NonceHolder H}
    (fewer : ∀ nonce, (fromAddr, nonce) ∈ position'.hands →
      (fromAddr, nonce) ∈ (positions worker).hands)
    (holds : HoldsNonce shared (Function.update positions worker position')
      fromAddr holder nonce) :
    HoldsNonce shared positions fromAddr holder nonce := by
  rcases holds.of_update with ⟨rfl, taken⟩ | before
  · exact fewer nonce taken
  · exact before

theorem read_of_update
    (reads : ∃ other, (Function.update positions worker position'
      other).phase = .read fromAddr nonce) :
    position'.phase = .read fromAddr nonce ∨ ∃ other, other ≠ worker ∧
        (positions other).phase = .read fromAddr nonce := by
  obtain ⟨other, reads⟩ := reads
  by_cases same : other = worker
  · subst same
    rw [Function.update_self] at reads
    exact .inl reads
  · rw [Function.update_of_ne same] at reads
    exact .inr ⟨other, same, reads⟩

theorem tickets_quiet
    (valid : Tickets.Valid (nonceTickets shared positions fromAddr))
    (store : shared'.store = shared.store)
    (account : shared'.account = shared.account)
    (cached : shared'.nonceCache.value fromAddr =
      shared.nonceCache.value fromAddr)
    (fewer : ∀ nonce, (fromAddr, nonce) ∈ position'.hands →
      (fromAddr, nonce) ∈ (positions worker).hands)
    (phase : ∀ nonce, position'.phase = .read fromAddr nonce →
      (positions worker).phase = .read fromAddr nonce) :
    Tickets.Valid (nonceTickets shared'
      (Function.update positions worker position') fromAddr) := by
  apply valid.mono
  · simp [nonceTickets, account]
  · exact cached
  · intro nonce reads
    rcases read_of_update reads with own | ⟨other, _, reads⟩
    · exact ⟨worker, phase nonce own⟩
    · exact ⟨other, reads⟩
  · intro holder nonce holds
    have holds : HoldsNonce shared' (Function.update positions worker
      position') fromAddr holder nonce := holds
    apply HoldsNonce.of_fewer fewer
    cases holder with
    | row mTx =>
      rw [HoldsNonce, store] at holds
      exact holds
    | goroutine other => exact holds

theorem WriteFits.of_rows {write : ClaimWrite H} {position : NoncePosition H}
    (fits : WriteFits shared worker position write)
    (rows : worker = .monitorTxs → ∀ row, row ∈ shared.store.monitoredTxs →
        row ∈ shared'.store.monitoredTxs) :
    WriteFits shared' worker position write := by
  cases write with
  | add mTx now => exact fits
  | update mTx now =>
    obtain ⟨monitors, ⟨row, stored, known⟩, others⟩ := fits
    exact ⟨monitors, ⟨row, rows monitors row stored, known⟩, others⟩

theorem TablesFit.step (fit : TablesFit shared positions)
    (keyed : (shared'.store.monitoredTxs.map MonitoredTx.depositID).Nodup)
    (size : shared'.nonceCache.size = shared.nonceCache.size)
    (rows : worker = .pendingDeposits → ∀ row,
      row ∈ shared.store.monitoredTxs → row ∈ shared'.store.monitoredTxs)
    (others : ∀ other, other ≠ worker → shared'.dbTx other = shared.dbTx other)
    (creates : worker = .pendingDeposits → position'.copies = [])
    (copies : worker = .monitorTxs → ∀ copy, copy ∈ position'.copies →
      ReadRow shared' copy)
    (own : ∀ changes, shared'.dbTx worker = some changes →
      changes = [] ∨ ∃ write, changes = [write] ∧ position'.written = true ∧
        WriteFits shared' worker position' write) :
    TablesFit shared' (Function.update positions worker position') := by
  constructor
  · exact keyed
  · rw [size]
    exact fit.room
  · by_cases same : ClaimWorker.pendingDeposits = worker
    · subst same
      rw [Function.update_self]
      exact creates rfl
    · rw [Function.update_of_ne same]
      exact fit.creates
  · by_cases same : ClaimWorker.monitorTxs = worker
    · subst same
      rw [Function.update_self]
      exact copies rfl
    · rw [Function.update_of_ne same]
      intro copy mem
      obtain ⟨row, stored, known⟩ := fit.copies copy mem
      refine ⟨row, rows ?_ row stored, known⟩
      cases worker with
      | pendingDeposits => rfl
      | monitorTxs => exact absurd rfl same
  · intro other changes opened
    by_cases same : other = worker
    · subst same
      rw [Function.update_self]
      exact own changes opened
    · rw [Function.update_of_ne same]
      rw [others other same] at opened
      rcases fit.changes other changes opened with
        nothing | ⟨write, single, written, fits⟩
      · exact .inl nothing
      · refine .inr ⟨write, single, written, fits.of_rows ?_⟩
        intro monitors
        apply rows
        cases worker with
        | pendingDeposits => rfl
        | monitorTxs => exact absurd monitors same

theorem TablesFit.quiet (fit : TablesFit shared positions)
    (store : shared'.store = shared.store)
    (size : shared'.nonceCache.size = shared.nonceCache.size)
    (others : ∀ other, other ≠ worker → shared'.dbTx other = shared.dbTx other)
    (fewer : ∀ copy, copy ∈ position'.copies →
      copy ∈ (positions worker).copies)
    (own : ∀ changes, shared'.dbTx worker = some changes →
      changes = [] ∨ ∃ write, changes = [write] ∧ position'.written = true ∧
        WriteFits shared worker position' write) :
    TablesFit shared' (Function.update positions worker position') := by
  apply fit.step
  · rw [store]
    exact fit.keyed
  · exact size
  · intro _ row stored
    rw [store]
    exact stored
  · exact others
  · rintro rfl
    apply eq_nil_iff_forall_not_mem.mpr
    intro copy mem
    have old := fewer copy mem
    simp [fit.creates] at old
  · rintro rfl copy mem
    obtain ⟨row, stored, known⟩ := fit.copies copy (fewer copy mem)
    exact ⟨row, by rw [store]; exact stored, known⟩
  · intro changes opened
    rcases own changes opened with nothing | ⟨write, single, written, fits⟩
    · exact .inl nothing
    · refine .inr ⟨write, single, written, fits.of_rows ?_⟩
      intro _ row stored
      rw [store]
      exact stored

end Positions

namespace NoncesKept

variable {shared : ClaimShared H} {positions : ClaimWorker → NoncePosition H}
  {worker : ClaimWorker}

private theorem quiet (kept : NoncesKept shared positions)
    {changes : Option (List (ClaimWrite H))} {position' : NoncePosition H}
    (hands : ∀ taken, taken ∈ position'.hands →
      taken ∈ (positions worker).hands)
    (phase : ∀ fromAddr nonce, position'.phase = .read fromAddr nonce →
      (positions worker).phase = .read fromAddr nonce)
    (copies : ∀ copy, copy ∈ position'.copies →
      copy ∈ (positions worker).copies)
    (own : ∀ changes', changes = some changes' →
      changes' = [] ∨ ∃ write, changes' = [write] ∧
        position'.written = true ∧
        WriteFits shared worker position' write) :
    NoncesKept (shared.setDbTx worker changes)
      (Function.update positions worker position') where
  tickets fromAddr := tickets_quiet (kept.tickets fromAddr) rfl rfl rfl
    (fun _ => hands _) (phase fromAddr)
  tables := by
    apply TablesFit.quiet kept.tables
    · rfl
    · rfl
    · exact fun other different => ClaimShared.setDbTx_dbTx_other different
    · exact copies
    · intro changes' opened
      rw [ClaimShared.setDbTx_dbTx_self] at opened
      exact own changes' opened

theorem close (kept : NoncesKept shared positions)
    {changes : Option (List (ClaimWrite H))}
    (nothing : changes = none ∨ changes = some []) :
    NoncesKept (shared.setDbTx worker changes)
      (Function.update positions worker (positions worker).closed) := by
  refine kept.quiet nofun (fun _ _ => id) (fun _ => id) ?_
  rintro changes' rfl
  rcases nothing with none | empty
  · contradiction
  · exact .inl (Option.some.inj empty)

private theorem hands_closed {other : ClaimWorker} {taken : Address × Nat}
    (held : taken ∈ (Function.update positions worker
      (positions worker).closed other).hands) :
    other ≠ worker ∧ taken ∈ (positions other).hands := by
  by_cases same : other = worker
  · subst same
    rw [Function.update_self] at held
    contradiction
  · rw [Function.update_of_ne same] at held
    exact ⟨same, held⟩

private theorem read_closed {fromAddr : Address} {nonce : Nat}
    (reads : ∃ other, (Function.update positions worker
      (positions worker).closed other).phase = .read fromAddr nonce) :
    ∃ other, (positions other).phase = .read fromAddr nonce := by
  rcases read_of_update reads with own | ⟨other, _, reads⟩
  · exact ⟨worker, own⟩
  · exact ⟨other, reads⟩

variable {store : ClaimStore H} {mTx : MonitoredTx H} {now : Nat}
  {changes : List (ClaimWrite H)}

private theorem changes_closed {position : NoncePosition H}
    (changes : List (ClaimWrite H))
    (opened : ClaimShared.dbTx
      { shared.setDbTx worker none with store := store } worker =
        some changes) :
    changes = [] ∨ ∃ write, changes = [write] ∧ position.written = true ∧
      WriteFits { shared.setDbTx worker none with store := store } worker
        position write := by
  have closed : (shared.setDbTx worker none).dbTx worker =
    some changes := opened
  simp [ClaimShared.setDbTx_dbTx_self] at closed

private theorem tickets_passed (kept : NoncesKept shared positions)
    (row : MonitoredTx H) (source : NonceHolder H)
    (rows : ∀ old, old ∈ store.monitoredTxs → old = row ∨
      old ∈ shared.store.monitoredTxs ∧ old ≠ row ∧
        NonceHolder.row old ≠ source)
    (own : ∀ other, source = .goroutine other → other = worker)
    (given : HoldsNonce shared positions row.fromAddr source row.nonce)
    (fromAddr : Address) :
    Tickets.Valid (nonceTickets
      { shared.setDbTx worker none with store := store }
      (Function.update positions worker (positions worker).closed)
      fromAddr) := by
  apply (kept.tickets fromAddr).pass (fun holder origin =>
    holder = .row row ∧ origin = source ∨
      holder ≠ .row row ∧ origin ≠ source ∧ origin = holder)
  · exact le_rfl
  · rfl
  · exact fun _ => read_closed
  · intro holder nonce holds
    cases holder with
    | row old =>
      obtain ⟨stored, status, sender, number⟩ := holds
      rcases rows old stored with rfl | ⟨before, different, differs⟩
      · refine ⟨source, .inl ⟨rfl, rfl⟩, ?_⟩
        rw [← sender, ← number]
        exact given
      · refine ⟨.row old, .inr ⟨?_, differs, rfl⟩, before, status,
          sender, number⟩
        intro same
        injection same with same
        exact different same
    | goroutine other =>
      obtain ⟨different, before⟩ := hands_closed holds
      refine ⟨.goroutine other, .inr ⟨nofun, ?_, rfl⟩, before⟩
      intro same
      exact different (own other same.symm)
  · rintro first second origin
      (⟨rfl, rfl⟩ | ⟨_, differs, rfl⟩) (⟨rfl, same⟩ | ⟨_, differs', same⟩)
    · rfl
    · exact absurd rfl differs'
    · exact absurd same differs
    · exact same

theorem commit_add (kept : NoncesKept shared positions)
    (fits : WriteFits shared worker (positions worker) (.add mTx now)) :
    NoncesKept
      { shared.setDbTx worker none with
        store := shared.store.addClaimTx mTx now }
      (Function.update positions worker (positions worker).closed) := by
  rcases shared.store.addClaimTx_cases mTx now with same | ⟨fresh, added⟩
  · rw [same]
    exact kept.close (.inl rfl)
  · obtain ⟨rfl, _, taken⟩ := fits
    rw [added]
    constructor
    · apply kept.tickets_passed
        { mTx with
          gasPrice := none
          createdAt := now
          updatedAt := now } (.goroutine .pendingDeposits)
      · intro old stored
        rcases mem_append.mp stored with before | isNew
        · refine .inr ⟨before, ?_, nofun⟩
          rintro rfl
          exact fresh _ before rfl
        · exact .inl (mem_singleton.mp isNew)
      · rintro other same
        cases same
        exact rfl
      · exact taken
    · apply TablesFit.step kept.tables
      · simp only [map_append, nodup_append]
        refine ⟨kept.tables.keyed, by simp, ?_⟩
        intro id old id' isNew
        obtain ⟨before, stored, rfl⟩ := mem_map.mp old
        rw [map_cons, map_nil, mem_singleton] at isNew
        rw [isNew]
        exact fresh before stored
      · rfl
      · exact fun _ before stored => mem_append_left _ stored
      · exact fun other different =>
          ClaimShared.setDbTx_dbTx_other different
      · exact fun _ => kept.tables.creates
      · exact nofun
      · exact changes_closed

private theorem update_rows {row : MonitoredTx H}
    (keyed : (store.monitoredTxs.map MonitoredTx.depositID).Nodup)
    (stored : row ∈ store.monitoredTxs)
    (deposit : row.depositID = mTx.depositID) (old : MonitoredTx H)
    (here : old ∈ (store.updateClaimTx mTx now).monitoredTxs) :
    old = ClaimStore.writeTx row mTx now ∨
      old ∈ store.monitoredTxs ∧ old.depositID ≠ mTx.depositID := by
  obtain ⟨before, known, rfl⟩ := mem_map.mp here
  by_cases same : before.depositID = mTx.depositID
  · have equal : before = row := inj_on_of_nodup_map keyed known stored
      (same.trans deposit.symm)
    rw [if_pos same, equal]
    exact .inl rfl
  · rw [if_neg same]
    exact .inr ⟨known, same⟩

theorem commit_update (kept : NoncesKept shared positions)
    (fits : WriteFits shared worker (positions worker) (.update mTx now)) :
    NoncesKept
      { shared.setDbTx worker none with
        store := shared.store.updateClaimTx mTx now }
      (Function.update positions worker (positions worker).closed) := by
  obtain ⟨rfl, ⟨row, stored, deposit, sender, created, nonce⟩, others⟩ := fits
  have rows : ∀ old,
      old ∈ (shared.store.updateClaimTx mTx now).monitoredTxs →
        old = ClaimStore.writeTx row mTx now ∨
          old ∈ shared.store.monitoredTxs ∧
            old.depositID ≠ mTx.depositID :=
    update_rows kept.tables.keyed stored deposit
  constructor
  · rcases nonce with same | taken
    · apply kept.tickets_passed (ClaimStore.writeTx row mTx now) (.row row)
      · intro old here
        rcases rows old here with written | ⟨before, other⟩
        · exact .inl written
        · refine .inr ⟨before, ?_, ?_⟩
          · rintro rfl
            exact other deposit
          · intro equal
            injection equal with equal
            exact other (equal ▸ deposit)
      · exact nofun
      · exact ⟨stored, created, sender, same.symm⟩
    · apply kept.tickets_passed (ClaimStore.writeTx row mTx now)
        (.goroutine .monitorTxs)
      · intro old here
        rcases rows old here with written | ⟨before, other⟩
        · exact .inl written
        · refine .inr ⟨before, ?_, nofun⟩
          rintro rfl
          exact other deposit
      · rintro other same
        cases same
        exact rfl
      · exact taken
  · apply TablesFit.step kept.tables
    · simpa using kept.tables.keyed
    · rfl
    · exact nofun
    · exact fun other different =>
        ClaimShared.setDbTx_dbTx_other different
    · exact nofun
    · intro _ copy mem
      obtain ⟨known, before, same, rest⟩ := kept.tables.copies copy mem
      have other : known.depositID ≠ mTx.depositID := by
        rw [same]
        exact others copy mem
      refine ⟨known, mem_map.mpr ⟨known, before, if_neg other⟩, same,
        rest⟩
    · exact changes_closed

private theorem tables_taking (kept : NoncesKept shared positions)
    {cache : Lru Address Nat} {position' : NoncePosition H}
    (size : cache.size = shared.nonceCache.size)
    (written : position'.written = (positions worker).written)
    (copies : position'.copies = (positions worker).copies)
    (hands : ∀ taken, taken ∈ (positions worker).hands →
      taken ∈ position'.hands) :
    TablesFit { shared with nonceCache := cache }
      (Function.update positions worker position') := by
  apply TablesFit.quiet kept.tables
  · rfl
  · exact size
  · exact fun _ _ => rfl
  · rw [copies]
    exact fun _ => id
  · intro changes opened
    rcases kept.tables.changes worker changes opened with
      nothing | ⟨write, single, done, fits⟩
    · exact .inl nothing
    · exact .inr ⟨write, single, written.trans done,
        fits.of_position hands copies⟩

theorem ask (kept : NoncesKept shared positions) {fromAddr : Address}
    {nonce : Nat} :
    NoncesKept shared (Function.update positions worker
      { positions worker with phase := .asked fromAddr nonce }) where
  tickets other := by
    apply tickets_quiet (kept.tickets other) rfl rfl rfl
    · exact fun _ => id
    · exact nofun
  tables := kept.tables_taking rfl rfl rfl fun _ => id

private theorem lt_next {nonce last : Nat}
    (small : nonce ≤ last → last + 1 < 2 ^ 64) :
    last < NonceCache.next nonce (some last) := by
  rw [NonceCache.next]
  split
  · next reached =>
    rw [Nat.mod_eq_of_lt (small reached)]
    exact Nat.lt_succ_self last
  · next larger => exact Nat.lt_of_not_le larger

section

variable (kept : NoncesKept shared positions)

include kept

theorem read_cache {fromAddr : Address} {nonce : Nat}
    {cache : Lru Address Nat} (size : cache.size = shared.nonceCache.size)
    (same : cache.value = shared.nonceCache.value)
    (small : ∀ last, shared.nonceCache.value fromAddr = some last →
      nonce ≤ last → last + 1 < 2 ^ 64) :
    NoncesKept { shared with nonceCache := cache }
      (Function.update positions worker
        { positions worker with
          phase := .read fromAddr (NonceCache.next nonce
            (shared.nonceCache.value fromAddr)) }) where
  tickets other := by
    by_cases here : other = fromAddr
    · subst here
      have larger : ∀ last, shared.nonceCache.value other = some last →
          last < NonceCache.next nonce (shared.nonceCache.value other) := by
        intro last found
        rw [found]
        exact lt_next (small last found)
      apply (kept.tickets other).offer larger
      · rfl
      · exact congrFun same other
      · intro number reads
        rcases read_of_update reads with own | ⟨second, _, before⟩
        · cases own
          exact .inr rfl
        · exact .inl ⟨second, before⟩
      · exact fun _ _ => HoldsNonce.of_fewer fun _ => id
    · apply tickets_quiet (kept.tickets other)
      · rfl
      · rfl
      · exact congrFun same other
      · exact fun _ => id
      · intro number read
        cases read
        exact absurd rfl here
  tables := kept.tables_taking size rfl rfl fun _ => id

theorem add_cache {fromAddr : Address} {nonce : Nat}
    (read : (positions worker).phase = .read fromAddr nonce)
    (first : ∀ other taken, other ≠ worker →
      (positions other).phase = .read fromAddr taken →
      shared.account fromAddr ≤ nonce → nonce < taken)
    (evicts : ∀ other, other ≠ fromAddr →
      (shared.nonceCache.add fromAddr nonce).value other ≠
        shared.nonceCache.value other →
      ∀ holder taken, HoldsNonce shared positions other holder taken →
        taken < shared.account other) :
    NoncesKept
      { shared with nonceCache := shared.nonceCache.add fromAddr nonce }
      (Function.update positions worker
        { positions worker with
          phase := .idle
          hands := (fromAddr, nonce) :: (positions worker).hands }) where
  tickets other := by
    by_cases here : other = fromAddr
    · subst here
      have offered : (nonceTickets shared positions other).offered nonce :=
        ⟨worker, read⟩
      apply (kept.tickets other).take offered
      · rfl
      · exact Lru.value_add_self kept.tables.room
      · intro number reads
        rcases read_of_update reads with own | ⟨second, different, before⟩
        · contradiction
        · exact ⟨⟨second, before⟩, first second number different before⟩
      · intro holder number holds
        rcases HoldsNonce.of_update holds with ⟨rfl, taken⟩ | before
        · rcases mem_cons.mp taken with new | old
          · injection new with _ equal
            exact .inr ⟨rfl, equal⟩
          · exact .inl old
        · exact .inl before
    · have fewer : ∀ number, (other, number) ∈
          (fromAddr, nonce) :: (positions worker).hands →
          (other, number) ∈ (positions worker).hands := by
        intro number taken
        rcases mem_cons.mp taken with new | old
        · injection new with equal
          exact absurd equal here
        · exact old
      by_cases same : (shared.nonceCache.add fromAddr nonce).value other =
          shared.nonceCache.value other
      · apply tickets_quiet (kept.tickets other)
        · rfl
        · rfl
        · exact same
        · exact fewer
        · exact nofun
      · apply Tickets.Valid.forget
        intro holder number holds
        exact evicts other here same holder number
          (HoldsNonce.of_fewer fewer holds)
  tables := kept.tables_taking rfl rfl rfl
    fun _ => mem_cons_of_mem (fromAddr, nonce)

theorem remove_cache {fromAddr : Address}
    (usedUp : shared.nonceCache.value fromAddr ≠ none → ∀ holder nonce,
      HoldsNonce shared positions fromAddr holder nonce →
        nonce < shared.account fromAddr) :
    NoncesKept
      { shared with nonceCache := shared.nonceCache.remove fromAddr }
      (Function.update positions worker (positions worker)) where
  tickets other := by
    by_cases here : other = fromAddr
    · subst here
      apply Tickets.Valid.forget
      intro holder nonce holds
      have before : HoldsNonce shared positions other holder nonce :=
        HoldsNonce.of_fewer (fun _ => id) holds
      by_contra usable
      obtain ⟨last, cached, _⟩ := (kept.tickets other).remembered holder nonce
        before (Nat.le_of_not_lt usable)
      have found : shared.nonceCache.value other = some last := cached
      exact usable (usedUp (by simp [found]) holder nonce before)
    · apply tickets_quiet (kept.tickets other)
      · rfl
      · rfl
      · exact Lru.value_remove_other here
      · exact fun _ => id
      · exact fun _ => id
  tables := kept.tables_taking rfl rfl rfl fun _ => id

theorem abort {position' : NoncePosition H}
    (phase : position'.phase = (positions worker).phase)
    (hands : ∀ taken, taken ∈ position'.hands →
      taken ∈ (positions worker).hands)
    (copies : ∀ copy, copy ∈ position'.copies →
      copy ∈ (positions worker).copies) :
    NoncesKept (shared.setDbTx worker none)
      (Function.update positions worker position') :=
  kept.quiet hands (fun _ _ => phase.symm.trans) copies nofun

theorem commit (opened : shared.dbTx worker = some changes) :
    NoncesKept
      { shared.setDbTx worker none with
        store := changes.foldl ClaimWrite.apply shared.store }
      (Function.update positions worker (positions worker).closed) := by
  rcases kept.tables.changes worker changes opened with
    rfl | ⟨write, rfl, _, fits⟩
  · exact kept.close (.inl rfl)
  · cases write with
    | add mTx now => exact kept.commit_add fits
    | update mTx now => exact kept.commit_update fits

theorem list (monitors : worker = .monitorTxs)
    (unwritten : (positions worker).written = false) {rollupID : Nat}
    {listed : List (MonitoredTx H) → List (MonitoredTx H)}
    (perm : ∀ rows, (listed rows).Perm rows) :
    NoncesKept shared (Function.update positions worker
      { positions worker with
        copies := shared.store.getClaimTxsByStatus [.created] rollupID
          listed }) where
  tickets fromAddr := by
    apply tickets_quiet (kept.tickets fromAddr) rfl rfl rfl
    · exact fun _ => id
    · exact fun _ => id
  tables := by
    subst monitors
    apply TablesFit.step kept.tables
    · exact kept.tables.keyed
    · rfl
    · exact nofun
    · exact fun _ _ => rfl
    · exact nofun
    · intro _ copy mem
      obtain ⟨stored, created, _⟩ :=
        (ClaimStore.mem_getClaimTxsByStatus perm).mp mem
      exact ⟨copy, stored, rfl, rfl, rfl, mem_singleton.mp created⟩
    · intro changes opened
      exact .inl (kept.tables.unwritten unwritten opened)

private theorem write {change : ClaimWrite H} {position' : NoncePosition H}
    (unwritten : (positions worker).written = false)
    (opened : shared.dbTx worker = some changes)
    (phase : position'.phase = (positions worker).phase)
    (hands : position'.hands = (positions worker).hands)
    (copies : ∀ copy, copy ∈ position'.copies →
      copy ∈ (positions worker).copies)
    (written : position'.written = true)
    (fits : WriteFits shared worker position' change) :
    NoncesKept (shared.setDbTx worker (some (changes ++ [change])))
      (Function.update positions worker position') := by
  refine kept.quiet (fun _ => hands ▸ id) (fun _ _ => phase.symm.trans)
    copies ?_
  intro changes' opened'
  rw [kept.tables.unwritten unwritten opened] at opened'
  exact .inr ⟨change, (Option.some.inj opened').symm, written, fits⟩

theorem insert {sender : Address} (now : Nat)
    (allowed : (positions worker).allowed (creator sender worker)
      (.addClaimTx mTx))
    (opened : shared.dbTx worker = some changes) :
    NoncesKept
      (shared.setDbTx worker (some (changes ++ [.add mTx now])))
      (Function.update positions worker
        { positions worker with written := true }) := by
  obtain ⟨creates, _, unwritten, created, hands⟩ := allowed
  apply kept.write unwritten opened
  · rfl
  · rfl
  · exact fun _ => id
  · rfl
  · refine ⟨creator_isSome creates, created, ?_⟩
    change _ ∈ (positions worker).hands
    rw [hands]
    exact mem_singleton.mpr rfl

theorem update {sender : Address} (now : Nat)
    (allowed : (positions worker).allowed (creator sender worker)
      (.updateClaimTx mTx))
    (opened : shared.dbTx worker = some changes) :
    NoncesKept
      (shared.setDbTx worker (some (changes ++ [.update mTx now])))
      (Function.update positions worker
        ((positions worker).track (.updateClaimTx mTx) (.ok ()))) := by
  obtain ⟨monitors, ready, copy, read, deposit, sender, nonce⟩ := allowed
  obtain rfl := creator_eq_none monitors
  obtain ⟨row, stored, deposit', sender', nonce', created⟩ :=
    kept.tables.copies copy read
  apply kept.write ready.written opened
  · rfl
  · rfl
  · exact fun _ mem => (mem_filter.mp mem).1
  · rfl
  · refine ⟨rfl, ⟨row, stored, deposit'.trans deposit,
      sender'.trans sender, created, ?_⟩, ?_⟩
    · rw [nonce']
      exact nonce
    · intro other mem
      simpa using (mem_filter.mp mem).2

theorem restart {creates : Option Address}
    (ready : (positions worker).Ready creates) :
    NoncesKept shared (Function.update positions worker
      (nonceProtocol H creates).start) where
  tickets fromAddr := by
    apply tickets_quiet (kept.tickets fromAddr) rfl rfl rfl
    · exact nofun
    · exact nofun
  tables := by
    apply TablesFit.quiet kept.tables rfl rfl (fun _ _ => rfl)
    · exact nofun
    · intro changes opened
      exact .inl (kept.tables.unwritten ready.written opened)

theorem move {account : Address → Nat} {deposit : List ClaimDeposit}
    (grows : ∀ fromAddr, shared.account fromAddr ≤ account fromAddr) :
    NoncesKept
      { shared with
        store := { shared.store with deposit := deposit }
        account := account } positions where
  tickets fromAddr := by
    apply (kept.tickets fromAddr).mono
    · exact grows fromAddr
    · rfl
    · exact fun _ => id
    · intro holder nonce holds
      cases holder with
      | row mTx => exact holds
      | goroutine worker => exact holds
  tables :=
    { keyed := kept.tables.keyed
      room := kept.tables.room
      creates := kept.tables.creates
      copies := kept.tables.copies
      changes := by
        intro worker changes opened
        rcases kept.tables.changes worker changes opened with
          nothing | ⟨write, single, written, fits⟩
        · exact .inl nothing
        · exact .inr ⟨write, single, written,
            fits.of_rows fun _ _ => id⟩ }

end

end NoncesKept

end BridgeService
