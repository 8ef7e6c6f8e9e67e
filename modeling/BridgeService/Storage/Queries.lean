import BridgeService.Lib.ErrorState
import BridgeService.Storage.Statements

/-!
# What a statement does to the running service

A query leaves everything but the position in the run as it was.  It fails
only if the oracle says so or if the query itself fails on the tables it sees.
-/

namespace BridgeService

open ErrorState

variable {H α : Type}

namespace World

def Ticked (w w' : World H) : Prop :=
  ∃ tick, w' = { w with tick := tick }

theorem Ticked.refl (w : World H) : w.Ticked w := ⟨w.tick, rfl⟩

variable {w : World H}

def Faulty (w : World H) (call : StorageCall) (dbTx : Querier) : Prop :=
  ∃ tick, w.fault tick call dbTx = true

/-- The reads by which a tree is rebuilt from the tables of a querier never
fail. -/
structure QuietReads (w : World H) (dbTx : Querier) : Prop where
  getLastDepositCount : ¬w.Faulty .getLastDepositCount dbTx
  getRoot : ¬w.Faulty .getRoot dbTx
  get : ¬w.Faulty .get dbTx

theorem write_view {dbTx : Querier} {t : Tables H}
    (view : w.view dbTx = some t) : w.write dbTx w.seqs t = w := by
  cases dbTx with
  | pool =>
    have same : w.committed = t := Option.some.inj view
    rw [write, ← same]
  | tx =>
    have same : w.dbTx = some t := view
    rw [write, ← same]

theorem view_write {dbTx : Querier} {t : Tables H}
    (view : w.view dbTx = some t) (seqs : Sequences) (t' : Tables H) :
    (w.advance.write dbTx seqs t').view dbTx = some t' := by
  cases dbTx with
  | pool => rfl
  | tx => rfl

theorem view_advance (w : World H) (dbTx : Querier) :
    w.advance.view dbTx = w.view dbTx := by
  cases dbTx with
  | pool => rfl
  | tx => rfl

end World

namespace Storage

variable {call : StorageCall} {dbTx : Querier} {w w' : World H} {t : Tables H}
  {read : Tables H → Except Err α}

theorem exec_faulty
    {statement : Sequences → Tables H → Except Err (α × Sequences × Tables H)}
    (fault : w.fault w.tick call dbTx = true) :
    exec call dbTx statement w = .error .database w.advance := by
  rw [exec, if_pos fault]

theorem exec_view
    {statement : Sequences → Tables H → Except Err (α × Sequences × Tables H)}
    (noFault : w.fault w.tick call dbTx = false)
    (view : w.view dbTx = some t) :
    exec call dbTx statement w =
      match statement w.seqs t with
      | .error err => .error err w.advance
      | .ok (value, seqs, t) =>
        .ok value (w.advance.write dbTx seqs t) := by
  cases ran : statement w.seqs t with
  | error err => simp [exec, noFault, view, ran]
  | ok result => simp [exec, noFault, view, ran]

theorem exec_ok
    {statement : Sequences → Tables H → Except Err (α × Sequences × Tables H)}
    {value : α} (ran : exec call dbTx statement w = .ok value w') :
    ∃ t seqs t', w.view dbTx = some t ∧
      statement w.seqs t = .ok (value, seqs, t') ∧
      w' = w.advance.write dbTx seqs t' := by
  cases fault : w.fault w.tick call dbTx with
  | true =>
    rw [exec_faulty fault] at ran
    contradiction
  | false =>
    cases view : w.view dbTx with
    | none =>
      rw [exec, if_neg (by simp [fault]), view] at ran
      contradiction
    | some t =>
      rw [exec_view fault view] at ran
      cases result : statement w.seqs t with
      | error err =>
        simp [result] at ran
      | ok outcome =>
        obtain ⟨found, seqs, t'⟩ := outcome
        rw [result] at ran
        injection ran with sameValue sameState
        exact ⟨t, seqs, t', rfl, by rw [result, sameValue],
          sameState.symm⟩

theorem exec_error
    {statement : Sequences → Tables H → Except Err (α × Sequences × Tables H)}
    {err : Err} (ran : exec call dbTx statement w = .error err w') :
    w' = w.advance := by
  rw [exec] at ran
  split at ran
  · cases ran
    rfl
  · split at ran
    · cases ran
      rfl
    · split at ran
      · cases ran
        rfl
      · contradiction

theorem update_ok {change : Tables H → Except Err (Tables H)}
    (ran : update call dbTx change w = .ok () w') :
    ∃ t t', w.view dbTx = some t ∧ change t = .ok t' ∧
      w' = w.advance.write dbTx w.seqs t' := by
  obtain ⟨t, seqs, t', view, result, rfl⟩ := exec_ok ran
  obtain ⟨_, changed, ⟨⟩⟩ := answer_ok result
  exact ⟨t, t', view, changed, rfl⟩

theorem query_view (noFault : w.fault w.tick call dbTx = false)
    (view : w.view dbTx = some t) :
    query call dbTx read w =
      match read t with
      | .error err => .error err w.advance
      | .ok value => .ok value w.advance := by
  rw [query, exec_view noFault view]
  cases result : read t with
  | error err => rfl
  | ok value =>
    have same : w.advance.write dbTx w.seqs t = w.advance :=
      World.write_view (by cases dbTx <;> exact view)
    simp only [bind, Except.bind, pure, Except.pure, same]

theorem query_ok {value : α} (ran : query call dbTx read w = .ok value w') :
    ∃ t, w.view dbTx = some t ∧ read t = .ok value ∧ w' = w.advance := by
  obtain ⟨t, seqs, t', view, result, same⟩ := exec_ok ran
  obtain ⟨_, answer, ⟨⟩⟩ := answer_ok result
  refine ⟨t, view, answer, ?_⟩
  rw [same]
  exact World.write_view ((w.view_advance dbTx).trans view)

theorem query_triple {base : World H} (read : Tables H → Except Err α)
    (view : base.view dbTx = some t) :
    Triple base.Ticked (query call dbTx read)
      (fun value w => base.Ticked w ∧ read t = .ok value)
      (fun err w => base.Ticked w ∧
        (read t = .error err ∨ err = .database ∧ base.Faulty call dbTx)) := by
  rintro _ ⟨tick, rfl⟩
  have here : ({ base with tick := tick } : World H).view dbTx = some t := by
    cases dbTx <;> exact view
  cases fault : base.fault tick call dbTx with
  | true =>
    rw [query, exec_faulty fault]
    exact ⟨⟨tick + 1, rfl⟩, .inr ⟨rfl, tick, fault⟩⟩
  | false =>
    rw [query_view fault here]
    cases result : read t with
    | error err => exact ⟨⟨tick + 1, rfl⟩, .inl rfl⟩
    | ok value => exact ⟨⟨tick + 1, rfl⟩, rfl⟩

end Storage

end BridgeService
