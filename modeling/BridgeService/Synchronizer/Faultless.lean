import BridgeService.Synchronizer.Handlers
import BridgeService.Storage.Queries

/-!
# Statements that cannot fail by accident

When no call of the storage fails by itself, a statement fails only if its own
checks reject the tables.  The rules below follow the tables of the open
transaction; what a failure means is a proposition that the caller chooses, so
that the proposition `False` says that there is none.
-/

namespace BridgeService

open ErrorState List

variable {H α : Type}

namespace World

/-- No call of the storage fails by itself. -/
def Faultless (w : World H) : Prop :=
  ∀ tick call dbTx, w.fault tick call dbTx = false

def WithinTx (holds : Tables H → Prop) (w : World H) : Prop :=
  w.Faultless ∧ ∃ t, w.dbTx = some t ∧ holds t

def Committed (holds : Tables H → Prop) (w : World H) : Prop :=
  w.Faultless ∧ holds w.committed

end World

def Tables.HasBlock (t : Tables H) (blockID : Nat) (blockHash : H) : Prop :=
  ∃ row, row ∈ t.block ∧ row.id = blockID ∧ row.blockHash = blockHash

open World

variable {holds : Tables H → Prop} {fails : Prop}

theorem triple_inTx {program : Service H α} {after : α → World H → Prop}
    {failed : Err → World H → Prop}
    (known : ∀ t, holds t → Triple (WithinTx fun t' => t' = t) program after
      failed) : Triple (WithinTx holds) program after failed := by
  rintro w ⟨faultless, t, view, here⟩
  exact known t here w ⟨faultless, t, view, rfl⟩

namespace Storage

variable {call : StorageCall}

theorem exec_inTx
    {statement : Sequences → Tables H → Except Err (α × Sequences × Tables H)}
    {after : α → Tables H → Prop}
    (returned : ∀ seqs t value seqs' t', holds t →
      statement seqs t = .ok (value, seqs', t') → after value t')
    (raised : ∀ seqs t err, holds t → statement seqs t = .error err → fails) :
    Triple (WithinTx holds) (exec call .tx statement)
      (fun value => WithinTx (after value)) fun _ _ => fails := by
  rintro w ⟨faultless, t, view, here⟩
  have seen : w.view .tx = some t := view
  rw [exec_view (faultless _ _ _) seen]
  cases ran : statement w.seqs t with
  | error err => exact raised _ _ _ here ran
  | ok result =>
    obtain ⟨value, seqs', t'⟩ := result
    exact ⟨faultless, t', rfl, returned _ _ _ _ _ here ran⟩

theorem update_inTx {change : Tables H → Except Err (Tables H)}
    {after : Tables H → Prop}
    (returned : ∀ t t', holds t → change t = .ok t' → after t')
    (raised : ∀ t err, holds t → change t = .error err → fails) :
    Triple (WithinTx holds) (update call .tx change) (fun _ => WithinTx after)
      fun _ _ => fails := by
  apply exec_inTx
  · intro seqs t value seqs' t' here ran
    obtain ⟨_, changed, ⟨⟩⟩ := answer_ok ran
    exact returned t t' here changed
  · intro seqs t err here ran
    exact raised t err here (answer_error ran)

theorem query_inTx {read : Tables H → Except Err α}
    {after : α → Tables H → Prop}
    (returned : ∀ t value, holds t → read t = .ok value → after value t)
    (raised : ∀ t err, holds t → read t = .error err → fails) :
    Triple (WithinTx holds) (query call .tx read)
      (fun value => WithinTx (after value)) fun _ _ => fails := by
  apply exec_inTx
  · intro seqs t value seqs' t' here ran
    obtain ⟨_, answer, ⟨⟩⟩ := answer_ok ran
    exact returned t value here answer
  · intro seqs t err here ran
    exact raised t err here (answer_error ran)

theorem begin_inTx :
    Triple (Committed holds) (beginDBTransaction : Service H Unit)
      (fun _ => WithinTx holds) fun _ _ => fails := by
  rintro w ⟨faultless, here⟩
  rw [beginDBTransaction, if_neg (by simp [faultless _ _ _])]
  exact ⟨faultless, _, rfl, here⟩

theorem commit_inTx :
    Triple (WithinTx holds) (commit : Service H Unit) (fun _ => Committed holds)
      fun _ _ => fails := by
  rintro w ⟨faultless, t, view, here⟩
  simp only [commit, view, faultless w.tick .commit .tx]
  exact ⟨faultless, here⟩

theorem update_total {change : Tables H → Tables H} {t : Tables H} :
    Triple (WithinTx fun t' => t' = t)
      (update call .tx fun t => .ok (change t))
      (fun _ => WithinTx fun t' => t' = change t) fun _ _ => fails := by
  apply update_inTx
  · rintro _ t' rfl changed
    cases changed
    exact rfl
  · rintro _ err rfl changed
    contradiction

theorem addBlock_inTx [DecidableEq H] {after : Tables H → Prop}
    {block : Block H} {networkID : Nat}
    (kept : ∀ t, holds t → after t)
    (added : ∀ t row, holds t → after { t with block := t.block ++ [row] }) :
    Triple (WithinTx holds) (addBlock block networkID .tx)
      (fun blockID => WithinTx fun t =>
        after t ∧ t.HasBlock blockID block.blockHash)
      fun _ _ => fails := by
  apply exec_inTx
  · intro seqs t value seqs' t' here ran
    injection ran with same
    unfold insertBlock at same
    split at same
    · next row found =>
      injection same with id same
      cases same
      have hash := find?_some found
      exact ⟨kept t here, row, mem_of_find?_eq_some found, id,
        beq_iff_eq.mp hash⟩
    · injection same with id same
      cases same
      refine ⟨added t _ here, _, mem_append_right _
        (mem_singleton.mpr rfl), id, rfl⟩
  · intro seqs t err _ ran
    contradiction

end Storage

namespace ClientSynchronizer

variable [DecidableEq H] [Externals H] {s : ClientSynchronizer}

theorem rollback_fails (err : Err) {after : α → World H → Prop} :
    Triple (fun _ => fails) (s.rollback err) after fun _ _ => fails := by
  apply Triple.bind (.const _)
  intro _
  apply Triple.bind (.const _)
  intro _
  exact .throw fun _ failed => failed

theorem orRollback_fails {before : World H → Prop} {call : Service H α}
    {after : α → World H → Prop}
    (body : Triple before call after fun _ _ => fails) :
    Triple before (s.orRollback call) after fun _ _ => fails := by
  apply Triple.handle body
  intro err
  cases err with
  | panic => exact .throw fun _ failed => failed
  | _ => exact rollback_fails _

end ClientSynchronizer

end BridgeService
