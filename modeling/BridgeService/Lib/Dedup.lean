import Mathlib.Data.List.Nodup

/-!
# Histories without repetitions

A value that changes step by step is kept as a history in which every value
is stored once; the last stored value counts as the current one.  The history
follows the value exactly as long as the value does not come back to an
earlier one after it has left it.
-/

namespace Dedup

open List

variable {α β : Type} [DecidableEq α]

def record (history : List α) (value : α) : List α :=
  if value ∈ history then history else history ++ [value]

def current (start : α) (history : List α) : α :=
  history.getLast?.getD start

def run (step : α → β → α) (start : α) (history : List α)
    (inputs : List β) : List α :=
  inputs.foldl
    (fun history input => record history (step (current start history) input))
    history

section Record

variable {history : List α} {value : α}

theorem record_ne_nil : record history value ≠ [] := by
  rw [record]
  split
  · next known => exact ne_nil_of_mem known
  · exact append_ne_nil_of_right_ne_nil _ (cons_ne_nil _ _)

theorem le_record : history <+: record history value := by
  rw [record]
  split
  · exact prefix_refl history
  · exact prefix_append history [value]

theorem nodup_record (distinct : history.Nodup) :
    (record history value).Nodup := by
  rw [record]
  split
  · exact distinct
  · next unknown =>
    rw [nodup_append]
    refine ⟨distinct, nodup_singleton value, ?_⟩
    intro old oldIn new newIn same
    rw [mem_singleton.mp newIn] at same
    exact unknown (same ▸ oldIn)

omit [DecidableEq α] in
theorem eq_of_last_eq {longer : List α} (start : α)
    (grown : history <+: longer) (distinct : longer.Nodup)
    (nonempty : history ≠ [])
    (same : current start history = current start longer) :
    history = longer := by
  obtain ⟨rest, rfl⟩ := grown
  rcases eq_nil_or_concat rest with rfl | ⟨middle, last, rfl⟩
  · rw [append_nil]
  · rw [concat_eq_append] at distinct same
    have ends : current start (history ++ (middle ++ [last])) = last := by
      simp [current, ← append_assoc]
    have lastIn : last ∈ history := by
      rw [ends, current, getLast?_eq_some_getLast nonempty,
        Option.getD_some] at same
      rw [← same]
      exact getLast_mem nonempty
    have apart := (nodup_append.mp distinct).2.2 last lastIn last
      (mem_append_right _ mem_cons_self)
    exact absurd rfl apart

end Record

section Run

variable {step : α → β → α} {start : α}

theorem run_append (history : List α) (first second : List β) :
    run step start history (first ++ second) =
      run step start (run step start history first) second := by
  rw [run, foldl_append]
  rfl

theorem run_snoc (inputs : List β) (input : β) :
    run step start [] (inputs ++ [input]) = record (run step start [] inputs)
        (step (current start (run step start [] inputs)) input) :=
  run_append [] inputs [input]

theorem le_run (history : List α) (inputs : List β) :
    history <+: run step start history inputs := by
  induction inputs generalizing history with
  | nil => exact prefix_refl history
  | cons input rest induction =>
    exact le_record.trans (induction _)

theorem nodup_run {history : List α} (distinct : history.Nodup)
    (inputs : List β) : (run step start history inputs).Nodup := by
  induction inputs generalizing history with
  | nil => exact distinct
  | cons input rest induction => exact induction (nodup_record distinct)

end Run

section Follows

variable (step : α → β → α) (start : α) (inputs : List β)

omit [DecidableEq α] in
def after (count : Nat) : α :=
  (inputs.take count).foldl step start

omit [DecidableEq α] in
/-- A value that is equal to an earlier one has not changed in between. -/
def NeverReturns : Prop :=
  ∀ i j k, 0 < i → i ≤ j → j ≤ k → k ≤ inputs.length →
    after step start inputs i = after step start inputs k →
    after step start inputs j = after step start inputs k

variable {step start inputs}

omit [DecidableEq α] in
theorem after_succ {count : Nat} (inside : count < inputs.length) :
    after step start inputs (count + 1) =
      step (after step start inputs count) inputs[count] := by
  rw [after, take_succ_eq_append_getElem inside, foldl_append]
  rfl

private theorem follows (never : NeverReturns step start inputs)
    {count : Nat} (inside : count ≤ inputs.length) :
    current start (run step start [] (inputs.take count)) =
        after step start inputs count ∧
      ∀ value, value ∈ run step start [] (inputs.take count) →
        ∃ i, 0 < i ∧ i ≤ count ∧ after step start inputs i = value := by
  induction count with
  | zero => exact ⟨rfl, nofun⟩
  | succ count induction =>
    obtain ⟨here, earlier⟩ := induction (by omega)
    have next : after step start inputs (count + 1) =
        step (after step start inputs count) inputs[count] :=
      after_succ inside
    rw [take_succ_eq_append_getElem inside, run_snoc, here, ← next,
      record]
    split
    · next known =>
      obtain ⟨i, positive, bound, same⟩ := earlier _ known
      have stays := never i count (count + 1) positive bound
        (Nat.le_succ count) inside same
      refine ⟨here.trans stays, ?_⟩
      intro value mem
      obtain ⟨i, positive, bound, same⟩ := earlier value mem
      exact ⟨i, positive, by omega, same⟩
    · refine ⟨by simp [current], ?_⟩
      intro value mem
      rcases mem_append.mp mem with old | new
      · obtain ⟨i, positive, bound, same⟩ := earlier value old
        exact ⟨i, positive, by omega, same⟩
      · exact ⟨count + 1, by omega, Nat.le_refl _,
          (mem_singleton.mp new).symm⟩

private theorem run_take_le {i k : Nat} (bound : i ≤ k) :
    run step start [] (inputs.take i) <+:
      run step start [] (inputs.take k) := by
  have split : inputs.take k =
      inputs.take i ++ (inputs.take k).drop i := by
    have early : (inputs.take k).take i = inputs.take i := by
      rw [take_take, Nat.min_eq_left bound]
    rw [← early, take_append_drop]
  rw [split, run_append]
  exact le_run _ _

theorem run_take_ne_nil {i : Nat} (positive : 0 < i)
    (inside : i ≤ inputs.length) :
    run step start [] (inputs.take i) ≠ [] := by
  cases i with
  | zero => contradiction
  | succ count =>
    rw [take_succ_eq_append_getElem inside, run_snoc]
    exact record_ne_nil

theorem follows_iff :
    (∀ count, 0 < count → count ≤ inputs.length →
      current start (run step start [] (inputs.take count)) =
        after step start inputs count) ↔
      NeverReturns step start inputs := by
  constructor
  · intro current_eq i j k positive early late inside same
    have whole : run step start [] (inputs.take i) =
        run step start [] (inputs.take k) := by
      apply eq_of_last_eq start (run_take_le (by omega))
        (nodup_run nodup_nil _) (run_take_ne_nil positive (by omega))
      rw [current_eq i positive (by omega),
        current_eq k (by omega) inside, same]
    have middle : run step start [] (inputs.take j) =
        run step start [] (inputs.take k) := by
      apply (run_take_le late).eq_of_length_le
      rw [← whole]
      exact (run_take_le early).length_le
    rw [← current_eq j (by omega) (by omega), middle,
      current_eq k (by omega) inside]
  · intro never count _ inside
    exact (follows never inside).1

end Follows

end Dedup
