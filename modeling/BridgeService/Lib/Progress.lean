import Mathlib.Algebra.Order.BigOperators.Group.Finset

/-!
# Progress along an endless run

A run is observed at the times `0, 1, 2, …`.  The rules say how one condition
leads to another one: by a helpful step that comes again and again, and by a
rank that drops, either of one thing or of finitely many things together.
-/

namespace Progress

/-- Whenever the first condition holds, the second holds then or later. -/
def LeadsTo (before after : Nat → Prop) : Prop :=
  ∀ time, before time → ∃ later, time ≤ later ∧ after later

def InfinitelyOften (event : Nat → Prop) : Prop :=
  ∀ time, ∃ later, time ≤ later ∧ event later

def Finally (event : Nat → Prop) : Prop :=
  ∃ start, ∀ time, start ≤ time → event time

variable {before after helpful : Nat → Prop}

theorem InfinitelyOften.and_finally {event other : Nat → Prop}
    (often : InfinitelyOften event) (lasting : Finally other) :
    InfinitelyOften fun time => event time ∧ other time := by
  intro time
  obtain ⟨start, always⟩ := lasting
  obtain ⟨later, after, here⟩ := often (max time start)
  have fromTime : time ≤ later := by omega
  have fromStart : start ≤ later := by omega
  exact ⟨later, fromTime, here, always later fromStart⟩

theorem leadsTo_of_helpful
    (stays : ∀ time, before time → before (time + 1) ∨ after (time + 1))
    (helps : ∀ time, before time → helpful time → after (time + 1))
    (often : InfinitelyOften helpful) : LeadsTo before after := by
  intro time start
  obtain ⟨later, order, help⟩ := often time
  have reached : ∀ steps, before (time + steps) ∨
      ∃ later, time ≤ later ∧ after later := by
    intro steps
    induction steps with
    | zero => exact .inl start
    | succ steps induction =>
      rcases induction with still | goal
      · rcases stays (time + steps) still with next | goal
        · exact .inl next
        · exact .inr ⟨_, by omega, goal⟩
      · exact .inr goal
  rcases reached (later - time) with still | goal
  · rw [Nat.add_sub_cancel' order] at still
    exact ⟨later + 1, by omega, helps later still help⟩
  · exact goal

theorem leadsTo_of_rank {stage : Nat → Nat → Prop}
    (drops : ∀ rank, LeadsTo (stage rank) fun time =>
      after time ∨ ∃ lower, lower < rank ∧ stage lower time) (rank : Nat) :
    LeadsTo (stage rank) after := by
  induction rank using Nat.strongRecOn with
  | ind rank induction =>
    intro time here
    obtain ⟨later, order, goal | ⟨lower, less, next⟩⟩ := drops rank time here
    · exact ⟨later, order, goal⟩
    · obtain ⟨last, order', goal⟩ := induction lower less later next
      exact ⟨last, Nat.le_trans order order', goal⟩

theorem reached_of_counters {ι : Type} (count : Nat → ι → Nat)
    (goal : Nat → Prop) (start : Nat) (counted : Finset ι)
    (support : ∀ i, count start i ≠ 0 → i ∈ counted)
    (falls : ∀ time, start ≤ time → ∀ i, count (time + 1) i ≤ count time i)
    (drops : ∀ time, start ≤ time → ∃ first last, time ≤ first ∧
      first ≤ last ∧ (goal last ∨ ∃ i, count last i < count first i)) :
    ∃ later, start ≤ later ∧ goal later := by
  have antitone : ∀ {time later : Nat} (i : ι), start ≤ time →
      time ≤ later → count later i ≤ count time i := by
    intro time later i from_start order
    induction later, order using Nat.le_induction with
    | base => exact le_rfl
    | succ later order induction =>
      exact Nat.le_trans (falls later (Nat.le_trans from_start order) i)
        induction
  have lowers : ∀ rank, LeadsTo
      (fun time => start ≤ time ∧ ∑ i ∈ counted, count time i = rank)
      (fun time => (start ≤ time ∧ goal time) ∨ ∃ lower, lower < rank ∧
        start ≤ time ∧ ∑ i ∈ counted, count time i = lower) := by
    rintro rank time ⟨from_start, rfl⟩
    obtain ⟨first, last, early, late, done⟩ := drops time from_start
    have order : time ≤ last := Nat.le_trans early late
    have later : start ≤ last := Nat.le_trans from_start order
    rcases done with goal | ⟨i, less⟩
    · exact ⟨last, order, .inl ⟨later, goal⟩⟩
    · have drop : count last i < count time i :=
        Nat.lt_of_lt_of_le less (antitone i from_start early)
      have counting : i ∈ counted := by
        apply support
        have above := antitone i (Nat.le_refl start) from_start
        omega
      have lower := Finset.sum_lt_sum
        (fun other _ => antitone other from_start order) ⟨i, counting, drop⟩
      exact ⟨last, order, .inr ⟨_, lower, later, rfl⟩⟩
  obtain ⟨later, _, here⟩ :=
    leadsTo_of_rank lowers _ start ⟨Nat.le_refl start, rfl⟩
  exact ⟨later, here⟩

end Progress
