import Mathlib.Logic.Basic

/-!
# Numbers that are handed out

Numbers are handed out to holders one after another, and the last one is
remembered.  Numbers below a floor are used up, and nothing is said about them.
A number is first offered and then taken.  The rules say which changes keep the
numbers of the holders different: passing a number on, offering a number beyond
the last one, taking an offered number while only larger ones are offered, and
forgetting the last number while no holder has a number that is not used up.
-/

namespace Tickets

structure State (ι : Type) where
  floor : Nat
  last : Option Nat
  holds : ι → Nat → Prop
  offered : Nat → Prop

/-- Numbers that are not used up have one holder, are not beyond the last one,
and come before every offered one. -/
structure Valid {ι : Type} (state : State ι) : Prop where
  distinct : ∀ i j number, state.holds i number → state.holds j number →
    state.floor ≤ number → i = j
  remembered : ∀ i number, state.holds i number → state.floor ≤ number →
    ∃ last, state.last = some last ∧ number ≤ last
  beyond : ∀ number, state.offered number →
    ∀ i held, state.holds i held → state.floor ≤ held → held < number

namespace Valid

variable {ι : Type} {state state' : State ι}

theorem pass (valid : Valid state) (origin : ι → ι → Prop)
    (floor : state.floor ≤ state'.floor) (last : state'.last = state.last)
    (offered : ∀ number, state'.offered number → state.offered number)
    (moved : ∀ i number, state'.holds i number →
      ∃ j, origin i j ∧ state.holds j number)
    (injective : ∀ i i' j, origin i j → origin i' j → i = i') :
    Valid state' := by
  constructor
  · intro i i' number here there usable
    obtain ⟨j, from_j, before⟩ := moved i number here
    obtain ⟨j', from_j', before'⟩ := moved i' number there
    have same := valid.distinct j j' number before before'
      (Nat.le_trans floor usable)
    rw [← same] at from_j'
    exact injective i i' j from_j from_j'
  · intro i number here usable
    obtain ⟨j, _, before⟩ := moved i number here
    rw [last]
    exact valid.remembered j number before (Nat.le_trans floor usable)
  · intro number offer i held here usable
    obtain ⟨j, _, before⟩ := moved i held here
    exact valid.beyond number (offered number offer) j held before
      (Nat.le_trans floor usable)

theorem mono (valid : Valid state) (floor : state.floor ≤ state'.floor)
    (last : state'.last = state.last)
    (offered : ∀ number, state'.offered number → state.offered number)
    (fewer : ∀ i number, state'.holds i number → state.holds i number) :
    Valid state' := by
  apply valid.pass Eq floor last offered
  · exact fun i number here => ⟨i, rfl, fewer i number here⟩
  · rintro i _ _ rfl rfl
    rfl

theorem offer (valid : Valid state) {next : Nat}
    (larger : ∀ last, state.last = some last → last < next)
    (floor : state'.floor = state.floor) (last : state'.last = state.last)
    (offered : ∀ number, state'.offered number →
      state.offered number ∨ number = next)
    (same : ∀ i number, state'.holds i number → state.holds i number) :
    Valid state' := by
  constructor
  · intro i j number here there usable
    rw [floor] at usable
    exact valid.distinct i j number (same i number here)
      (same j number there) usable
  · intro i number here usable
    rw [floor] at usable
    rw [last]
    exact valid.remembered i number (same i number here) usable
  · intro number offer i held here usable
    rw [floor] at usable
    rcases offered number offer with before | rfl
    · exact valid.beyond number before i held (same i held here) usable
    · obtain ⟨last, known, bound⟩ :=
        valid.remembered i held (same i held here) usable
      exact Nat.lt_of_le_of_lt bound (larger last known)

theorem take (valid : Valid state) {taker : ι} {taken : Nat}
    (offered : state.offered taken) (floor : state'.floor = state.floor)
    (last : state'.last = some taken)
    (later : ∀ number, state'.offered number → state.offered number ∧
      (state.floor ≤ taken → taken < number))
    (holds : ∀ i number, state'.holds i number →
      state.holds i number ∨ i = taker ∧ number = taken) :
    Valid state' := by
  have smaller := valid.beyond taken offered
  constructor
  · intro i j number here there usable
    rw [floor] at usable
    rcases holds i number here with before | ⟨rfl, rfl⟩
    · rcases holds j number there with before' | ⟨rfl, rfl⟩
      · exact valid.distinct i j number before before' usable
      · exact absurd (smaller i number before usable) (Nat.lt_irrefl number)
    · rcases holds j number there with before' | ⟨rfl, _⟩
      · exact absurd (smaller j number before' usable) (Nat.lt_irrefl number)
      · rfl
  · intro i number here usable
    rw [floor] at usable
    refine ⟨taken, last, ?_⟩
    rcases holds i number here with before | ⟨_, rfl⟩
    · exact Nat.le_of_lt (smaller i number before usable)
    · exact Nat.le_refl number
  · intro number offer i held here usable
    rw [floor] at usable
    obtain ⟨before, larger⟩ := later number offer
    rcases holds i held here with old | ⟨_, rfl⟩
    · exact valid.beyond number before i held old usable
    · exact larger usable

theorem forget (usedUp : ∀ i number, state.holds i number →
      number < state.floor) : Valid state := by
  constructor
  · intro i j number here _ usable
    exact absurd usable (Nat.not_le_of_lt (usedUp i number here))
  · intro i number here usable
    exact absurd usable (Nat.not_le_of_lt (usedUp i number here))
  · intro _ _ i held here usable
    exact absurd usable (Nat.not_le_of_lt (usedUp i held here))

end Valid

end Tickets
