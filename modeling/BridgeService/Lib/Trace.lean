import Mathlib.Data.List.Basic

/-!
# Traces

The order in which two actions happen in a trace.
-/

namespace Trace

open List

variable {α : Type} {trace : List α} {first second action : α}

/-- Some occurrence of the first action comes before one of the second. -/
def Precedes (trace : List α) (first second : α) : Prop :=
  [first, second].Sublist trace

instance [DecidableEq α] (trace : List α) (first second : α) :
    Decidable (Precedes trace first second) :=
  inferInstanceAs (Decidable ([first, second].Sublist trace))

theorem Precedes.first_mem (precedes : Precedes trace first second) :
    first ∈ trace :=
  precedes.subset mem_cons_self

theorem Precedes.second_mem (precedes : Precedes trace first second) :
    second ∈ trace :=
  precedes.subset (mem_cons_of_mem first mem_cons_self)

theorem precedes_snoc :
    Precedes (trace ++ [action]) first second ↔
      Precedes trace first second ∨ first ∈ trace ∧ second = action := by
  constructor
  · intro precedes
    have reversed := reverse_sublist.mpr precedes
    simp only [reverse_cons, reverse_nil, nil_append,
      cons_append, reverse_append] at reversed
    cases reversed with
    | cons _ earlier =>
      left
      have restored := reverse_sublist.mpr earlier
      simpa [Precedes] using restored
    | cons_cons _ earlier =>
      right
      exact ⟨by simpa using earlier, rfl⟩
  · intro either
    rcases either with earlier | ⟨mem, rfl⟩
    · exact earlier.trans (sublist_append_left trace [action])
    · exact (singleton_sublist.mpr mem).append
        (List.Sublist.refl [second])

theorem precedes_snoc_of_ne (other : second ≠ action) :
    Precedes (trace ++ [action]) first second ↔
      Precedes trace first second := by
  simp [precedes_snoc, other]

end Trace
