import Mathlib.Data.List.Basic

/-!
# A cache that forgets the least recently used entry

The entries are kept in the order of their last use, the latest one first.
What a cache holds is always something that was added to it, so a property of
all added entries is a property of all entries.
-/

/-- Entries of a cache of a fixed size, in the order of their last use. -/
structure Lru (κ υ : Type) where
  size : Nat
  entries : List (κ × υ)

namespace Lru

open List

variable {κ υ : Type} [DecidableEq κ]

def get (cache : Lru κ υ) (key : κ) : Option (υ × Lru κ υ) :=
  match cache.entries.find? fun entry => entry.1 == key with
  | none => none
  | some entry =>
    some (entry.2,
      { cache with
        entries := entry :: cache.entries.filter fun other =>
          other.1 != key })

def add (cache : Lru κ υ) (key : κ) (value : υ) : Lru κ υ :=
  { cache with
    entries := ((key, value) :: cache.entries.filter fun other =>
      other.1 != key).take cache.size }

def remove (cache : Lru κ υ) (key : κ) : Lru κ υ :=
  { cache with
    entries := cache.entries.filter fun other => other.1 != key }

def value (cache : Lru κ υ) (key : κ) : Option υ :=
  (cache.entries.find? fun entry => entry.1 == key).map Prod.snd

def All (holds : κ → υ → Prop) (cache : Lru κ υ) : Prop :=
  ∀ key value, (key, value) ∈ cache.entries → holds key value

variable {holds : κ → υ → Prop} {cache : Lru κ υ}

theorem All.get {key : κ} {value : υ} {cache' : Lru κ υ}
    (all : cache.All holds) (found : cache.get key = some (value, cache')) :
    holds key value ∧ cache'.All holds := by
  rw [Lru.get] at found
  cases search : cache.entries.find? (fun entry => entry.1 == key) with
  | none =>
    simp [search] at found
  | some entry =>
    rw [search] at found
    simp only [Option.some.injEq, Prod.mk.injEq] at found
    obtain ⟨rfl, rfl⟩ := found
    have same : entry.1 = key := by
      simpa using find?_some search
    have stored : (key, entry.2) ∈ cache.entries := by
      rw [← same]
      exact mem_of_find?_eq_some search
    have here := all key entry.2 stored
    refine ⟨here, ?_⟩
    intro other value inside
    rcases mem_cons.mp inside with first | rest
    · rw [← first] at same here
      rw [← same] at here
      exact here
    · exact all other value (mem_filter.mp rest).1

theorem All.add {key : κ} {value : υ} (all : cache.All holds)
    (here : holds key value) : (cache.add key value).All holds := by
  intro other found inside
  rcases mem_cons.mp (mem_of_mem_take inside) with first | rest
  · obtain ⟨rfl, rfl⟩ := Prod.mk.inj first
    exact here
  · exact all other found (mem_filter.mp rest).1

section Value

variable {cache' : Lru κ υ} {key other : κ} {value : υ}

theorem get_eq_none (missing : cache.get key = none) :
    cache.value key = none := by
  rw [get] at missing
  rw [Lru.value]
  split at missing
  · next search => rw [search]; rfl
  · contradiction

private theorem find?_filter (different : other ≠ key) :
    ((cache.entries.filter fun entry => entry.1 != key).find?
      fun entry => entry.1 == other) =
        cache.entries.find? fun entry => entry.1 == other := by
  rw [List.find?_filter]
  congr 1
  funext entry
  by_cases same : entry.1 = other
  · simp [same, different]
  · simp [same]

theorem get_eq_some (found : cache.get key = some (value, cache')) :
    cache.value key = some value ∧ cache'.size = cache.size ∧
      cache'.value = cache.value := by
  rw [get] at found
  split at found
  · contradiction
  · next entry search =>
    simp only [Option.some.injEq, Prod.mk.injEq] at found
    obtain ⟨rfl, rfl⟩ := found
    have same : entry.1 = key := by
      simpa using find?_some search
    refine ⟨by rw [Lru.value, search]; rfl, rfl, ?_⟩
    funext other
    by_cases here : entry.1 = other
    · have asked : other = key := here.symm.trans same
      subst asked
      simp [Lru.value, search, here]
    · have different : other ≠ key := fun equal => here (by rw [same, equal])
      simp only [Lru.value, find?_cons, beq_eq_false_iff_ne.mpr here]
      rw [find?_filter different]

theorem value_add_self (room : 0 < cache.size) :
    (cache.add key value).value key = some value := by
  cases size : cache.size with
  | zero => omega
  | succ size => simp [Lru.value, add, size]

theorem value_add_other (different : other ≠ key)
    (room : (cache.entries.filter fun entry => entry.1 != key).length <
      cache.size) :
    (cache.add key value).value other = cache.value other := by
  have reverse : key ≠ other := Ne.symm different
  rw [Lru.value, add, take_of_length_le (Nat.succ_le_of_lt room)]
  simp only [find?_cons, beq_eq_false_iff_ne.mpr reverse]
  rw [find?_filter different, Lru.value]

theorem value_remove_other (different : other ≠ key) :
    (cache.remove key).value other = cache.value other := by
  rw [Lru.value, remove]
  simp only [find?_filter different, Lru.value]

end Value

end Lru
