import Mathlib.Data.List.Nodup
import Mathlib.Data.List.Perm.Basic

/-!
# Items of several kinds, one list for each kind

A sequence of items is stored as one list for each kind, next to entries that
name the kind of every item and its position in the list of that kind.  Walking
the entries gives the sequence back.  Entries of one sequence can be followed
in the lists of another one if the latter has at least as many items of every
kind.  If the numbers are the same, every item is met once.
-/

namespace Interleaving

open List

variable {α τ : Type} [DecidableEq τ]

def slice (kind : α → τ) (items : List α) (sort : τ) : List α :=
  items.filter fun item => kind item = sort

def entriesAfter (kind : α → τ) (earlier : List α) :
    List α → List (τ × Nat)
  | [] => []
  | item :: rest =>
    (kind item, (slice kind earlier (kind item)).length) ::
      entriesAfter kind (earlier ++ [item]) rest

/-- Kind of every item and its position among the items of that kind. -/
def entries (kind : α → τ) (items : List α) : List (τ × Nat) :=
  entriesAfter kind [] items

def lookup (kind : α → τ) (items : List α) (entry : τ × Nat) : Option α :=
  (slice kind items entry.1)[entry.2]?

section Walk

variable {kind : α → τ}

@[simp] theorem slice_nil (sort : τ) : slice kind [] sort = [] := rfl

theorem slice_append (first second : List α) (sort : τ) :
    slice kind (first ++ second) sort =
      slice kind first sort ++ slice kind second sort := by
  simp [slice]

theorem slice_singleton_self (item : α) :
    slice kind [item] (kind item) = [item] := by
  simp [slice]

variable {sort : τ} {items others : List α}

theorem slice_singleton_of_ne {item : α} (different : kind item ≠ sort) :
    slice kind [item] sort = [] := by
  simp [slice, different]

theorem entriesAfter_concat (earlier items : List α) (item : α) :
    entriesAfter kind earlier (items ++ [item]) =
      entriesAfter kind earlier items ++
        [(kind item, (slice kind (earlier ++ items) (kind item)).length)] := by
  induction items generalizing earlier with
  | nil => simp [entriesAfter]
  | cons first rest induction =>
    rw [cons_append, entriesAfter, entriesAfter, induction]
    simp

theorem entries_concat (items : List α) (item : α) :
    entries kind (items ++ [item]) = entries kind items ++
      [(kind item, (slice kind items (kind item)).length)] :=
  entriesAfter_concat [] items item

theorem lookup_middle (earlier later : List α) (item : α) :
    lookup kind (earlier ++ item :: later)
      (kind item, (slice kind earlier (kind item)).length) = some item := by
  have split : earlier ++ item :: later = earlier ++ ([item] ++ later) := rfl
  rw [lookup, split, slice_append, slice_append, slice_singleton_self]
  simp

theorem walk_entriesAfter (earlier items later : List α) :
    (entriesAfter kind earlier items).map
      (lookup kind (earlier ++ items ++ later)) = items.map some := by
  induction items generalizing earlier with
  | nil => rfl
  | cons item rest induction =>
    have tail := induction (earlier ++ [item])
    have shape : earlier ++ item :: rest ++ later =
        earlier ++ [item] ++ rest ++ later := by simp
    have here : lookup kind (earlier ++ item :: rest ++ later)
        (kind item, (slice kind earlier (kind item)).length) =
          some item := by
      rw [append_assoc, cons_append]
      exact lookup_middle earlier (rest ++ later) item
    rw [entriesAfter, map_cons, here, shape, tail, map_cons]

theorem walk_entries (items : List α) :
    (entries kind items).map (lookup kind items) = items.map some := by
  have walk : (entriesAfter kind [] items).map
      (lookup kind ([] ++ items ++ [])) = items.map some :=
    walk_entriesAfter [] items []
  rwa [nil_append, append_nil] at walk

theorem mem_entriesAfter {earlier : List α} {position : Nat} :
    (sort, position) ∈ entriesAfter kind earlier items ↔
      (slice kind earlier sort).length ≤ position ∧
        position < (slice kind earlier sort).length +
          (slice kind items sort).length := by
  induction items generalizing earlier with
  | nil =>
    simp only [entriesAfter, not_mem_nil, slice_nil, length_nil,
      false_iff]
    omega
  | cons item rest induction =>
    have shape : item :: rest = [item] ++ rest := rfl
    rw [entriesAfter, mem_cons, induction, shape, slice_append,
      slice_append, Prod.mk.injEq]
    by_cases same : kind item = sort
    · subst same
      rw [slice_singleton_self]
      simp only [length_append, length_singleton, true_and]
      omega
    · rw [slice_singleton_of_ne same]
      simp [Ne.symm same]

theorem mem_entries {position : Nat} :
    (sort, position) ∈ entries kind items ↔
      position < (slice kind items sort).length := by
  simp [entries, mem_entriesAfter]

theorem nodup_entriesAfter (earlier items : List α) :
    (entriesAfter kind earlier items).Nodup := by
  induction items generalizing earlier with
  | nil => exact nodup_nil
  | cons item rest induction =>
    rw [entriesAfter, nodup_cons]
    refine ⟨?_, induction _⟩
    rw [mem_entriesAfter, slice_append, slice_singleton_self,
      length_append, length_singleton]
    omega

theorem walkable_iff :
    (∀ entry, entry ∈ entries kind items →
        (lookup kind others entry).isSome = true) ↔
      ∀ sort, (slice kind items sort).length ≤
        (slice kind others sort).length := by
  simp only [lookup, isSome_getElem?]
  constructor
  · intro found sort
    by_contra more
    have missing := found (sort, (slice kind others sort).length)
      (mem_entries.mpr (by omega))
    simp at missing
  · intro enough entry mem
    have inside := mem_entries.mp mem
    have bound := enough entry.1
    omega

theorem walk_perm
    (same : ∀ sort, (slice kind items sort).length =
      (slice kind others sort).length) :
    ((entries kind items).map (lookup kind others)).Perm
      (others.map some) := by
  have entriesPerm : (entries kind items).Perm (entries kind others) := by
    apply (perm_ext_iff_of_nodup (nodup_entriesAfter [] items)
      (nodup_entriesAfter [] others)).mpr
    rintro ⟨sort, position⟩
    change (sort, position) ∈ entries kind items ↔
      (sort, position) ∈ entries kind others
    rw [mem_entries, mem_entries, same]
  have walk : (entries kind others).map (lookup kind others) =
      others.map some := walk_entries others
  rw [← walk]
  exact entriesPerm.map _

/-- The items that the entries of one sequence meet in another one. -/
def pass (kind : α → τ) (items others : List α) : List α :=
  (entries kind items).filterMap (lookup kind others)

theorem map_pass
    (enough : ∀ sort, (slice kind items sort).length ≤
      (slice kind others sort).length) :
    (entries kind items).map (lookup kind others) =
      (pass kind items others).map some := by
  have found := walkable_iff.mpr enough
  rw [pass]
  generalize entries kind items = followed at found
  induction followed with
  | nil => rfl
  | cons entry rest induction =>
    obtain ⟨item, here⟩ := Option.isSome_iff_exists.mp
      (found entry mem_cons_self)
    rw [map_cons, here, filterMap_cons_some here, map_cons,
      induction fun other inside =>
        found other (mem_cons_of_mem _ inside)]

theorem pass_perm
    (same : ∀ sort, (slice kind items sort).length =
      (slice kind others sort).length) :
    (pass kind items others).Perm others := by
  have walk := walk_perm same
  rw [map_pass fun sort => Nat.le_of_eq (same sort)] at walk
  exact (map_perm_map_iff fun _ _ => Option.some.inj).mp walk

theorem pass_self (items : List α) : pass kind items items = items := by
  have walk : (entries kind items).map (lookup kind items) =
      items.map some := walk_entries items
  rw [map_pass fun sort => Nat.le_refl _] at walk
  exact map_injective_iff.mpr (fun _ _ => Option.some.inj) walk

end Walk

end Interleaving
