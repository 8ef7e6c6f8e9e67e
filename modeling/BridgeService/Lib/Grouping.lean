import BridgeService.Lib.Rows
import Mathlib.Data.List.Induction

/-!
# Groups of consecutive items

Items with keys are read one after the other.  An item goes to the last group
if the key is the same, and opens a new group otherwise.  If the items of every
key stand together, there is one group for every key, and it has all items of
that key.
-/

namespace Grouping

open List

variable {κ α : Type}

structure Group (κ α : Type) where
  key : κ
  items : List α
deriving DecidableEq

def add [DecidableEq κ] (groups : List (Group κ α)) (key : κ) (item : α) :
    List (Group κ α) :=
  match groups.getLast? with
  | none => [⟨key, [item]⟩]
  | some last =>
    if last.key = key then
      groups.dropLast ++ [⟨key, last.items ++ [item]⟩]
    else
      groups ++ [⟨key, [item]⟩]

def groups [DecidableEq κ] (items : List (κ × α)) : List (Group κ α) :=
  items.foldl (fun groups item => add groups item.1 item.2) []

/-- Items of one key stand together: between two of them there is no other. -/
def Contiguous (keys : List κ) : Prop :=
  ∀ last, last < keys.length → ∀ middle, middle < last →
    ∀ first, first < middle → keys[first]? = keys[last]? →
      keys[middle]? = keys[first]?

instance [DecidableEq κ] (keys : List κ) : Decidable (Contiguous keys) :=
  inferInstanceAs (Decidable (∀ last, last < keys.length →
    ∀ middle, middle < last → ∀ first, first < middle →
      keys[first]? = keys[last]? → keys[middle]? = keys[first]?))

section Reading

variable [DecidableEq κ]

@[simp] theorem groups_nil : groups ([] : List (κ × α)) = [] := rfl

theorem groups_concat (items : List (κ × α)) (key : κ) (item : α) :
    groups (items ++ [(key, item)]) = add (groups items) key item := by
  simp [groups]

@[simp] theorem add_nil (key : κ) (item : α) :
    add [] key item = [⟨key, [item]⟩] := rfl

theorem add_same (earlier : List (Group κ α)) (key : κ) (items : List α)
    (item : α) :
    add (earlier ++ [⟨key, items⟩]) key item =
      earlier ++ [⟨key, items ++ [item]⟩] := by
  simp [add]

theorem add_other (earlier : List (Group κ α)) {last : Group κ α} {key : κ}
    (different : last.key ≠ key) (item : α) :
    add (earlier ++ [last]) key item =
      earlier ++ [last] ++ [⟨key, [item]⟩] := by
  simp [add, different]

theorem groups_concat_cases (items : List (κ × α)) (key : κ) (item : α) :
    (groups items = [] ∧ groups (items ++ [(key, item)]) = [⟨key, [item]⟩]) ∨
      (∃ earlier old, groups items = earlier ++ [⟨key, old⟩] ∧
        groups (items ++ [(key, item)]) = earlier ++ [⟨key, old ++ [item]⟩]) ∨
      ∃ earlier last, last.key ≠ key ∧ groups items = earlier ++ [last] ∧
        groups (items ++ [(key, item)]) =
          groups items ++ [⟨key, [item]⟩] := by
  rw [groups_concat]
  rcases eq_nil_or_concat (groups items) with empty |
    ⟨earlier, last, shape⟩
  · exact .inl ⟨empty, by rw [empty, add_nil]⟩
  · rw [concat_eq_append] at shape
    right
    by_cases same : last.key = key
    · subst same
      exact .inl ⟨earlier, last.items, shape, by
        rw [shape]
        exact add_same earlier last.key last.items item⟩
    · exact .inr ⟨earlier, last, same, shape, by
        rw [shape, add_other earlier same]⟩

theorem flatMap_groups (items : List (κ × α)) :
    ((groups items).flatMap fun group =>
      group.items.map fun item => (group.key, item)) = items := by
  induction items using List.reverseRecOn with
  | nil => rfl
  | append_singleton items item induction =>
    obtain ⟨key, item⟩ := item
    rcases groups_concat_cases items key item with ⟨before, after⟩ |
      ⟨earlier, old, before, after⟩ | ⟨earlier, last, _, before, after⟩
    · rw [before] at induction
      rw [after, ← induction]
      rfl
    · rw [before] at induction
      rw [after, ← induction]
      simp
    · rw [after, flatMap_append, induction]
      rfl

theorem groups_map {β : Type} (change : α → β) (items : List (κ × α)) :
    groups (items.map fun item => (item.1, change item.2)) =
      (groups items).map fun group =>
        ⟨group.key, group.items.map change⟩ := by
  induction items using List.reverseRecOn with
  | nil => rfl
  | append_singleton items item induction =>
    obtain ⟨key, item⟩ := item
    rw [map_append, map_singleton, groups_concat, induction]
    rcases groups_concat_cases items key item with ⟨before, after⟩ |
      ⟨earlier, old, before, after⟩ |
      ⟨earlier, last, different, before, after⟩
    · rw [before, after]
      rfl
    · rw [before, after, map_append, map_singleton, add_same]
      simp
    · rw [after, before, map_append, map_singleton, add_other]
      · simp
      · exact different

theorem items_ne_nil {items : List (κ × α)} {group : Group κ α}
    (mem : group ∈ groups items) : group.items ≠ [] := by
  induction items using List.reverseRecOn with
  | nil => contradiction
  | append_singleton items item induction =>
    obtain ⟨key, item⟩ := item
    rcases groups_concat_cases items key item with ⟨before, after⟩ |
      ⟨earlier, old, before, after⟩ | ⟨earlier, last, _, before, after⟩
    · rw [after, mem_singleton] at mem
      simp [mem]
    · rw [after, mem_append, mem_singleton] at mem
      rcases mem with first | rfl
      · apply induction
        rw [before]
        exact mem_append_left _ first
      · simp
    · rw [after, mem_append, mem_singleton] at mem
      rcases mem with first | rfl
      · exact induction first
      · simp

theorem keys_sublist (items : List (κ × α)) :
    ((groups items).map Group.key).Sublist (items.map Prod.fst) := by
  induction items using List.reverseRecOn with
  | nil => exact List.Sublist.refl _
  | append_singleton items item induction =>
    obtain ⟨key, item⟩ := item
    rcases groups_concat_cases items key item with ⟨before, after⟩ |
      ⟨earlier, old, before, after⟩ | ⟨earlier, last, _, before, after⟩
    · rw [after]
      simp
    · rw [before] at induction
      have longer := sublist_append_left (items.map Prod.fst) [key]
      rw [after]
      simpa using induction.trans longer
    · rw [after, map_append, map_append]
      exact induction.append (List.Sublist.refl _)

theorem mem_keys {items : List (κ × α)} {key : κ} :
    key ∈ (groups items).map Group.key ↔ key ∈ items.map Prod.fst := by
  constructor
  · intro mem
    exact (keys_sublist items).subset mem
  · intro mem
    rw [← flatMap_groups items] at mem
    simp only [map_flatMap, mem_flatMap, map_map,
      mem_map, Function.comp_apply] at mem
    obtain ⟨group, inside, _, _, rfl⟩ := mem
    exact mem_map_of_mem inside

end Reading

section Contiguous

variable {keys : List κ} {key : κ} {items : List (κ × α)}

theorem Contiguous.dropLast (contiguous : Contiguous (keys ++ [key])) :
    Contiguous keys := by
  intro last inside middle before first earlier same
  have whole := contiguous last (by simp; omega) middle before first earlier
  rw [getElem?_append_left (by omega),
    getElem?_append_left (by omega),
    getElem?_append_left (by omega)] at whole
  exact whole same

theorem Contiguous.fresh {last : κ}
    (contiguous : Contiguous (keys ++ [last] ++ [key]))
    (different : last ≠ key) : key ∉ keys ++ [last] := by
  intro mem
  rcases mem_append.mp mem with earlier | here
  · obtain ⟨first, inside, rfl⟩ := getElem_of_mem earlier
    have back := contiguous (keys.length + 1) (by simp) keys.length
      (by omega) first inside
    have here : (keys ++ [last] ++ [keys[first]])[first]? =
        some keys[first] := by
      rw [append_assoc, getElem?_append_left inside]
      exact getElem?_eq_getElem inside
    rw [here] at back
    simp at back
    exact different back
  · exact different (mem_singleton.mp here).symm

variable [DecidableEq κ]

theorem last_key {earlier : List (Group κ α)} {last : Group κ α}
    (shape : groups items = earlier ++ [last]) :
    ∃ rest item, items = rest ++ [(last.key, item)] := by
  rcases eq_nil_or_concat items with rfl | ⟨rest, ⟨key, item⟩, rfl⟩
  · simp at shape
  · rw [concat_eq_append] at shape ⊢
    refine ⟨rest, item, ?_⟩
    rcases groups_concat_cases rest key item with ⟨_, after⟩ |
      ⟨_, old, _, after⟩ | ⟨_, _, _, _, after⟩
    · rw [after] at shape
      obtain ⟨_, same⟩ := append_inj' ((nil_append _).trans shape) rfl
      obtain rfl := singleton_inj.mp same
      rfl
    · rw [after] at shape
      obtain ⟨_, same⟩ := append_inj' shape rfl
      obtain rfl := singleton_inj.mp same
      rfl
    · rw [after] at shape
      obtain ⟨_, same⟩ := append_inj' shape rfl
      obtain rfl := singleton_inj.mp same
      rfl

theorem nodup_keys (contiguous : Contiguous (items.map Prod.fst)) :
    ((groups items).map Group.key).Nodup := by
  induction items using List.reverseRecOn with
  | nil => exact nodup_nil
  | append_singleton items item induction =>
    obtain ⟨key, item⟩ := item
    rw [map_append] at contiguous
    have distinct := induction contiguous.dropLast
    rcases groups_concat_cases items key item with ⟨before, after⟩ |
      ⟨earlier, old, before, after⟩ |
      ⟨earlier, last, different, before, after⟩
    · rw [after]
      simp
    · rw [before] at distinct
      rw [after]
      simpa using distinct
    · rw [after, map_append]
      apply List.Nodup.append distinct (nodup_singleton _)
      intro other mem here
      obtain rfl := mem_singleton.mp here
      obtain ⟨rest, lastItem, rfl⟩ := last_key before
      rw [map_append] at contiguous
      apply contiguous.fresh different
      simpa using mem_keys.mp mem

theorem group_items (contiguous : Contiguous (items.map Prod.fst))
    {group : Group κ α} (mem : group ∈ groups items) :
    group.items = (items.filter fun item => item.1 = group.key).map
      Prod.snd := by
  have alone := Rows.filter_key (nodup_keys contiguous) mem
  have whole : ∀ other, other ∈ groups items → ∀ item : κ × α,
      item ∈ other.items.map (fun item => (other.key, item)) →
        decide (item.1 = group.key) = (other.key == group.key) := by
    intro other _ item inside
    obtain ⟨_, _, rfl⟩ := mem_map.mp inside
    rfl
  have kept := Rows.filter_flatMap whole
  rw [flatMap_groups, alone] at kept
  rw [kept]
  simp

omit [DecidableEq κ] in
theorem Contiguous.replicate_append (contiguous : Contiguous keys)
    (fresh : key ∉ keys) (count : Nat) :
    Contiguous (List.replicate count key ++ keys) := by
  intro last inside middle before first earlier same
  rw [length_append, length_replicate] at inside
  have constant : ∀ index, index < count →
      (List.replicate count key ++ keys)[index]? = some key := by
    intro index below
    rw [getElem?_append_left (by simpa using below),
      getElem?_replicate, if_pos below]
  have shifted : ∀ index, count ≤ index →
      (List.replicate count key ++ keys)[index]? = keys[index - count]? := by
    intro index above
    rw [getElem?_append_right (by simpa using above),
      length_replicate]
  by_cases short : middle < count
  · rw [constant middle short, constant first (by omega)]
  · rw [shifted last (by omega)] at same
    by_cases early : first < count
    · rw [constant first early] at same
      exact absurd (mem_of_getElem? same.symm) fresh
    · rw [shifted first (by omega)] at same
      rw [shifted middle (by omega), shifted first (by omega)]
      exact contiguous (last - count) (by omega) (middle - count) (by omega)
        (first - count) (by omega) same

theorem contiguous_of_groups {γ : Type} {image : κ → γ}
    (distinct : ((groups items).map fun group => image group.key).Nodup) :
    Contiguous (items.map fun item => image item.1) := by
  rw [← flatMap_groups items, map_flatMap]
  generalize groups items = parts at distinct
  induction parts with
  | nil => exact nofun
  | cons part rest induction =>
    rw [map_cons, nodup_cons] at distinct
    have constant : ((part.items.map fun item => (part.key, item)).map
        fun item => image item.1) =
        List.replicate part.items.length (image part.key) := by
      rw [map_map, eq_replicate_iff]
      simp
    rw [flatMap_cons, constant]
    apply (induction distinct.2).replicate_append
    intro inside
    obtain ⟨other, otherIn, here⟩ := mem_flatMap.mp inside
    rw [map_map, mem_map] at here
    obtain ⟨_, _, same⟩ := here
    apply distinct.1
    rw [← same]
    exact mem_map_of_mem otherIn

end Contiguous

end Grouping
