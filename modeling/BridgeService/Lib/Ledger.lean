import BridgeService.Lib.Rows
import Mathlib.Data.List.Basic
import Mathlib.Data.List.Nodup

/-!
# Ledgers with several lanes

A ledger is an append-only list of entries with increasing ids.  Every entry
belongs to a lane, and the entries of a lane are numbered from zero without
gaps.  Entries leave a ledger only as a suffix of one lane.

Rows derived from an entry and from the values that its lane held up to it can
be kept in a table of their own: appending an entry appends its rows, and
cutting a lane deletes exactly the rows owned by the removed entries.
-/

namespace Ledger

open List

variable {α β : Type}

structure Entry (α : Type) where
  id : Nat
  lane : Nat
  position : Nat
  value : α

def lane (number : Nat) (entries : List (Entry α)) : List (Entry α) :=
  entries.filter fun entry => entry.lane = number

def values (number : Nat) (entries : List (Entry α)) : List α :=
  (lane number entries).map Entry.value

def cut (number limit : Nat) (entries : List (Entry α)) : List (Entry α) :=
  entries.filter fun entry => ¬(limit ≤ entry.position ∧ entry.lane = number)

/-- Values of the lane of an entry, up to and including the entry. -/
def history (entries : List (Entry α)) (entry : Entry α) : List α :=
  (values entry.lane entries).take (entry.position + 1)

/-- Rows derived from every entry and its history. -/
def derived (rows : Entry α → List α → List β)
    (entries : List (Entry α)) : List β :=
  entries.flatMap fun entry => rows entry (history entries entry)

structure WellFormed (entries : List (Entry α)) : Prop where
  increasing : entries.Pairwise fun first second => first.id < second.id
  consecutive : ∀ number, (lane number entries).map Entry.position =
    List.range (lane number entries).length

theorem wellFormed_nil : WellFormed ([] : List (Entry α)) where
  increasing := List.Pairwise.nil
  consecutive := fun _ => rfl

section Push

theorem lane_push (number : Nat) (entries : List (Entry α))
    (entry : Entry α) :
    lane number (entries ++ [entry]) =
      lane number entries ++ if entry.lane = number then [entry] else [] := by
  simp [lane, filter_append, filter_singleton]

theorem values_push (number : Nat) (entries : List (Entry α))
    (entry : Entry α) :
    values number (entries ++ [entry]) = values number entries ++
        if entry.lane = number then [entry.value] else [] := by
  rw [values, lane_push, map_append, values]
  by_cases same : entry.lane = number
  · simp [same]
  · simp [same]

theorem length_values (number : Nat) (entries : List (Entry α)) :
    (values number entries).length = (lane number entries).length := by
  simp [values]

theorem WellFormed.push {entries : List (Entry α)} {entry : Entry α}
    (wellFormed : WellFormed entries)
    (fresh : ∀ old, old ∈ entries → old.id < entry.id)
    (next : entry.position = (values entry.lane entries).length) :
    WellFormed (entries ++ [entry]) where
  increasing := by
    rw [pairwise_append]
    refine ⟨wellFormed.increasing, pairwise_singleton _ _, ?_⟩
    intro old mem last isLast
    have here : last = entry := by simpa using isLast
    rw [here]
    exact fresh old mem
  consecutive := by
    intro number
    rw [lane_push]
    by_cases same : entry.lane = number
    · rw [if_pos same, map_append, wellFormed.consecutive number,
        length_append, length_singleton, range_succ,
        map_singleton, next, length_values, same]
    · rw [if_neg same, append_nil]
      exact wellFormed.consecutive number

end Push

section Positions

variable {entries : List (Entry α)}

variable {number : Nat} {entry first second : Entry α}

theorem mem_lane :
    entry ∈ lane number entries ↔ entry ∈ entries ∧ entry.lane = number := by
  simp [lane]

section

variable (wellFormed : WellFormed entries)

include wellFormed

theorem WellFormed.lane_position {index : Nat}
    (found : (lane number entries)[index]? = some entry) :
    entry.position = index := by
  obtain ⟨inside, _⟩ := List.getElem?_eq_some_iff.mp found
  have positions := congrArg (fun items : List Nat => items[index]?)
    (wellFormed.consecutive number)
  rw [getElem?_map, found, getElem?_range inside] at positions
  exact Option.some.inj positions

theorem WellFormed.lane_at (mem : entry ∈ entries) :
    (lane entry.lane entries)[entry.position]? = some entry := by
  have inLane : entry ∈ lane entry.lane entries :=
    mem_lane.mpr ⟨mem, rfl⟩
  obtain ⟨index, found⟩ := mem_iff_getElem?.mp inLane
  rw [wellFormed.lane_position found]
  exact found

theorem WellFormed.value_at (mem : entry ∈ entries) :
    (values entry.lane entries)[entry.position]? = some entry.value := by
  rw [values, getElem?_map, wellFormed.lane_at mem]
  rfl

theorem WellFormed.position_lt (mem : entry ∈ entries) :
    entry.position < (values entry.lane entries).length := by
  obtain ⟨inside, _⟩ :=
    List.getElem?_eq_some_iff.mp (wellFormed.value_at mem)
  exact inside

theorem WellFormed.exists_entry {index : Nat}
    (inside : index < (values number entries).length) :
    ∃ entry, entry ∈ entries ∧ entry.lane = number ∧
      entry.position = index := by
  rw [length_values] at inside
  have found := getElem?_eq_getElem inside
  obtain ⟨mem, same⟩ := mem_lane.mp (mem_of_getElem? found)
  exact ⟨_, mem, same, wellFormed.lane_position found⟩

theorem WellFormed.ids_nodup : (entries.map Entry.id).Nodup :=
  pairwise_map.mpr
    (wellFormed.increasing.imp fun less => Nat.ne_of_lt less)

theorem WellFormed.eq_of_id (firstIn : first ∈ entries)
    (secondIn : second ∈ entries) (same : first.id = second.id) :
    first = second := by
  exact inj_on_of_nodup_map wellFormed.ids_nodup firstIn secondIn same

theorem WellFormed.filter_eq_singleton (mem : entry ∈ entries) :
    (entries.filter fun other => other.id == entry.id) = [entry] :=
  Rows.filter_key wellFormed.ids_nodup mem

theorem WellFormed.eq_of_position (firstIn : first ∈ entries)
    (secondIn : second ∈ entries) (sameLane : first.lane = second.lane)
    (samePosition : first.position = second.position) : first = second := by
  have found := wellFormed.lane_at firstIn
  rw [sameLane, samePosition, wellFormed.lane_at secondIn] at found
  exact (Option.some.inj found).symm

theorem WellFormed.id_lt_of_position_lt (firstIn : first ∈ entries)
    (secondIn : second ∈ entries) (sameLane : first.lane = second.lane)
    (less : first.position < second.position) : first.id < second.id := by
  have laneIncreasing : (lane first.lane entries).Pairwise
      fun first second => first.id < second.id :=
    wellFormed.increasing.filter _
  have here := wellFormed.lane_at firstIn
  have there := wellFormed.lane_at secondIn
  rw [← sameLane] at there
  obtain ⟨hereInside, hereEq⟩ := List.getElem?_eq_some_iff.mp here
  obtain ⟨thereInside, thereEq⟩ := List.getElem?_eq_some_iff.mp there
  have ordered := pairwise_iff_getElem.mp laneIncreasing first.position
    second.position hereInside thereInside less
  rw [hereEq, thereEq] at ordered
  exact ordered

theorem WellFormed.id_le_iff (firstIn : first ∈ entries)
    (secondIn : second ∈ entries) (sameLane : first.lane = second.lane) :
    first.id ≤ second.id ↔ first.position ≤ second.position := by
  constructor
  · intro idLe
    by_contra greater
    have less := wellFormed.id_lt_of_position_lt secondIn firstIn
      sameLane.symm (by omega)
    omega
  · intro positionLe
    by_cases same : first.position = second.position
    · rw [wellFormed.eq_of_position firstIn secondIn sameLane same]
    · exact Nat.le_of_lt (wellFormed.id_lt_of_position_lt firstIn secondIn
        sameLane (by omega))

theorem WellFormed.position_of_largest (mem : entry ∈ entries)
    (largest : ∀ other, other ∈ entries → other.lane = entry.lane →
      other.id ≤ entry.id) :
    entry.position + 1 = (values entry.lane entries).length := by
  have inside := wellFormed.position_lt mem
  by_contra notLast
  have room : entry.position + 1 < (values entry.lane entries).length := by
    omega
  obtain ⟨later, laterIn, sameLane, laterPosition⟩ :=
    wellFormed.exists_entry room
  have less := wellFormed.id_lt_of_position_lt mem laterIn
    sameLane.symm (by omega)
  have bound := largest later laterIn sameLane
  omega

end

end Positions

section Histories

variable {entries : List (Entry α)}

theorem history_push (wellFormed : WellFormed entries) (entry : Entry α)
    {old : Entry α} (mem : old ∈ entries) :
    history (entries ++ [entry]) old = history entries old := by
  have inside := wellFormed.position_lt mem
  rw [history, history, values_push,
    take_append_of_le_length (by omega)]

theorem derived_push (wellFormed : WellFormed entries)
    (rows : Entry α → List α → List β) {entry : Entry α}
    (next : entry.position = (values entry.lane entries).length) :
    derived rows (entries ++ [entry]) = derived rows entries ++
        rows entry (values entry.lane entries ++ [entry.value]) := by
  have old : (entries.flatMap fun old =>
      rows old (history (entries ++ [entry]) old)) =
      derived rows entries := by
    apply flatMap_congr
    intro old mem
    rw [history_push wellFormed entry mem]
  have whole : history (entries ++ [entry]) entry =
      values entry.lane entries ++ [entry.value] := by
    rw [history, values_push, if_pos rfl, next]
    exact take_of_length_le (by simp)
  rw [derived, flatMap_append, old, flatMap_singleton, whole]

theorem filter_derived (rows : Entry α → List α → List β) {keep : β → Bool}
    {number : Nat}
    (own : ∀ entry, entry ∈ entries → ∀ past row, row ∈ rows entry past →
      keep row = decide (entry.lane = number)) :
    (derived rows entries).filter keep =
      derived rows (lane number entries) := by
  have inside : ∀ entry, entry ∈ lane number entries →
      rows entry (history entries entry) =
        rows entry (history (lane number entries) entry) := by
    intro entry mem
    have same := (mem_lane.mp mem).2
    rw [history, history, same, values, values, lane, lane, filter_filter]
    simp only [Bool.and_self]
  rw [derived, Rows.filter_flatMap fun entry mem row rowIn =>
    own entry mem _ row rowIn]
  exact flatMap_congr inside

end Histories

section Cut

variable {entries : List (Entry α)}

private theorem filter_eq_take (items : List (Entry α)) (start limit : Nat)
    (positions : items.map Entry.position = List.range' start items.length) :
    (items.filter fun entry => ¬limit ≤ entry.position) =
      items.take (limit - start) := by
  induction items generalizing start with
  | nil => simp
  | cons item rest induction =>
    rw [length_cons, range'_succ, map_cons] at positions
    obtain ⟨first, others⟩ := List.cons.inj positions
    have tail := induction (start + 1) others
    by_cases inside : limit ≤ item.position
    · rw [filter_cons_of_neg (by simpa using inside), tail]
      have drop : limit - start = 0 := by omega
      have dropNext : limit - (start + 1) = 0 := by omega
      rw [drop, dropNext]
      simp
    · rw [filter_cons_of_pos (by simpa using inside), tail]
      have room : limit - start = limit - (start + 1) + 1 := by omega
      rw [room, take_succ_cons]

theorem lane_cut_same (wellFormed : WellFormed entries)
    (number limit : Nat) :
    lane number (cut number limit entries) =
      (lane number entries).take limit := by
  have positions : (lane number entries).map Entry.position =
      List.range' 0 (lane number entries).length := by
    rw [wellFormed.consecutive number, range_eq_range']
  have taken := filter_eq_take (lane number entries) 0 limit positions
  rw [Nat.sub_zero] at taken
  rw [← taken, lane, cut, lane, filter_filter, filter_filter]
  apply filter_congr
  intro entry _
  by_cases same : entry.lane = number
  · simp [same]
  · simp [same]

variable {number : Nat}

theorem lane_cut_other {other : Nat} (different : other ≠ number)
    (limit : Nat) :
    lane other (cut number limit entries) = lane other entries := by
  rw [lane, cut, lane, filter_filter]
  apply filter_congr
  intro entry _
  by_cases same : entry.lane = other
  · simp [same, different]
  · simp [same]

theorem values_cut_same (wellFormed : WellFormed entries)
    (number limit : Nat) :
    values number (cut number limit entries) =
      (values number entries).take limit := by
  rw [values, lane_cut_same wellFormed, map_take, values]

theorem values_cut_other {other : Nat} (different : other ≠ number)
    (limit : Nat) :
    values other (cut number limit entries) = values other entries := by
  rw [values, lane_cut_other different, values]

theorem WellFormed.cut (wellFormed : WellFormed entries)
    (number limit : Nat) : WellFormed (cut number limit entries) where
  increasing := wellFormed.increasing.filter _
  consecutive := by
    intro other
    by_cases same : other = number
    · subst other
      rw [lane_cut_same wellFormed, map_take,
        wellFormed.consecutive number, take_range, length_take]
    · rw [lane_cut_other same]
      exact wellFormed.consecutive other

theorem history_cut (wellFormed : WellFormed entries) {limit : Nat}
    {entry : Entry α} (mem : entry ∈ Ledger.cut number limit entries) :
    history (Ledger.cut number limit entries) entry =
      history entries entry := by
  obtain ⟨_, kept⟩ := mem_filter.mp mem
  rw [history, history]
  by_cases same : entry.lane = number
  · have inside : entry.position < limit := by
      simpa [same] using kept
    rw [same, values_cut_same wellFormed, take_take]
    congr 1
    omega
  · rw [values_cut_other same]

theorem derived_cut (wellFormed : WellFormed entries) (number limit : Nat)
    (rows : Entry α → List α → List β) (owner : β → Nat)
    (owned : ∀ entry past row, row ∈ rows entry past → owner row = entry.id)
    (removed : List Nat)
    (removed_iff : ∀ entry, entry ∈ entries → (entry.id ∈ removed ↔
        limit ≤ entry.position ∧ entry.lane = number)) :
    (derived rows entries).filter (fun row => owner row ∉ removed) =
      derived rows (Ledger.cut number limit entries) := by
  have kept : derived rows (Ledger.cut number limit entries) =
      (Ledger.cut number limit entries).flatMap fun entry =>
        rows entry (history entries entry) := by
    apply flatMap_congr
    intro entry mem
    rw [history_cut wellFormed mem]
  rw [kept]
  apply Rows.filter_flatMap
  intro entry mem row rowIn
  rw [owned entry _ row rowIn]
  simp only [removed_iff entry mem]

end Cut

end Ledger
