import Mathlib.Data.List.Nodup
import Mathlib.Data.List.Sort

/-!
# Lists of rows with a numeric key

Queries that order rows by a key, that take the row with the largest key, that
take the newest row of every key, or that read pages of the ordered rows.
-/

namespace Rows

open List

variable {α : Type}

def orderBy (key : α → Nat) (rows : List α) : List α :=
  rows.insertionSort fun first second => key first ≤ key second

def lastBy (key : α → Nat) : List α → Option α
  | [] => none
  | row :: rest =>
    match lastBy key rest with
    | none => some row
    | some best => if key best < key row then some row else some best

/-- Rows with the largest id of their key. -/
def newest (key id : α → Nat) (rows : List α) : List α :=
  rows.filter fun row =>
    rows.all fun other => key other != key row || id other ≤ id row

theorem mem_push {rows : List α} {row new : α} :
    row ∈ rows ++ [new] ↔ row ∈ rows ∨ row = new := by
  rw [mem_append, mem_singleton]

section Order

variable {key : α → Nat}

variable {rows : List α} {row : α}

theorem orderBy_eq_self
    (ordered : rows.Pairwise fun first second => key first ≤ key second) :
    orderBy key rows = rows :=
  ordered.insertionSort_eq

@[simp] theorem mem_orderBy : row ∈ orderBy key rows ↔ row ∈ rows :=
  (perm_insertionSort _ rows).mem_iff

theorem orderBy_perm (rows : List α) : (orderBy key rows).Perm rows :=
  perm_insertionSort _ rows

theorem orderBy_pairwise (rows : List α) :
    (orderBy key rows).Pairwise fun first second =>
      key first ≤ key second := by
  have total : Std.Total fun first second : α => key first ≤ key second :=
    ⟨fun first second => Nat.le_total (key first) (key second)⟩
  have trans : IsTrans α fun first second => key first ≤ key second :=
    ⟨fun _ _ _ => Nat.le_trans⟩
  exact pairwise_insertionSort _ rows

theorem lastBy_eq_none (none : lastBy key rows = none) : rows = [] := by
  cases rows with
  | nil => rfl
  | cons row rest =>
    simp only [lastBy] at none
    split at none
    · contradiction
    · split at none
      · contradiction
      · contradiction

theorem lastBy_map {change : α → α} (same : ∀ row, key (change row) = key row)
    (rows : List α) :
    lastBy key (rows.map change) = (lastBy key rows).map change := by
  induction rows with
  | nil => rfl
  | cons row rest induction =>
    rw [map_cons, lastBy, lastBy, induction]
    cases lastBy key rest with
    | none => rfl
    | some best =>
      simp only [Option.map_some, same]
      split <;> rfl

theorem lastBy_eq_some (found : lastBy key rows = some row) :
    row ∈ rows ∧ ∀ other, other ∈ rows → key other ≤ key row := by
  induction rows generalizing row with
  | nil => contradiction
  | cons head rest induction =>
    simp only [lastBy] at found
    split at found
    · next search =>
      rw [lastBy_eq_none search]
      simp [← Option.some.inj found]
    · next best search =>
      obtain ⟨bestIn, largest⟩ := induction search
      split at found
      · next less =>
        rw [← Option.some.inj found]
        refine ⟨mem_cons_self, ?_⟩
        intro other mem
        rcases mem_cons.mp mem with rfl | later
        · exact le_rfl
        · have bound := largest other later
          omega
      · next notLess =>
        rw [← Option.some.inj found]
        refine ⟨mem_cons_of_mem _ bestIn, ?_⟩
        intro other mem
        rcases mem_cons.mp mem with rfl | later
        · omega
        · exact largest other later

theorem pairwise_reverse_orderBy (rows : List α) :
    (orderBy key rows).reverse.Pairwise fun first second =>
      key second ≤ key first :=
  pairwise_reverse.mpr (orderBy_pairwise rows)

theorem find?_largest {test : α → Bool}
    (ordered : rows.Pairwise fun first second => key second ≤ key first)
    (found : rows.find? test = some row) {other : α}
    (mem : other ∈ rows) (passes : test other = true) :
    key other ≤ key row := by
  obtain ⟨_, before, after, rfl, fails⟩ :=
    find?_eq_some_iff_append.mp found
  obtain ⟨_, ordered, _⟩ := pairwise_append.mp ordered
  rcases mem_append.mp mem with earlier | later
  · have rejected := fails other earlier
    simp [passes] at rejected
  · rcases mem_cons.mp later with rfl | rest
    · exact le_rfl
    · exact (pairwise_cons.mp ordered).1 other rest

theorem reverse_orderBy_eq_cons (distinct : (rows.map key).Nodup)
    (mem : row ∈ rows)
    (largest : ∀ other, other ∈ rows → key other ≤ key row) :
    (orderBy key rows).reverse = row :: (orderBy key rows).reverse.drop 1 := by
  have ordered : (orderBy key rows).reverse.Pairwise fun first second =>
      key second ≤ key first := pairwise_reverse_orderBy rows
  have member : row ∈ (orderBy key rows).reverse := by simpa using mem
  cases shape : (orderBy key rows).reverse with
  | nil => simp [shape] at member
  | cons first rest =>
    rw [shape] at ordered member
    have stored : first ∈ rows := by
      rw [← mem_orderBy, ← mem_reverse, shape]
      exact mem_cons_self
    have same : first = row := by
      apply inj_on_of_nodup_map distinct stored mem
      apply Nat.le_antisymm (largest first stored)
      rcases mem_cons.mp member with rfl | later
      · exact le_rfl
      · exact (pairwise_cons.mp ordered).1 row later
    rw [same]
    rfl

end Order

section Keys

theorem length_filter_le_one {β : Type} {key : α → β} {rows : List α}
    (distinct : (rows.map key).Nodup) {keep : α → Bool} {value : β}
    (same : ∀ row, keep row = true → key row = value) :
    (rows.filter keep).length ≤ 1 := by
  have alike : (rows.filter keep).map key =
      replicate (rows.filter keep).length value := by
    rw [eq_replicate_iff, length_map]
    refine ⟨rfl, fun found mem => ?_⟩
    obtain ⟨row, kept, rfl⟩ := mem_map.mp mem
    exact same row (mem_filter.mp kept).2
  have nodup : ((rows.filter keep).map key).Nodup :=
    distinct.sublist (filter_sublist.map key)
  rwa [alike, nodup_replicate] at nodup

theorem filter_key {β : Type} [DecidableEq β] {key : α → β} {rows : List α}
    (distinct : (rows.map key).Nodup) {row : α} (mem : row ∈ rows) :
    (rows.filter fun other => key other == key row) = [row] := by
  induction rows with
  | nil => contradiction
  | cons head rest induction =>
    rw [map_cons, nodup_cons] at distinct
    obtain ⟨fresh, distinct⟩ := distinct
    rcases mem_cons.mp mem with rfl | later
    · have none : (rest.filter fun other => key other == key row) = [] := by
        apply filter_eq_nil_iff.mpr
        intro other otherIn same
        apply fresh
        rw [← beq_iff_eq.mp same]
        exact mem_map_of_mem otherIn
      simp [none]
    · have different : key head ≠ key row := by
        intro same
        apply fresh
        rw [same]
        exact mem_map_of_mem later
      rw [filter_cons_of_neg (by simpa using different)]
      exact induction distinct later

theorem find?_key {β : Type} [DecidableEq β] {key : α → β} {rows : List α}
    (distinct : (rows.map key).Nodup) {row : α} (mem : row ∈ rows) :
    (rows.find? fun other => key other == key row) = some row := by
  rw [← head?_filter, filter_key distinct mem]
  rfl

theorem filter_flatMap {γ : Type} {groups : List γ} {rows : γ → List α}
    {keep : α → Bool} {keepGroup : γ → Bool}
    (agree : ∀ group, group ∈ groups → ∀ row, row ∈ rows group →
      keep row = keepGroup group) :
    (groups.flatMap rows).filter keep =
      (groups.filter keepGroup).flatMap rows := by
  induction groups with
  | nil => rfl
  | cons group rest induction =>
    have tail := induction fun other mem =>
      agree other (mem_cons_of_mem group mem)
    have here := agree group mem_cons_self
    rw [flatMap_cons, filter_append, tail]
    cases kept : keepGroup group with
    | true =>
      have all : (rows group).filter keep = rows group := by
        apply filter_eq_self.mpr
        intro row mem
        rw [here row mem, kept]
      rw [all, filter_cons_of_pos kept, flatMap_cons]
    | false =>
      have none : (rows group).filter keep = [] := by
        apply filter_eq_nil_iff.mpr
        intro row mem
        simp [here row mem, kept]
      rw [none, filter_cons_of_neg (by simp [kept]),
        nil_append]

end Keys

theorem map_eq_self {change : α → α} {rows : List α}
    (same : ∀ row, row ∈ rows → change row = row) :
    rows.map change = rows := by
  induction rows with
  | nil => rfl
  | cons row rest induction =>
    rw [map_cons, same row mem_cons_self,
      induction fun other mem =>
        same other (mem_cons_of_mem row mem)]

section Updates

variable {κ υ : Type} [DecidableEq κ] {key : α → κ} {target : υ → κ}
  {write : α → υ → α}

def update (key : α → κ) (target : υ → κ) (write : α → υ → α)
    (rows : List α) (change : υ) : List α :=
  rows.map fun row => if key row = target change then write row change else row

def updated (key : α → κ) (target : υ → κ) (write : α → υ → α)
    (changes : List υ) (row : α) : α :=
  match changes.find? fun change => target change == key row with
  | none => row
  | some change => write row change

def Agree (target : υ → κ) (changes : List υ) : Prop :=
  ∀ change, change ∈ changes → ∀ other, other ∈ changes →
    target other = target change → other = change

variable {changes : List υ}

theorem updated_of_mem (agree : Agree target changes) {row : α} {change : υ}
    (mem : change ∈ changes) (here : target change = key row) :
    updated key target write changes row = write row change := by
  cases found : changes.find? fun other => target other == key row with
  | none =>
    have different := find?_eq_none.mp found change mem
    simp [here] at different
  | some other =>
    have same : target other = key row := by
      simpa using find?_some found
    have equal := agree change mem other
      (mem_of_find?_eq_some found) (same.trans here.symm)
    rw [updated, found, equal]

theorem updated_of_forall_ne {row : α}
    (none : ∀ change, change ∈ changes → target change ≠ key row) :
    updated key target write changes row = row := by
  have missing : (changes.find? fun other => target other == key row) =
      .none := by
    apply find?_eq_none.mpr
    intro other mem
    simpa using none other mem
  rw [updated, missing]

theorem foldl_update (keeps : ∀ row change, key (write row change) = key row)
    (again : ∀ row change, write (write row change) change = write row change)
    (agree : Agree target changes) (rows : List α) :
    changes.foldl (update key target write) rows =
      rows.map (updated key target write changes) := by
  induction changes generalizing rows with
  | nil =>
    have same : updated key target write [] = id := rfl
    simp [same]
  | cons change rest induction =>
    have agreeRest : Agree target rest := fun change first other second =>
      agree change (mem_cons_of_mem _ first) other
        (mem_cons_of_mem _ second)
    rw [foldl_cons, induction agreeRest, update, map_map]
    apply map_congr_left
    intro row _
    rw [Function.comp_apply]
    by_cases here : key row = target change
    · rw [if_pos here, updated_of_mem agree mem_cons_self here.symm]
      by_cases later : ∃ other, other ∈ rest ∧ target other = key row
      · obtain ⟨other, otherIn, same⟩ := later
        have equal := agree change mem_cons_self other
          (mem_cons_of_mem _ otherIn) (same.trans here)
        subst equal
        rw [updated_of_mem agreeRest otherIn
          (same.trans (keeps row other).symm), again]
      · apply updated_of_forall_ne
        intro other otherIn same
        exact later ⟨other, otherIn, same.trans (keeps row change)⟩
    · have other : (target change == key row) = false :=
        beq_false_of_ne (Ne.symm here)
      simp [updated, here, other]

end Updates

section Newest

variable {key id : α → Nat}

theorem newest_append {earlier last : List α}
    (newer : ∀ old, old ∈ earlier → ∀ row, row ∈ last → id old < id row)
    (covers : ∀ old, old ∈ earlier → ∃ row, row ∈ last ∧ key row = key old)
    (distinct : (last.map key).Nodup) :
    newest key id (earlier ++ last) = last := by
  have oldGone : ∀ old, old ∈ earlier →
      ¬((earlier ++ last).all fun other =>
        key other != key old || id other ≤ id old) = true := by
    intro old oldIn all
    obtain ⟨row, rowIn, same⟩ := covers old oldIn
    have bound := all_eq_true.mp all row (mem_append_right _ rowIn)
    have less := newer old oldIn row rowIn
    simp [same] at bound
    omega
  have lastKept : ∀ row, row ∈ last →
      ((earlier ++ last).all fun other =>
        key other != key row || id other ≤ id row) = true := by
    intro row rowIn
    apply all_eq_true.mpr
    intro other otherIn
    rcases mem_append.mp otherIn with old | new
    · have less := newer other old row rowIn
      simp [Nat.le_of_lt less]
    · by_cases same : key other = key row
      · have here : other = row :=
          inj_on_of_nodup_map distinct new rowIn same
        simp [here]
      · simp [same]
  rw [newest, filter_append, filter_eq_nil_iff.mpr oldGone,
    filter_eq_self.mpr lastKept, nil_append]

end Newest

section Pages

variable {key : α → Nat} {rows ordered other before after : List α}
  {first second : α} {size number : Nat}

/-- An order of the rows by their keys.  Rows with the same key come in any
order. -/
structure Ordered (key : α → Nat) (rows ordered : List α) : Prop where
  perm : ordered.Perm rows
  ascending : ordered.Pairwise fun first second => key first ≤ key second

/-- Pages of the rows, each of them read in an order of its own. -/
def Paged (key : α → Nat) (rows : List α) (size : Nat)
    (pages : Nat → List α) : Prop :=
  ∀ number, ∃ ordered, Ordered key rows ordered ∧
    pages number = (ordered.drop (number * size)).take size

/-- No page ends between two rows with the same key. -/
def EndsApart (key : α → Nat) (rows : List α) (size : Nat) : Prop :=
  ∀ number before first second after,
    Ordered key rows (before ++ first :: second :: after) →
    before.length + 1 = number * size → key first ≠ key second

private theorem exists_end {i : Nat} (positive : 0 < i)
    (inside : i < ordered.length) :
    ∃ before first second after,
      ordered = before ++ first :: second :: after ∧
        before.length + 1 = i := by
  refine ⟨ordered.take (i - 1), ordered[i - 1], ordered[i - 1 + 1],
    ordered.drop (i - 1 + 1 + 1), ?_, ?_⟩
  · rw [← drop_eq_getElem_cons, ← drop_eq_getElem_cons,
      take_append_drop]
  · rw [length_take]
    omega

private theorem Ordered.take_eq
    (order : Ordered key rows (before ++ first :: second :: after))
    (ends : before.length + 1 = number * size)
    (apart : EndsApart key rows size) :
    (before ++ first :: second :: after).take (number * size) =
      (before ++ first :: second :: after).filter (key · < key second) := by
  have different := apart number before first second after order ends
  have ascending := order.ascending
  simp only [pairwise_append, pairwise_cons, mem_cons,
    forall_eq_or_imp] at ascending
  obtain ⟨_, ⟨⟨next, _⟩, least, _⟩, below⟩ := ascending
  have less : key first < key second := by omega
  rw [append_cons, filter_append, take_left' (by simpa),
    filter_eq_self.mpr, filter_eq_nil_iff.mpr, append_nil]
  · simpa using least
  · intro row inside
    have bound : key row ≤ key first := by
      rcases mem_push.mp inside with earlier | rfl
      · exact (below row earlier).1
      · exact le_rfl
    simpa using Nat.lt_of_le_of_lt bound less

private theorem Ordered.take_perm (order : Ordered key rows ordered)
    (order' : Ordered key rows other) (apart : EndsApart key rows size)
    (number : Nat) :
    (ordered.take (number * size)).Perm (other.take (number * size)) := by
  have same := order.perm.trans order'.perm.symm
  by_cases short : ordered.length ≤ number * size
  · rw [take_of_length_le short,
      take_of_length_le (same.length_eq.symm.trans_le short)]
    exact same
  rcases Nat.eq_zero_or_pos (number * size) with start | positive
  · simp [start]
  obtain ⟨before, first, second, after, rfl, ends⟩ :=
    exists_end positive (Nat.lt_of_not_le short)
  obtain ⟨before', first', second', after', rfl, ends'⟩ :=
    exists_end positive (same.length_eq ▸ Nat.lt_of_not_le short)
  have keys := (same.map key).eq_of_pairwise (fun _ _ _ _ => Nat.le_antisymm)
    (pairwise_map.mpr order.ascending)
    (pairwise_map.mpr order'.ascending)
  rw [map_append, map_append] at keys
  have tail := (append_inj keys (by simp; omega)).2
  simp only [map_cons, List.cons.injEq] at tail
  rw [order.take_eq ends apart, order'.take_eq ends' apart, tail.2.1]
  exact same.filter _

private theorem Paged.flatMap_perm {pages : Nat → List α}
    (paged : Paged key rows size pages) (apart : EndsApart key rows size)
    (order : Ordered key rows ordered) (count : Nat) :
    ((List.range count).flatMap pages).Perm
      (ordered.take (count * size)) := by
  induction count with
  | zero => simp
  | succ count induction =>
    obtain ⟨other, order', page⟩ := paged count
    have next := order'.take_perm order apart (count + 1)
    rw [Nat.succ_mul, take_add, ← page] at next
    rw [range_succ, flatMap_append, flatMap_singleton,
      Nat.succ_mul]
    exact ((induction.trans (order.take_perm order' apart count)).append_right
      _).trans next

theorem paged_perm_iff (distinct : rows.Nodup) {count : Nat}
    (positive : 1 ≤ size) (enough : rows.length ≤ count * size) :
    (∀ pages, Paged key rows size pages →
        ((List.range count).flatMap pages).Perm rows) ↔
      EndsApart key rows size := by
  constructor
  · intro exact number before first second after order ends same
    have swapped : Ordered key rows (before ++ second :: first :: after) := by
      refine ⟨((List.Perm.swap first second after).append_left _).trans
        order.perm, ?_⟩
      have ascending := pairwise_map.mpr order.ascending
      rw [← pairwise_map (f := key)]
      simpa [same] using ascending
    let pages := Function.update
      (fun number =>
        ((before ++ first :: second :: after).drop (number * size)).take size)
      number
      (((before ++ second :: first :: after).drop (number * size)).take size)
    have paged : Paged key rows size pages := by
      intro other
      by_cases here : other = number
      · rw [here]
        exact ⟨_, swapped, Function.update_self ..⟩
      · exact ⟨_, order, Function.update_of_ne here ..⟩
    have distinct := order.perm.nodup_iff.mpr distinct
    have listed : second ∈ (List.range count).flatMap pages :=
      (exact pages paged).mem_iff.mpr (order.perm.mem_iff.mp (by simp))
    obtain ⟨other, _, inside⟩ := mem_flatMap.mp listed
    by_cases here : other = number
    · obtain ⟨size, rfl⟩ := Nat.exists_eq_add_of_le' positive
      simp only [pages, here, Function.update_self, ← ends,
        drop_length_add_append] at inside
      have unique := (nodup_append.mp distinct).2.1
      rcases mem_cons.mp inside with equal | later
      · simp [equal] at unique
      · simp [mem_of_mem_take later] at unique
    · simp only [pages, Function.update_of_ne here] at inside
      obtain ⟨i, found⟩ := getElem?_of_mem inside
      rw [getElem?_take, getElem?_drop,
        Option.ite_none_right_eq_some] at found
      obtain ⟨bound, found⟩ := found
      have place : other * size + i = number * size :=
        (List.getElem?_inj (List.getElem?_eq_some_iff.mp found).1
          distinct).mp (found.trans (by simp [← ends]))
      rcases Nat.lt_or_gt_of_ne here with less | more
      · have room := Nat.mul_le_mul_right size less
        rw [Nat.succ_mul] at room
        omega
      · have room := Nat.mul_le_mul_right size more
        rw [Nat.succ_mul] at room
        omega
  · intro apart pages paged
    have order : Ordered key rows (orderBy key rows) :=
      ⟨orderBy_perm rows, orderBy_pairwise rows⟩
    have perm := paged.flatMap_perm apart order count
    rw [take_of_length_le
      (order.perm.length_eq.trans_le enough)] at perm
    exact perm.trans order.perm

end Pages

end Rows
