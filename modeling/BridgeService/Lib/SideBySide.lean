import Mathlib.Data.List.Forall2

/-!
# Lists side by side

Two lists whose items are related one by one: composition of relations, items
found on the other side, and loops that may stop with an error.
-/

namespace SideBySide

open List

variable {α β γ ε : Type}

theorem comp {first : α → β → Prop} {second : β → γ → Prop}
    {both : α → γ → Prop} {old : List α} {middle : List β} {new : List γ}
    (early : List.Forall₂ first old middle)
    (late : List.Forall₂ second middle new)
    (compose : ∀ a b c, first a b → second b c → both a c) :
    List.Forall₂ both old new := by
  induction early generalizing new with
  | nil =>
    cases late with
    | nil => exact .nil
  | cons head tail induction =>
    cases late with
    | cons head' tail' =>
      exact .cons (compose _ _ _ head head') (induction tail')

section Items

variable {related : α → β → Prop} {items : List α} {results : List β}

theorem exists_right (paired : List.Forall₂ related items results)
    {item : α} (mem : item ∈ items) :
    ∃ result, result ∈ results ∧ related item result := by
  induction paired with
  | nil => contradiction
  | cons head tail induction =>
    rcases mem_cons.mp mem with rfl | later
    · exact ⟨_, mem_cons_self, head⟩
    · obtain ⟨result, resultIn, here⟩ := induction later
      exact ⟨result, mem_cons_of_mem _ resultIn, here⟩

theorem exists_left (paired : List.Forall₂ related items results)
    {result : β} (mem : result ∈ results) :
    ∃ item, item ∈ items ∧ related item result := by
  obtain ⟨item, itemIn, here⟩ := exists_right paired.flip mem
  exact ⟨item, itemIn, here⟩

theorem map_eq {key : α → γ} {key' : β → γ}
    (paired : List.Forall₂ related items results)
    (same : ∀ item result, related item result → key' result = key item) :
    results.map key' = items.map key := by
  induction paired with
  | nil => rfl
  | cons head tail induction =>
    rw [map_cons, map_cons, same _ _ head, induction]

end Items

section Loops

variable {body : α → Except ε β}

theorem of_mapM {items : List α} {results : List β}
    (ran : items.mapM body = .ok results) :
    List.Forall₂ (fun item result => body item = .ok result) items
      results := by
  induction items generalizing results with
  | nil =>
    cases ran
    exact .nil
  | cons item rest induction =>
    rw [mapM_cons] at ran
    cases done : body item with
    | error err =>
      rw [done] at ran
      contradiction
    | ok result =>
      rw [done] at ran
      cases others : rest.mapM body with
      | error err =>
        rw [others] at ran
        contradiction
      | ok left =>
        rw [others] at ran
        cases ran
        exact .cons done (induction others)

theorem mapM_total {items : List α}
    (ends : ∀ item, item ∈ items → ∃ result, body item = .ok result) :
    ∃ results, items.mapM body = .ok results := by
  induction items with
  | nil => exact ⟨[], rfl⟩
  | cons item rest induction =>
    obtain ⟨result, done⟩ := ends item mem_cons_self
    obtain ⟨left, others⟩ := induction fun other mem =>
      ends other (mem_cons_of_mem item mem)
    rw [mapM_cons, done, others]
    exact ⟨result :: left, rfl⟩

end Loops

end SideBySide
