import Mathlib.Logic.Basic

/-!
# Pre- and postconditions of programs with state and errors

A program either returns a value or raises an error, and has a final state in
both cases.  A triple therefore has two postconditions.  The rules follow the
structure of a program: sequencing, branching, handling of errors, and loops
over a list with an invariant for the part that is left.
-/

namespace ErrorState

open List

variable {ε σ α β : Type}

/-- Continue with a handler after an error, from the state it left. -/
def handle (program : EStateM ε σ α) (handler : ε → EStateM ε σ α) :
    EStateM ε σ α := fun state =>
  match program state with
  | .ok value next => .ok value next
  | .error err next => handler err next

def returns (program : EStateM ε σ α) (check : α → σ → Bool) (state : σ) :
    Bool :=
  match program state with
  | .ok value next => check value next
  | .error _ _ => false

variable {state next : σ} {first : EStateM ε σ β} {rest : β → EStateM ε σ α}
  {value : α} {err : ε} {items : List β} {body : α → β → EStateM ε σ α}

theorem exists_of_returns {program : EStateM ε σ α} {check : α → σ → Bool}
    (returned : returns program check state = true) :
    ∃ value next, program state = .ok value next ∧
      check value next = true := by
  rw [returns] at returned
  cases ran : program state with
  | ok value next => exact ⟨value, next, rfl, by simpa [ran] using returned⟩
  | error err next => simp [ran] at returned

def raises (program : EStateM ε σ α) (check : ε → σ → Bool) (state : σ) :
    Bool :=
  match program state with
  | .ok _ _ => false
  | .error err next => check err next

theorem exists_of_raises {program : EStateM ε σ α} {check : ε → σ → Bool}
    (raised : raises program check state = true) :
    ∃ err next, program state = .error err next ∧ check err next = true := by
  rw [raises] at raised
  cases ran : program state with
  | ok value next => simp [ran] at raised
  | error err next => exact ⟨err, next, rfl, by simpa [ran] using raised⟩

theorem answer_ok {answer : Except ε β} {f : β → α}
    (ran : (do let found ← answer; pure (f found)) = Except.ok value) :
    ∃ found, answer = .ok found ∧ f found = value := by
  cases answer with
  | error err => contradiction
  | ok found => exact ⟨found, rfl, Except.ok.inj ran⟩

theorem answer_error {answer : Except ε β} {f : β → α}
    (ran : (do let found ← answer; pure (f found)) = Except.error err) :
    answer = .error err := by
  cases answer with
  | error raised => exact congrArg _ (Except.error.inj ran)
  | ok found => contradiction

theorem bind_ok (ran : (first >>= rest) state = .ok value next) :
    ∃ middle between, first state = .ok middle between ∧
      rest middle between = .ok value next := by
  change EStateM.bind first rest state = .ok value next at ran
  rw [EStateM.bind] at ran
  cases started : first state with
  | ok middle between =>
    rw [started] at ran
    exact ⟨middle, between, rfl, ran⟩
  | error err between =>
    simp [started] at ran

theorem bind_error (ran : (first >>= rest) state = .error err next) :
    first state = .error err next ∨
      ∃ middle between, first state = .ok middle between ∧
        rest middle between = .error err next := by
  change EStateM.bind first rest state = .error err next at ran
  rw [EStateM.bind] at ran
  cases started : first state with
  | ok middle between =>
    rw [started] at ran
    exact .inr ⟨middle, between, rfl, ran⟩
  | error raised between =>
    rw [started] at ran
    injection ran with sameError sameState
    rw [sameError, sameState]
    exact .inl rfl

theorem bind_of_ok {between : σ} {middle : β}
    (ran : first state = .ok middle between) :
    (first >>= rest) state = rest middle between := by
  change EStateM.bind first rest state = rest middle between
  rw [EStateM.bind, ran]

theorem bind_of_error (ran : first state = .error err next) :
    (first >>= rest) state = .error err next := by
  change EStateM.bind first rest state = .error err next
  rw [EStateM.bind, ran]

/-- From every state that satisfies the precondition, a normal result
satisfies the first postcondition and an error the second one. -/
def Triple (before : σ → Prop) (program : EStateM ε σ α)
    (after : α → σ → Prop) (failed : ε → σ → Prop) : Prop :=
  ∀ state, before state →
    match program state with
    | .ok value next => after value next
    | .error err next => failed err next

section Rules

variable {before : σ → Prop} {after : α → σ → Prop} {failed : ε → σ → Prop}

variable {program : EStateM ε σ α}

theorem Triple.ok {state next : σ} {value : α}
    (triple : Triple before program after failed) (start : before state)
    (ran : program state = .ok value next) : after value next := by
  have result := triple state start
  rw [ran] at result
  exact result

theorem Triple.error {state next : σ} {err : ε}
    (triple : Triple before program after failed) (start : before state)
    (ran : program state = .error err next) : failed err next := by
  have result := triple state start
  rw [ran] at result
  exact result

theorem Triple.intro
    (returned : ∀ state value next, before state →
      program state = .ok value next → after value next)
    (raised : ∀ state err next, before state →
      program state = .error err next → failed err next) :
    Triple before program after failed := by
  intro state start
  cases ran : program state with
  | ok value next => exact returned state value next start ran
  | error err next => exact raised state err next start ran

theorem Triple.exists_ok (triple : Triple before program after failed)
    (state : σ) (start : before state)
    (succeeds : ∀ err next, ¬failed err next) :
    ∃ value next, program state = .ok value next ∧ after value next := by
  cases ran : program state with
  | ok value next => exact ⟨value, next, rfl, triple.ok start ran⟩
  | error err next => exact (succeeds err next (triple.error start ran)).elim

theorem Triple.consequence {strongBefore : σ → Prop}
    {weakAfter : α → σ → Prop} {weakFailed : ε → σ → Prop}
    (triple : Triple before program after failed)
    (strengthen : ∀ state, strongBefore state → before state)
    (weaken : ∀ value state, after value state → weakAfter value state)
    (weakenFailed : ∀ err state, failed err state → weakFailed err state) :
    Triple strongBefore program weakAfter weakFailed := by
  apply Triple.intro
  · intro state value next start ran
    exact weaken value next (triple.ok (strengthen state start) ran)
  · intro state err next start ran
    exact weakenFailed err next (triple.error (strengthen state start) ran)

theorem Triple.weaken {weakAfter : α → σ → Prop} {weakFailed : ε → σ → Prop}
    (triple : Triple before program after failed)
    (weaken : ∀ value state, after value state → weakAfter value state)
    (weakenFailed : ∀ err state, failed err state → weakFailed err state) :
    Triple before program weakAfter weakFailed :=
  triple.consequence (fun _ start => start) weaken weakenFailed

theorem Triple.post {weakAfter : α → σ → Prop}
    (triple : Triple before program after failed)
    (weaken : ∀ value state, after value state → weakAfter value state) :
    Triple before program weakAfter failed :=
  triple.weaken weaken fun _ _ raised => raised

theorem Triple.onError {weakFailed : ε → σ → Prop}
    (triple : Triple before program after failed)
    (weakenFailed : ∀ err state, failed err state → weakFailed err state) :
    Triple before program after weakFailed :=
  triple.weaken (fun _ _ result => result) weakenFailed

theorem Triple.and {after' : α → σ → Prop} {failed' : ε → σ → Prop}
    (first : Triple before program after failed)
    (second : Triple before program after' failed') :
    Triple before program
      (fun value state => after value state ∧ after' value state)
      (fun err state => failed err state ∧ failed' err state) := by
  apply Triple.intro
  · intro state value next start ran
    exact ⟨first.ok start ran, second.ok start ran⟩
  · intro state err next start ran
    exact ⟨first.error start ran, second.error start ran⟩

theorem Triple.of_total {start : σ → Prop} {done : α → σ → Prop}
    (triple : Triple before program after failed)
    (total : Triple start program done fun _ _ => False)
    (begins : ∀ state, before state → start state) :
    Triple before program after fun _ _ => False :=
  (triple.and (total.consequence begins (fun _ _ result => result)
    fun _ _ never => never)).weaken (fun _ _ both => both.1)
      fun _ _ both => both.2

theorem Triple.pure {value : α}
    (holds : ∀ state, before state → after value state) :
    Triple before (pure value : EStateM ε σ α) after failed :=
  fun state start => holds state start

theorem Triple.throw {err : ε}
    (holds : ∀ state, before state → failed err state) :
    Triple before (throw err : EStateM ε σ α) after failed :=
  fun state start => holds state start

theorem Triple.modify {done : PUnit → σ → Prop} {change : σ → σ}
    (holds : ∀ state, before state → done ⟨⟩ (change state)) :
    Triple before (modify change : EStateM ε σ PUnit) done failed :=
  fun state start => holds state start

theorem Triple.of_pure {holds : Prop}
    (known : holds → Triple before program after failed) :
    Triple (fun state => holds ∧ before state) program after failed :=
  fun state start => known start.1 state start.2

theorem Triple.bind {middle : β → σ → Prop} {first : EStateM ε σ β}
    {rest : β → EStateM ε σ α}
    (head : Triple before first middle failed)
    (tail : ∀ value, Triple (middle value) (rest value) after failed) :
    Triple before (first >>= rest) after failed := by
  intro state start
  change match EStateM.bind first rest state with
    | .ok value next => after value next
    | .error err next => failed err next
  rw [EStateM.bind]
  cases ran : first state with
  | ok value next => exact tail value next (head.ok start ran)
  | error err next => exact head.error start ran

theorem Triple.read {rest : σ → EStateM ε σ α}
    (tail : ∀ start, before start →
      Triple (fun state => state = start) (rest start) after failed) :
    Triple before (get >>= rest) after failed :=
  fun state start => tail state start state rfl

theorem Triple.handle {caught : ε → σ → Prop} {handler : ε → EStateM ε σ α}
    (body : Triple before program after caught)
    (recovery : ∀ err, Triple (caught err) (handler err) after failed) :
    Triple before (handle program handler) after failed := by
  intro state start
  rw [ErrorState.handle]
  cases ran : program state with
  | ok value next => exact body.ok start ran
  | error err next => exact recovery err next (body.error start ran)

theorem Triple.ite {condition : Prop} [Decidable condition]
    {yes no : EStateM ε σ α}
    (whenTrue : condition → Triple before yes after failed)
    (whenFalse : ¬condition → Triple before no after failed) :
    Triple before (if condition then yes else no) after failed := by
  by_cases holds : condition
  · rw [if_pos holds]
    exact whenTrue holds
  · rw [if_neg holds]
    exact whenFalse holds

end Rules

theorem Triple.const {holds : Prop} (program : EStateM ε σ α) :
    Triple (fun _ => holds) program (fun _ _ => holds) fun _ _ => holds := by
  apply Triple.intro
  · intro _ _ _ start _
    exact start
  · intro _ _ _ start _
    exact start

theorem foldlM_congr_map {γ δ : Type} {first : α → β → EStateM ε σ α}
    {second : α → γ → EStateM ε σ α} {image : β → δ} {image' : γ → δ}
    {others : List γ}
    (agree : ∀ value item other, other ∈ others → image item = image' other →
      first value item = second value other)
    (same : items.map image = others.map image') (value : α) :
    items.foldlM first value = others.foldlM second value := by
  induction items generalizing others value with
  | nil =>
    rw [map_nil, eq_comm, map_eq_nil_iff] at same
    rw [same]
    rfl
  | cons item rest induction =>
    cases others with
    | nil => contradiction
    | cons other others =>
      rw [map_cons, map_cons] at same
      injection same with here later
      rw [foldlM_cons, foldlM_cons,
        agree value item other mem_cons_self here]
      congr 1
      funext value
      apply induction _ later
      intro value item other mem
      exact agree value item other (mem_cons_of_mem _ mem)

theorem foldlM_ok_mem {value' : α}
    (ran : items.foldlM body value state = .ok value' next) {item : β}
    (inside : item ∈ items) :
    ∃ start before result after, body start item before = .ok result after := by
  induction items generalizing value state with
  | nil => contradiction
  | cons first rest induction =>
    rw [foldlM_cons] at ran
    obtain ⟨middle, between, here, others⟩ := bind_ok ran
    rcases mem_cons.mp inside with rfl | later
    · exact ⟨value, state, middle, between, here⟩
    · exact induction others later

theorem foldlM_error (ran : items.foldlM body value state = .error err next) :
    ∃ done item rest value' middle, items = done ++ item :: rest ∧
      done.foldlM body value state = .ok value' middle ∧
      body value' item middle = .error err next := by
  induction items generalizing value state with
  | nil => contradiction
  | cons item rest induction =>
    rw [foldlM_cons] at ran
    rcases bind_error ran with failed | ⟨value', middle, first, others⟩
    · exact ⟨[], item, rest, value, state, rfl, rfl, failed⟩
    · obtain ⟨done, failing, left, value'', between, split, before,
        failed⟩ := induction others
      refine ⟨item :: done, failing, left, value'', between, ?_, ?_, failed⟩
      · rw [split, cons_append]
      · rw [foldlM_cons, bind_of_ok first]
        exact before

theorem foldlM_error_at {done rest : List β} {item : β} {value' : α}
    {middle : σ} (before : done.foldlM body value state = .ok value' middle)
    (failed : body value' item middle = .error err next) :
    (done ++ item :: rest).foldlM body value state = .error err next := by
  rw [foldlM_append, bind_of_ok before, foldlM_cons,
    bind_of_error failed]

end ErrorState
