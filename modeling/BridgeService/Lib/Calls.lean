import Mathlib.Logic.Function.Basic
import Mathlib.Logic.Relation

/-!
# Programs that make calls

A program makes calls one after another and goes on with their answers.
Several programs run side by side on a shared state: each call is one step, and
steps of different programs come in any order.

A protocol says which calls a program may make, depending on the calls that it
has made and their answers, and which answers it counts on.  If every program
follows its protocol, a property of the shared state and of the positions in
the protocols has to be checked for the calls of the protocols only.
-/

namespace Calls

structure Interface where
  Call : Type
  Answer : Call → Type

inductive Program (I : Interface) (α : Type)
  | pure (value : α)
  | call (request : I.Call) (next : I.Answer request → Program I α)

namespace Program

variable {I : Interface} {α β : Type}

def bind : Program I α → (α → Program I β) → Program I β
  | .pure value, rest => rest value
  | .call request next, rest =>
    .call request fun answer => (next answer).bind rest

instance : Monad (Program I) where
  pure := Program.pure
  bind := Program.bind

def request (c : I.Call) : Program I (I.Answer c) :=
  .call c .pure

end Program

/-- Positions of a program, the calls that may be made in a position, the
answers that are expected, the position after an answer, and the positions in
which a program may end. -/
structure Protocol (I : Interface) (L : Type) where
  start : L
  ends : L → Prop
  allowed : L → I.Call → Prop
  expected : (c : I.Call) → I.Answer c → Prop
  track : L → (c : I.Call) → I.Answer c → L

namespace Program

variable {I : Interface} {L α β : Type} (protocol : Protocol I L)

/-- A program follows a protocol from a position, and ends with a result and
in a position that fit together. -/
def Follows (post : α → L → Prop) : L → Program I α → Prop
  | position, .pure value => post value position
  | position, .call request next => protocol.allowed position request ∧
      ∀ answer, protocol.expected request answer →
        (next answer).Follows post (protocol.track position request answer)

variable {protocol} {position : L}

@[simp] theorem follows_bind {program : Program I α}
    {rest : α → Program I β} {post : β → L → Prop} :
    (program >>= rest).Follows protocol post position ↔
      program.Follows protocol
        (fun value position => (rest value).Follows protocol post position)
        position := by
  change (program.bind rest).Follows protocol post position ↔ _
  induction program generalizing position with
  | pure value => exact Iff.rfl
  | call request next induction =>
    rw [bind, Follows, Follows]
    simp only [induction]

variable (protocol) in
/-- A run of a program to its end, with answers that are expected. -/
inductive Returns : L → Program I α → α → L → Prop
  | pure {position : L} {value : α} : Returns position (.pure value) value
      position
  | call {position position' : L} {request : I.Call}
      {next : I.Answer request → Program I α} {value : α}
      (answer : I.Answer request) (expected : protocol.expected request answer)
      (rest : Returns (protocol.track position request answer) (next answer)
        value position') :
      Returns position (.call request next) value position'

theorem Follows.returns {program : Program I α} {post : α → L → Prop}
    {value : α} {position' : L}
    (follows : program.Follows protocol post position)
    (returns : Returns protocol position program value position') :
    post value position' := by
  induction returns with
  | pure => exact follows
  | call answer expected rest induction =>
    exact induction (follows.2 answer expected)

def Keeps (protocol : Protocol I L) (program : Program I Unit) : Prop :=
  program.Follows protocol (fun _ position => protocol.ends position)
    protocol.start

theorem Follows.mono {program : Program I α} {post weaker : α → L → Prop}
    (follows : program.Follows protocol post position)
    (implies : ∀ value position, post value position → weaker value position) :
    program.Follows protocol weaker position := by
  induction program generalizing position with
  | pure value => exact implies value position follows
  | call request next induction =>
    exact ⟨follows.1, fun answer expected =>
      induction answer (follows.2 answer expected)⟩

end Program

/-- Programs that share a state.  A call is served with an answer, a program
that has ended is followed by another one, and the state may change by
itself. -/
structure System (ι σ : Type) (I : Interface) where
  serves : ι → σ → (c : I.Call) → I.Answer c → σ → Prop
  starts : ι → Program I Unit → Prop
  moves : σ → σ → Prop

structure Config (ι σ : Type) (I : Interface) (L : Type) where
  shared : σ
  programs : ι → Program I Unit
  positions : ι → L

namespace System

variable {ι σ L : Type} [DecidableEq ι] {I : Interface}
  (system : System ι σ I) (protocol : ι → Protocol I L)

inductive Step (guard : Config ι σ I L → ι → (c : I.Call) → I.Answer c →
    Prop) (config : Config ι σ I L) : Config ι σ I L → Prop
  | call (i : ι) {c : I.Call} {next : I.Answer c → Program I Unit}
      (waits : config.programs i = .call c next) (answer : I.Answer c)
      {shared : σ} (served : system.serves i config.shared c answer shared)
      (meets : guard config i c answer) : Step guard config
        { shared := shared
          programs := Function.update config.programs i (next answer)
          positions := Function.update config.positions i
            ((protocol i).track (config.positions i) c answer) }
  | start (i : ι) (ended : config.programs i = .pure ())
      {program : Program I Unit} (next : system.starts i program) :
      Step guard config
        { config with
          programs := Function.update config.programs i program
          positions := Function.update config.positions i (protocol i).start }
  | move {shared : σ} (moved : system.moves config.shared shared) :
      Step guard config { config with shared := shared }

abbrev Run (guard : Config ι σ I L → ι → (c : I.Call) → I.Answer c →
    Prop) : Config ι σ I L → Config ι σ I L → Prop :=
  Relation.ReflTransGen (system.Step protocol guard)

def rest (shared : σ) : Config ι σ I L :=
  { shared := shared
    programs := fun _ => .pure ()
    positions := fun i => (protocol i).start }

variable {system protocol}
  {guard : Config ι σ I L → ι → (c : I.Call) → I.Answer c → Prop}

def Following (protocol : ι → Protocol I L) (config : Config ι σ I L) :
    Prop :=
  ∀ i, (config.programs i).Follows (protocol i)
    (fun _ position => (protocol i).ends position) (config.positions i)

theorem Following.step {config config' : Config ι σ I L}
    (following : Following protocol config)
    (keeps : ∀ i program, system.starts i program → program.Keeps (protocol i))
    (expected : ∀ i c answer shared',
      (protocol i).allowed (config.positions i) c →
      system.serves i config.shared c answer shared' →
      (protocol i).expected c answer)
    (step : system.Step protocol guard config config') :
    Following protocol config' := by
  intro j
  cases step with
  | call i waits answer served meets =>
    by_cases same : j = i
    · subst same
      have here := following j
      rw [waits] at here
      simpa using here.2 answer (expected j _ answer _ here.1 served)
    · simpa [same] using following j
  | start i ended next =>
    by_cases same : j = i
    · subst same
      simpa [Program.Keeps] using keeps j _ next
    · simpa [same] using following j
  | move moved => exact following j

theorem invariant (inv : σ → (ι → L) → Prop) {shared : σ}
    {config : Config ι σ I L}
    (keeps : ∀ i program, system.starts i program → program.Keeps (protocol i))
    (initial : inv shared fun i => (protocol i).start)
    (expected : ∀ shared positions i c answer shared', inv shared positions →
      (protocol i).allowed (positions i) c →
      system.serves i shared c answer shared' →
      (protocol i).expected c answer)
    (calls : ∀ config i c answer shared', inv config.shared config.positions →
      (protocol i).allowed (config.positions i) c →
      system.serves i config.shared c answer shared' →
      guard config i c answer →
      inv shared' (Function.update config.positions i
        ((protocol i).track (config.positions i) c answer)))
    (starts : ∀ shared positions i, inv shared positions →
      (protocol i).ends (positions i) →
      inv shared (Function.update positions i (protocol i).start))
    (moves : ∀ shared shared' positions, inv shared positions →
      system.moves shared shared' → inv shared' positions)
    (ends : ∀ i, (protocol i).ends (protocol i).start)
    (ran : system.Run protocol guard (rest protocol shared) config) :
    inv config.shared config.positions := by
  have both : Following protocol config ∧
      inv config.shared config.positions := by
    induction ran with
    | refl => exact ⟨ends, initial⟩
    | tail _ step induction =>
      refine ⟨induction.1.step keeps
        (fun i c answer shared' => expected _ _ i c answer shared'
          induction.2) step, ?_⟩
      cases step with
      | call i waits answer served meets =>
        have here := induction.1 i
        rw [waits] at here
        exact calls _ i _ answer _ induction.2 here.1 served meets
      | start i ended next =>
        have here := induction.1 i
        rw [ended] at here
        exact starts _ _ i induction.2 here
      | move moved => exact moves _ _ _ induction.2 moved
  exact both.2

end System

inductive Turn (ι σ A : Type) (I : Interface)
  | call (i : ι) (answers : A)
  | start (i : ι) (program : Program I Unit)
  | move (change : σ → σ)

structure Player (ι σ A L : Type) (I : Interface) where
  system : System ι σ I
  protocol : ι → Protocol I L
  serve : A → ι → σ → (c : I.Call) → I.Answer c × σ
  serves : ∀ answers i shared c, system.serves i shared c
    (serve answers i shared c).1 (serve answers i shared c).2

namespace Player

variable {ι σ A L : Type} [DecidableEq ι] {I : Interface}
  (player : Player ι σ A L I)
  (guard : Config ι σ I L → ι → (c : I.Call) → I.Answer c → Bool)

def playEvent (config : Config ι σ I L) :
    Turn ι σ A I → Option (Config ι σ I L)
  | .call i answers =>
    match config.programs i with
    | .pure _ => none
    | .call c next =>
      let served := player.serve answers i config.shared c
      if guard config i c served.1 then
        some
          { shared := served.2
            programs := Function.update config.programs i (next served.1)
            positions := Function.update config.positions i
              ((player.protocol i).track (config.positions i) c served.1) }
      else
        none
  | .start i program =>
    match config.programs i with
    | .pure _ =>
      some
        { config with
          programs := Function.update config.programs i program
          positions := Function.update config.positions i
            (player.protocol i).start }
    | .call _ _ => none
  | .move change => some { config with shared := change config.shared }

def play (config : Config ι σ I L) :
    List (Turn ι σ A I) → Option (Config ι σ I L)
  | [] => some config
  | event :: rest =>
    match player.playEvent guard config event with
    | none => none
    | some config => play config rest

/-- A program may be started, and the shared state may change so. -/
def Possible : Turn ι σ A I → Prop
  | .call _ _ => True
  | .start i program => player.system.starts i program
  | .move change => ∀ shared, player.system.moves shared (change shared)

variable {player} {guard}
  {allowed : Config ι σ I L → ι → (c : I.Call) → I.Answer c → Prop}

section

variable {config : Config ι σ I L}
  (meets : ∀ config i c answer, guard config i c answer = true →
    allowed config i c answer)

include meets

private theorem step_of_playEvent {config' : Config ι σ I L}
    {event : Turn ι σ A I} (possible : player.Possible event)
    (played : player.playEvent guard config event = some config') :
    player.system.Step player.protocol allowed config config' := by
  cases event with
  | call i answers =>
    rw [playEvent] at played
    split at played
    · contradiction
    · next c next waits =>
      simp only [Option.ite_none_right_eq_some, Option.some.injEq] at played
      obtain ⟨guarded, rfl⟩ := played
      exact .call i waits _ (player.serves answers i config.shared c)
        (meets _ _ _ _ guarded)
  | start i program =>
    rw [playEvent] at played
    split at played
    · next ended =>
      rw [← Option.some.inj played]
      exact .start i ended possible
    · contradiction
  | move change =>
    rw [← Option.some.inj played]
    exact .move (possible config.shared)

theorem run_of_play {config' : Config ι σ I L} {events : List (Turn ι σ A I)}
    (possible : ∀ event, event ∈ events → player.Possible event)
    (played : player.play guard config events = some config') :
    player.system.Run player.protocol allowed config config' := by
  induction events generalizing config with
  | nil =>
    obtain rfl := Option.some.inj played
    exact .refl
  | cons event rest induction =>
    rw [play] at played
    split at played
    · contradiction
    · next middle first =>
      refine .head (step_of_playEvent meets
        (possible event List.mem_cons_self) first) ?_
      exact induction
        (fun other later => possible other (List.mem_cons_of_mem _ later))
        played

theorem exists_run {α : Type} {events : List (Turn ι σ A I)}
    (possible : ∀ event, event ∈ events → player.Possible event)
    {result : Config ι σ I L → α} {value : α}
    (played : (player.play guard config events).map result = some value) :
    ∃ config', player.system.Run player.protocol allowed config config' ∧
      result config' = value := by
  obtain ⟨config', reached, here⟩ := Option.map_eq_some_iff.mp played
  exact ⟨config', run_of_play meets possible reached, here⟩

end

end Player

end Calls
