import BridgeService.Cmd.Run

/-!
# Concrete runs

A script lists what the parts of the service do one after the other.  Whether
it can be followed is computed, and what can be followed is a run.
-/

namespace BridgeService

open ErrorState

variable {H : Type} [DecidableEq H] [Externals H]

/-- Whether the synchronizer of an L2 network sends its last entry, with a check
of the state after it. -/
def Deployment.sends (d : Deployment) (networkID : Nat)
    (check : World H → Bool) (w : World H) : Bool :=
  returns (d.l2 networkID).sendL2Ger (fun _ w' => check w') w

/-- Whether the manager of an L2 network handles the next entry, with a check
of the state after it. -/
def Deployment.handles (d : Deployment) (networkID : Nat)
    (check : World H → Bool) (w : World H) : Bool :=
  match w.exitRootEvents networkID with
  | [] => false
  | ger :: rest =>
    returns ((d.manager networkID).updateDepositsStatus ger)
      (fun _ w' => check w') (w.receive networkID rest)

variable {d : Deployment} {height networkID : Nat} {check : World H → Bool}
  {w : World H}

theorem Deployment.step_of_sends (deployed : networkID ∈ d.networkIDs)
    (sent : d.sends networkID check w = true) :
    ∃ w', d.Step height w w' ∧ check w' = true := by
  obtain ⟨_, w', ran, checked⟩ := exists_of_returns sent
  exact ⟨w', .sendL2 networkID deployed (.inl ⟨_, ran⟩), checked⟩

theorem Deployment.step_of_handles (deployed : networkID ∈ d.networkIDs)
    (handled : d.handles networkID check w = true) :
    ∃ w', d.Step height w w' ∧ check w' = true := by
  rw [Deployment.handles.eq_def] at handled
  split at handled
  · contradiction
  · next ger rest pending =>
    obtain ⟨_, w', ran, checked⟩ := exists_of_returns handled
    exact ⟨w', .status networkID deployed ger rest pending
      (.inl ⟨_, ran⟩), checked⟩

/-- One entry of a script: a block of a network, an entry that is sent by L1 or
by an L2 network, an entry that a manager handles, or a reset. -/
inductive Script (H : Type)
  | block (networkID : Nat) (order : H → List Order) (block : Block H)
  | sendL1
  | send (networkID : Nat)
  | handle (networkID : Nat)
  | reset (networkID blockNumber : Nat)

def Deployment.synchronizer (d : Deployment) (networkID : Nat) :
    ClientSynchronizer :=
  if networkID = 0 then d.l1 else d.l2 networkID

theorem Deployment.synchronizer_mem
    (deployed : networkID = 0 ∨ networkID ∈ d.networkIDs) :
    d.synchronizer networkID ∈ d.synchronizers := by
  rw [Deployment.synchronizer]
  split
  · exact List.mem_cons_self
  · next notL1 =>
    apply List.mem_cons_of_mem
    exact List.mem_map_of_mem (deployed.resolve_left notL1)

def Deployment.performs (d : Deployment) (height : Nat) (script : Script H)
    (check : World H → Bool) (w : World H) : Bool :=
  match script with
  | .block networkID order block =>
    decide (networkID = 0 ∨ networkID ∈ d.networkIDs) &&
      Deployment.commits height (d.synchronizer networkID) order block check w
  | .sendL1 => returns d.l1.sendL1Ger (fun _ w' => check w') w
  | .send networkID =>
    decide (networkID ∈ d.networkIDs) && d.sends networkID check w
  | .handle networkID =>
    decide (networkID ∈ d.networkIDs) && d.handles networkID check w
  | .reset networkID blockNumber =>
    decide (networkID = 0 ∨ networkID ∈ d.networkIDs) &&
      returns ((d.synchronizer networkID).resetState blockNumber)
        (fun _ w' => check w') w

theorem Deployment.step_of_performs {script : Script H}
    (performed : d.performs height script check w = true) :
    ∃ w', d.Step height w w' ∧ check w' = true := by
  cases script with
  | block networkID order block =>
    obtain ⟨deployed, committed⟩ := Bool.and_eq_true_iff.mp performed
    exact step_of_commits (synchronizer_mem (of_decide_eq_true deployed))
      committed
  | sendL1 =>
    obtain ⟨_, w', ran, checked⟩ := exists_of_returns performed
    exact ⟨w', .sendL1 (.inl ⟨_, ran⟩), checked⟩
  | send networkID =>
    obtain ⟨deployed, sent⟩ := Bool.and_eq_true_iff.mp performed
    exact step_of_sends (of_decide_eq_true deployed) sent
  | handle networkID =>
    obtain ⟨deployed, handled⟩ := Bool.and_eq_true_iff.mp performed
    exact step_of_handles (of_decide_eq_true deployed) handled
  | reset networkID blockNumber =>
    obtain ⟨deployed, returned⟩ := Bool.and_eq_true_iff.mp performed
    obtain ⟨_, w', ran, checked⟩ := exists_of_returns returned
    exact ⟨w', .reset (d.synchronizer networkID)
      (synchronizer_mem (of_decide_eq_true deployed)) blockNumber
      (.inl ⟨_, ran⟩), checked⟩

/-- Whether a script can be followed with steps that meet a condition, with a
check of the last state. -/
def Deployment.follows (d : Deployment) (height : Nat)
    (condition : World H → World H → Prop)
    [∀ w w', Decidable (condition w w')] (check : World H → Bool) :
    List (Script H) → World H → Bool
  | [], w => check w
  | script :: rest, w =>
    d.performs height script
      (fun w' => decide (condition w w') &&
        d.follows height condition check rest w') w

theorem Deployment.run_of_follows {condition : World H → World H → Prop}
    [∀ w w', Decidable (condition w w')] {scripts : List (Script H)}
    (followed : d.follows height condition check scripts w = true) :
    ∃ w', d.RunWhere height condition w w' ∧ check w' = true := by
  induction scripts generalizing w with
  | nil => exact ⟨w, .refl, followed⟩
  | cons script rest induction =>
    obtain ⟨next, step, held⟩ := step_of_performs followed
    obtain ⟨met, followed⟩ := Bool.and_eq_true_iff.mp held
    obtain ⟨w', run, checked⟩ := induction followed
    exact ⟨w', .head ⟨step, of_decide_eq_true met⟩ run, checked⟩

end BridgeService
