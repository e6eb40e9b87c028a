import Tinyim.Delivery.PushedCopies
import Tinyim.Delivery.Order

/-! The background tasks that push accepted messages. `SendMsg` returns once it has started its
task, so the tasks of a sender run beside each other and beside its next calls. -/
namespace Tinyim.Delivery
open IdGen Dbproxy Logic Transition

/-- One execution of `SendtoPeers`. -/
structure PushTask where
  attempt : Nat
  args : SendtoPeersArgs
  /-- The calls still to be issued, once the sessions are there. -/
  calls : Option (List (Text × Msg)) := none

structure Pushing where
  world : World
  tasks : List PushTask := []
  /-- The `SendtoAccess` calls with their addresses, in the order in which they are issued. -/
  issued : List (Text × Msg) := []

inductive PushEvent where
  | world (e : Event)
  /-- The reply of `GetSessions`, from the values that the keys have at that moment. -/
  | getSessions (task : Nat) (value : Int → Option Text)
  | getSessionsFails (task : Nat)
  | sendtoAccess (task : Nat)

/-- An attempt that a reply has just made an accepted one starts its task. -/
def startedTasks (w : World) : Event → List PushTask
  | .saveReplied a _ =>
    match w.attempts[a]?.map Attempt.stage with
    | some (.finished (.accepted _ args)) => [{ attempt := a, args }]
    | _ => []
  | _ => []

namespace Pushing

def setTask (s : Pushing) (t : Nat) (task : PushTask) : Pushing :=
  { s with tasks := s.tasks.set t task }

/-- The reply of `GetSessions` settles what the loop will do. -/
def plan (t : Nat) (calls : PushTask → List (Text × Msg)) (s : Pushing) : Option Pushing := do
  let task ← s.tasks[t]?
  match task.calls with
  | none => return s.setTask t { task with calls := some (calls task) }
  | some _ => none

/-- One round of the loop. -/
def sendtoAccess (t : Nat) (s : Pushing) : Option Pushing := do
  let task ← s.tasks[t]?
  match task.calls with
  | some (call :: calls) =>
    return { s.setTask t { task with calls := some calls } with issued := s.issued ++ [call] }
  | _ => none

end Pushing

def pushStep (n : Int) (s : Pushing) : PushEvent → Option Pushing
  | .world e => (step n s.world e).map fun world =>
      { s with world, tasks := s.tasks ++ startedTasks world e }
  | .getSessions t value =>
      s.plan t fun task => sendtoPeers task.args (getSessions value (recipients task.args))
  | .getSessionsFails t => s.plan t fun _ => []
  | .sendtoAccess t => s.sendtoAccess t

inductive Pushes (n : Int) (s : Pushing) : PushEvent → Pushing → Prop where
  | world (moved : Moves n s.world e w') :
      Pushes n s (.world e) { s with world := w', tasks := s.tasks ++ startedTasks w' e }
  | planned {t : Nat} (found : s.tasks[t]? = some task) (waiting : task.calls = none)
      (plan : calls = [] ∨
        ∃ value, calls = sendtoPeers task.args (getSessions value (recipients task.args))) :
      Pushes n s pe (s.setTask t { task with calls := some calls })
  | issued {t : Nat} (found : s.tasks[t]? = some task) (next : task.calls = some (call :: calls)) :
      Pushes n s (.sendtoAccess t)
        { s.setTask t { task with calls := some calls } with issued := s.issued ++ [call] }

variable {n : Int} {s s' : Pushing} {pe : PushEvent} {w w' : World} {e : Event}

theorem plan_eq_some {calls : PushTask → List (Text × Msg)} (planned : s.plan t calls = some s') :
    ∃ task, s.tasks[t]? = some task ∧ task.calls = none ∧
      s' = s.setTask t { task with calls := some (calls task) } := by
  simp only [Pushing.plan, Option.bind_eq_bind, Option.bind_eq_some_iff] at planned
  obtain ⟨task, found, planned⟩ := planned
  split at planned
  · rename_i waiting
    exact ⟨task, found, waiting, (Option.some.inj planned).symm⟩
  · contradiction

theorem pushes_of_step (stepped : pushStep n s pe = some s') : Pushes n s pe s' := by
  cases pe with
  | world e =>
      obtain ⟨w', moved, rfl⟩ := Option.map_eq_some_iff.mp stepped
      exact .world (moves_of_step moved)
  | getSessions t value =>
      obtain ⟨task, found, waiting, rfl⟩ := plan_eq_some stepped
      exact .planned found waiting (.inr ⟨value, rfl⟩)
  | getSessionsFails t =>
      obtain ⟨task, found, waiting, rfl⟩ := plan_eq_some stepped
      exact .planned found waiting (.inl rfl)
  | sendtoAccess t =>
      simp only [pushStep, Pushing.sendtoAccess, Option.bind_eq_bind,
        Option.bind_eq_some_iff] at stepped
      obtain ⟨task, found, stepped⟩ := stepped
      split at stepped
      · rename_i call calls next
        cases stepped
        exact .issued found next
      · contradiction

theorem startedTasks_cases (started : task ∈ startedTasks w e) :
    ∃ a j reply next, e = .saveReplied a j ∧ startedTasks w e = [task] ∧ task.calls = none ∧
      task.attempt = a ∧ w.attempts[a]? = some next ∧
      next.stage = .finished (.accepted reply task.args) := by
  cases e with
  | saveReplied a j =>
      simp only [startedTasks] at started ⊢
      split at started
      · rename_i reply args accepted
        obtain ⟨next, found, stage⟩ := Option.map_eq_some_iff.mp accepted
        cases List.mem_singleton.mp started
        exact ⟨a, j, reply, next, rfl, rfl, rfl, rfl, found, stage⟩
      · exact absurd started List.not_mem_nil
  | start | redisGet | select | lookedUp | groupMembers | idGenerate | idReplied | saveArrives
  | insert | setLastSend | rpcFails | strayIds | idgenRestarts | redisExpires =>
      exact absurd started List.not_mem_nil

theorem saveReplied_before (moved : Moves n w (.saveReplied a j) w') :
    ∃ att idRequest request, w.attempts[a]? = some att ∧ att.stage = .save idRequest request := by
  cases moved with
  | advanced found adv =>
      cases adv with
      | saveReplied stage => exact ⟨_, _, _, found, stage⟩
      | failed fault => obtain absurd | absurd | ⟨_, absurd⟩ := fault <;> cases absurd

end Tinyim.Delivery
