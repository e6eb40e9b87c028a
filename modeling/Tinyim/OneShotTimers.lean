import Mathlib.Logic.Function.Basic

/-! One-shot timers. A pending timer is cancelled or starts its callback, never
both. A callback has one critical section and owns its argument until it returns. -/
namespace OneShotTimers

inductive Status where
  | pending
  | cancelled
  /-- Before the critical section of the callback. -/
  | running
  /-- After it. -/
  | leaving
  | finished
  deriving DecidableEq, Repr

/-- The argument is nobody's any more: the canceller or the callback has disposed of it. -/
def Status.settled : Status → Bool
  | .cancelled | .finished => true
  | .pending | .running | .leaving => false

structure Task (α : Type) where
  argument : α
  status : Status := .pending
  deriving DecidableEq, Repr

abbrev Table (α : Type) := Nat → Option (Task α)

namespace Table
variable {α : Type} {table table' : Table α} {id other : Nat} {argument : α} {task : Task α}

def pending (table : Table α) (id : Nat) : Bool := (table id).any (·.status = .pending)

/-- Arms a new timer, whose id is not zero and names no other timer. -/
def add (table : Table α) (id : Nat) (argument : α) : Option (Table α) :=
  if id = 0 ∨ (table id).isSome then none
  else some (Function.update table id (some { argument }))

/-- Cancels a timer, which succeeds exactly when it is pending. -/
def del (table : Table α) (id : Nat) : Bool × Table α :=
  if table.pending id then
    (true, Function.update table id ((table id).map ({ · with status := .cancelled })))
  else (false, table)

/-- Moves a callback on, giving the argument it owns. -/
def advance (before after : Status) (table : Table α) (id : Nat) : Option (α × Table α) := do
  let task ← table id
  if task.status = before then
    return (task.argument, Function.update table id (some { task with status := after }))
  else none

def Live (table : Table α) (id : Nat) : Prop :=
  ∃ task, table id = some task ∧ task.status.settled = false

instance (table : Table α) (id : Nat) : Decidable (table.Live id) :=
  match found : table id with
  | none => isFalse fun ⟨_, present, _⟩ => by cases found.symm.trans present
  | some task => decidable_of_iff (task.status.settled = false)
      ⟨fun unsettled => ⟨task, found, unsettled⟩,
        fun ⟨_, present, unsettled⟩ => by
          cases found.symm.trans present
          exact unsettled⟩

theorem pending_iff :
    table.pending id = true ↔ ∃ task, table id = some task ∧ task.status = .pending := by
  simp [pending, Option.any_eq_true]

theorem add_cases (added : table.add id argument = some table') :
    id ≠ 0 ∧ table id = none ∧ table' = Function.update table id (some { argument }) := by
  simp only [add] at added
  split at added
  · contradiction
  · rename_i allowed
    obtain ⟨positive, unused⟩ := not_or.mp allowed
    exact ⟨positive, by simpa using unused, (Option.some.inj added).symm⟩

theorem advance_cases (moved : table.advance before after id = some (argument, table')) :
    table id = some { argument, status := before } ∧
      table' = Function.update table id (some { argument, status := after }) := by
  obtain ⟨⟨arg, status⟩, found, rest⟩ := Option.bind_eq_some_iff.mp moved
  split at rest
  · rename_i same
    cases same
    cases rest
    exact ⟨found, rfl⟩
  · contradiction

theorem del_cases (table : Table α) (id : Nat) :
    (∃ argument, table.del id =
        (true, Function.update table id (some { argument, status := .cancelled })) ∧
      table id = some { argument, status := .pending }) ∨
    table.del id = (false, table) ∧ table.pending id = false := by
  simp only [del]
  split
  · rename_i held
    obtain ⟨⟨argument, status⟩, found, rfl⟩ := pending_iff.mp held
    exact Or.inl ⟨argument, by rw [found]; rfl, found⟩
  · rename_i ended
    exact Or.inr ⟨rfl, by simpa using ended⟩

theorem live_update : Live (Function.update table id (some task)) other ↔
    if other = id then task.status.settled = false else table.Live other := by
  by_cases same : other = id
  · subst same
    simp [Live]
  · simp [Live, same]

theorem add_live (added : table.add id argument = some table') :
    ¬ table.Live id ∧ ∀ other, table'.Live other ↔ other = id ∨ table.Live other := by
  obtain ⟨-, unused, rfl⟩ := add_cases added
  refine ⟨fun ⟨task, found, _⟩ => ?_, fun other => ?_⟩
  · rw [unused] at found
    cases found
  · rw [live_update]
    by_cases same : other = id
    · simp [same, Status.settled]
    · simp [same]

theorem advance_live (moved : table.advance before after id = some (argument, table'))
    (unsettled : before.settled = false) :
    table.Live id ∧
      ∀ other, table'.Live other ↔ table.Live other ∧ (other = id → after.settled = false) := by
  obtain ⟨found, rfl⟩ := advance_cases moved
  refine ⟨⟨_, found, unsettled⟩, fun other => ?_⟩
  rw [live_update]
  by_cases same : other = id
  · subst same
    simp [show table.Live other from ⟨_, found, unsettled⟩]
  · simp [same]

theorem del_live (table : Table α) (id other : Nat) :
    (table.del id).2.Live other ↔ table.Live other ∧ (other = id → table.pending id = false) := by
  obtain ⟨argument, deleted, found⟩ | ⟨deleted, ended⟩ := del_cases table id
  · have held : table.pending id = true := pending_iff.mpr ⟨_, found, rfl⟩
    rw [deleted, live_update, held]
    by_cases same : other = id
    · simp [same, Status.settled]
    · simp [same]
  · rw [deleted, ended]
    simp

end Table
end OneShotTimers
