import Mathlib.Logic.Function.Basic
import Mathlib.Order.Lattice
import Mathlib.Algebra.Order.Ring.Int

/-! What a message service is for: a mailbox for each user, in which every message has a number.
Senders send one message after the other, a mailbox numbers the messages of one sender in the
order in which they were sent, and an acknowledgement tells the sender its own number. -/
namespace Mailbox
variable {User Message Body : Type}

structure State (User Message Body : Type) where
  sent : Message → Option Body
  boxes : User → Message → Option Int

inductive Op (User Message Body : Type) where
  | send (m : Message) (body : Body)
  | deliver (owner : User) (m : Message) (number : Int)
  | acknowledge (m : Message) (number : Int)
  deriving DecidableEq

namespace State

def Shows (s : State User Message Body) (owner : User) (m : Message) (number : Int) (body : Body) :
    Prop :=
  s.boxes owner m = some number ∧ s.sent m = some body

def empty : State User Message Body := ⟨fun _ => none, fun _ _ => none⟩

end State

section Steps
variable [DecidableEq User] [DecidableEq Message]

def State.send (s : State User Message Body) (m : Message) (body : Body) :
    State User Message Body :=
  { s with sent := Function.update s.sent m (some body) }

def State.deliver (s : State User Message Body) (owner : User) (m : Message) (number : Int) :
    State User Message Body :=
  { s with
    boxes := Function.update s.boxes owner (Function.update (s.boxes owner) m (some number)) }

theorem State.deliver_boxes (s : State User Message Body) (owner other : User) (m m' : Message)
    (number : Int) : (s.deliver owner m number).boxes other m' =
      if other = owner ∧ m' = m then some number else s.boxes other m' := by
  by_cases user : other = owner
  · subst user
    by_cases message : m' = m
    · subst message
      simp [deliver]
    · simp [deliver, message]
  · simp [deliver, user]

/-- `before` relates the messages of one sender. -/
inductive Step (sender : Message → User) (before : Message → Message → Prop)
    (s : State User Message Body) : Op User Message Body → State User Message Body → Prop where
  /-- The sender has its older messages in its own mailbox. -/
  | send (unsent : s.sent m = none)
      (newest : ∀ older, sender older = sender m → s.sent older ≠ none →
        before older m ∧ s.boxes (sender m) older ≠ none) :
      Step sender before s (.send m body) (s.send m body)
  /-- The sender's mailbox comes first. -/
  | deliver (sent : s.sent m ≠ none) (absent : s.boxes owner m = none)
      (first : owner = sender m ∨ s.boxes (sender m) m ≠ none)
      (unused : ∀ other, s.boxes owner other ≠ some number)
      (above : ∀ older, before older m → ∀ i ∈ s.boxes owner older, i < number)
      (below : ∀ newer, before m newer → ∀ i ∈ s.boxes owner newer, number < i) :
      Step sender before s (.deliver owner m number) (s.deliver owner m number)
  | acknowledge (own : s.boxes (sender m) m = some number) :
      Step sender before s (.acknowledge m number) s

inductive Trace (sender : Message → User) (before : Message → Message → Prop) :
    State User Message Body → List (Op User Message Body) → State User Message Body → Prop where
  | refl (s) : Trace sender before s [] s
  | next (step : Step sender before s op t) (rest : Trace sender before t ops u) :
      Trace sender before s (op :: ops) u

variable {sender : Message → User} {before : Message → Message → Prop}
  {s t u : State User Message Body}

theorem Trace.append (first : Trace sender before s ops t)
    (second : Trace sender before t others u) : Trace sender before s (ops ++ others) u := by
  induction first with
  | refl => exact second
  | next step _ ih => exact .next step (ih second)

theorem Step.kept (step : Step sender before s op t) (present : s.boxes owner m = some number) :
    t.boxes owner m = some number := by
  cases step with
  | send | acknowledge => exact present
  | deliver sent absent first unused above below =>
      rw [State.deliver_boxes, if_neg]
      · exact present
      · rintro ⟨rfl, rfl⟩
        rw [absent] at present
        contradiction

theorem Trace.kept (trace : Trace sender before s ops t) (present : s.boxes owner m = some number) :
    t.boxes owner m = some number := by
  induction trace with
  | refl => exact present
  | next step _ ih => exact ih (step.kept present)

theorem Trace.acknowledged (trace : Trace sender before s ops t)
    (member : .acknowledge m number ∈ ops) : t.boxes (sender m) m = some number := by
  induction trace with
  | refl => exact absurd member List.not_mem_nil
  | next step rest ih =>
      rcases List.mem_cons.mp member with rfl | later
      · cases step with
        | acknowledge own => exact rest.kept own
      · exact ih later

/-- In a mailbox the numbers of one sender's messages are in their order. -/
def Ordered (before : Message → Message → Prop) (s : State User Message Body) : Prop :=
  ∀ owner older newer i j, before older newer → s.boxes owner older = some i →
    s.boxes owner newer = some j → i < j

theorem Step.ordered (step : Step sender before s op t) (irrefl : ∀ m, ¬ before m m)
    (ordered : Ordered before s) : Ordered before t := by
  cases step with
  | send | acknowledge => exact ordered
  | deliver sent absent first unused above below =>
      intro owner older newer i j order left right
      rw [State.deliver_boxes] at left right
      split at left
      · rename_i new
        obtain ⟨rfl, rfl⟩ := new
        cases left
        rw [if_neg (fun same => irrefl _ (same.2 ▸ order))] at right
        exact below newer order j right
      · split at right
        · rename_i new
          obtain ⟨rfl, rfl⟩ := new
          cases right
          exact above older order i left
        · exact ordered owner older newer i j order left right

theorem Trace.ordered (trace : Trace sender before s ops t) (irrefl : ∀ m, ¬ before m m)
    (ordered : Ordered before s) : Ordered before t := by
  induction trace with
  | refl => exact ordered
  | next step _ ih => exact ih (step.ordered irrefl ordered)

theorem Trace.acknowledgements_ordered (trace : Trace sender before .empty ops t)
    (irrefl : ∀ m, ¬ before m m) (order : before older newer)
    (same : sender older = sender newer)
    (left : .acknowledge older i ∈ ops) (right : .acknowledge newer j ∈ ops) : i < j := by
  have ordered : Ordered before t := by
    refine trace.ordered irrefl ?_
    intro _ _ _ _ _ _ none
    cases none
  have first := trace.acknowledged left
  rw [same] at first
  exact ordered _ older newer i j order first (trace.acknowledged right)

end Steps
end Mailbox
