import Tinyim.OneShotTimers
import Tinyim.Transition

/-! The heartbeat timer of one client process, which its send loop and the handler of the
timer arm in turn. Both write the id to the same field, without a lock. -/
namespace Tinyim.CmdClient
open OneShotTimers Transition

/-- Where the command loop is. -/
inductive Phase where
  /-- Before the first timer. -/
  | starting
  | prompt
  /-- Between the deletion of the timer and a successful reply. -/
  | sending
  | quit
  deriving DecidableEq, Repr

structure Client where
  timers : Table Unit := fun _ => none
  heartbeatTimeoutId : Nat := 0
  phase : Phase := .starting

inductive Event where
  | start (new : Nat)
  /-- A timer starts `HeartBeatTimeOutHeadler`. -/
  | fire (id : Nat)
  /-- Its heartbeat call is over and the handler arms the timer `new`. -/
  | rearm (id new : Nat)
  | beginSend
  | sendFails
  /-- A message is through and the loop arms the timer `new`. -/
  | sendSucceeds (new : Nat)
  | quit
  deriving DecidableEq, Repr

namespace Client

def step (c : Client) : Event → Option Client
  | .start new =>
    if c.phase = .starting then do
      let timers ← c.timers.add new ()
      return { c with timers, heartbeatTimeoutId := new, phase := .prompt }
    else none
  | .fire id => do
    let (_, timers) ← c.timers.advance .pending .running id
    return { c with timers }
  | .rearm id new => do
    let (_, timers) ← c.timers.advance .running .finished id
    let timers ← timers.add new ()
    return { c with timers, heartbeatTimeoutId := new }
  | .beginSend =>
    if c.phase = .prompt then
      some { c with timers := (c.timers.del c.heartbeatTimeoutId).2, phase := .sending }
    else none
  | .sendFails => if c.phase = .sending then some c else none
  | .sendSucceeds new =>
    if c.phase = .sending then do
      let timers ← c.timers.add new ()
      return { c with timers, heartbeatTimeoutId := new, phase := .prompt }
    else none
  | .quit => if c.phase = .quit then none else some { c with phase := .quit }

/-- At most one timer is pending or running, and the client has its id. -/
def OneTimer (c : Client) : Prop := ∀ id, c.timers.Live id → id = c.heartbeatTimeoutId

def HandlerRuns (c : Client) : Prop :=
  c.timers.Live c.heartbeatTimeoutId ∧ c.timers.pending c.heartbeatTimeoutId = false

def SendsBetweenHandlers (c : Client) : Event → Prop
  | .beginSend => ¬ c.HandlerRuns
  | .start _ | .fire _ | .rearm .. | .sendFails | .sendSucceeds _ | .quit => True

instance (c : Client) : Decidable c.HandlerRuns :=
  inferInstanceAs (Decidable (c.timers.Live c.heartbeatTimeoutId ∧
    c.timers.pending c.heartbeatTimeoutId = false))

instance decidableSendsBetweenHandlers (c : Client) :
    (e : Event) → Decidable (SendsBetweenHandlers c e)
  | .beginSend => inferInstanceAs (Decidable (¬ c.HandlerRuns))
  | .start _ | .fire _ | .rearm .. | .sendFails | .sendSucceeds _ | .quit =>
    inferInstanceAs (Decidable True)

variable {c d d' f : Client}

inductive Moves (c : Client) : Event → Client → Prop where
  | started {timers : Table Unit} (starting : c.phase = .starting)
      (added : c.timers.add new () = some timers) :
      Moves c (.start new) { c with timers, heartbeatTimeoutId := new, phase := .prompt }
  | fired {id : Nat} {timers : Table Unit}
      (moved : c.timers.advance .pending .running id = some ((), timers)) :
      Moves c (.fire id) { c with timers }
  | rearmed {id new : Nat} {middle timers : Table Unit}
      (moved : c.timers.advance .running .finished id = some ((), middle))
      (added : middle.add new () = some timers) :
      Moves c (.rearm id new) { c with timers, heartbeatTimeoutId := new }
  | sendBegun (prompt : c.phase = .prompt) :
      Moves c .beginSend
        { c with timers := (c.timers.del c.heartbeatTimeoutId).2, phase := .sending }
  | sendFailed (sending : c.phase = .sending) : Moves c .sendFails c
  | sent {timers : Table Unit} (sending : c.phase = .sending)
      (added : c.timers.add new () = some timers) :
      Moves c (.sendSucceeds new) { c with timers, heartbeatTimeoutId := new, phase := .prompt }
  | quit (going : c.phase ≠ .quit) : Moves c .quit { c with phase := .quit }

theorem moves_of_step (stepped : c.step e = some d) : Moves c e d := by
  cases e with
  | start new =>
      obtain ⟨starting, rest⟩ := Option.ite_none_right_eq_some.mp stepped
      obtain ⟨timers, added, made⟩ := Option.bind_eq_some_iff.mp rest
      cases made
      exact .started starting added
  | fire id =>
      obtain ⟨⟨_, timers⟩, moved, made⟩ := Option.bind_eq_some_iff.mp stepped
      cases made
      exact .fired moved
  | rearm id new =>
      obtain ⟨⟨_, middle⟩, moved, rest⟩ := Option.bind_eq_some_iff.mp stepped
      obtain ⟨timers, added, made⟩ := Option.bind_eq_some_iff.mp rest
      cases made
      exact .rearmed moved added
  | beginSend =>
      obtain ⟨prompt, made⟩ := Option.ite_none_right_eq_some.mp stepped
      cases made
      exact .sendBegun prompt
  | sendFails =>
      obtain ⟨sending, made⟩ := Option.ite_none_right_eq_some.mp stepped
      cases made
      exact .sendFailed sending
  | sendSucceeds new =>
      obtain ⟨sending, rest⟩ := Option.ite_none_right_eq_some.mp stepped
      obtain ⟨timers, added, made⟩ := Option.bind_eq_some_iff.mp rest
      cases made
      exact .sent sending added
  | quit =>
      obtain ⟨going, made⟩ := Option.ite_none_left_eq_some.mp stepped
      cases made
      exact .quit going

structure Single (c : Client) : Prop where
  named : c.OneTimer
  idle : c.phase = .starting ∨ c.phase = .sending → ∀ id, ¬ c.timers.Live id

theorem single_initial : Single {} where
  named := fun _ ⟨_, found, _⟩ => nomatch found
  idle := fun _ _ ⟨_, found, _⟩ => nomatch found

theorem Single.of_add {timers : Table Unit} (none : ∀ id, ¬ c.timers.Live id)
    (added : c.timers.add new () = some timers) :
    Single { c with timers, heartbeatTimeoutId := new, phase := .prompt } := by
  obtain ⟨-, live⟩ := Table.add_live added
  refine ⟨fun other alive => ?_, nofun⟩
  obtain same | alive := (live other).mp alive
  · exact same
  · exact absurd alive (none other)

/-- The deletion leaves no timer, since the handler does not run. -/
theorem Single.beginSend (single : c.Single) (between : ¬ c.HandlerRuns) (id : Nat) :
    ¬ (c.timers.del c.heartbeatTimeoutId).2.Live id := by
  intro alive
  obtain ⟨alive, ended⟩ := (Table.del_live c.timers c.heartbeatTimeoutId id).mp alive
  obtain rfl := single.named id alive
  exact between ⟨alive, ended rfl⟩

theorem Single.step (single : c.Single) (between : SendsBetweenHandlers c e)
    (moves : Moves c e d) : d.Single := by
  cases moves with
  | started starting added => exact .of_add (single.idle (.inl starting)) added
  | sent sending added => exact .of_add (single.idle (.inr sending)) added
  | fired moved =>
      obtain ⟨-, live⟩ := Table.advance_live moved rfl
      exact ⟨fun other alive => single.named other ((live other).mp alive).1,
        fun idle other alive => single.idle idle other ((live other).mp alive).1⟩
  | rearmed moved added =>
      obtain ⟨ran, finished⟩ := Table.advance_live moved rfl
      obtain ⟨-, live⟩ := Table.add_live added
      refine ⟨fun other alive => ?_, fun idle => absurd ran (single.idle idle _)⟩
      obtain same | alive := (live other).mp alive
      · exact same
      · obtain ⟨alive, ended⟩ := (finished other).mp alive
        cases ended ((single.named other alive).trans (single.named _ ran).symm)
  | sendBegun =>
      exact ⟨fun id alive => absurd alive (single.beginSend between id),
        fun _ => single.beginSend between⟩
  | sendFailed => exact single
  | quit => exact ⟨single.named, nofun⟩

/-- As long as no send begins while the handler runs, the client has one timer at most. -/
theorem one_timer (run : Run Client.step SendsBetweenHandlers {} es c) : c.OneTimer :=
  (run.invariant Single
    (fun single between stepped => single.step between (moves_of_step stepped))
    single_initial).named

/-- A send follows a heartbeat, fails once and is followed by the next heartbeat. -/
theorem one_timer_send :
    ∃ c, Run Client.step SendsBetweenHandlers {} [.start 1, .fire 1, .rearm 1 2, .beginSend,
        .sendFails, .sendSucceeds 3, .fire 3] c ∧ c.HandlerRuns ∧ c.OneTimer := by
  obtain ⟨c, run, running⟩ : ∃ c, Run Client.step SendsBetweenHandlers {} _ c ∧ _ :=
    Run.of_check Client.step (fun c e => decide (SendsBetweenHandlers c e)) {}
      [.start 1, .fire 1, .rearm 1 2, .beginSend, .sendFails, .sendSucceeds 3, .fire 3]
      (fun c => decide c.HandlerRuns) (fun _ _ => of_decide_eq_true) (by decide)
  exact ⟨c, run, of_decide_eq_true running, one_timer run⟩

/-- The loop is in a send, or has given it up, while a timer is left. -/
def Overtaken (c : Client) : Prop :=
  (c.phase = .sending ∨ c.phase = .quit) ∧ ∃ id, c.timers.Live id

theorem Overtaken.step (overtaken : c.Overtaken) (goesOn : ∀ new, e ≠ .sendSucceeds new)
    (moves : Moves c e d) : d.Overtaken := by
  obtain ⟨phase, other, alive⟩ := overtaken
  cases moves with
  | started starting =>
      rw [starting] at phase
      obtain absurd | absurd := phase <;> cases absurd
  | sendBegun prompt =>
      rw [prompt] at phase
      obtain absurd | absurd := phase <;> cases absurd
  | fired moved =>
      obtain ⟨-, live⟩ := Table.advance_live moved rfl
      exact ⟨phase, other, (live other).mpr ⟨alive, fun _ => rfl⟩⟩
  | rearmed _ added => exact ⟨phase, _, ((Table.add_live added).2 _).mpr (.inl rfl)⟩
  | sendFailed => exact ⟨phase, other, alive⟩
  | sent => exact absurd rfl (goesOn _)
  | quit => exact ⟨.inr rfl, other, alive⟩

/-- A send that begins while the handler runs leaves two timers when it is through. -/
theorem overtaken_send {es : List Event} (running : c.HandlerRuns)
    (begun : c.step .beginSend = some d)
    (run : Run Client.step (fun _ e => ∀ new, e ≠ .sendSucceeds new) d es d')
    (through : d'.step (.sendSucceeds new) = some f) : ¬ f.OneTimer := by
  obtain ⟨alive, started⟩ := running
  cases moves_of_step begun
  obtain ⟨-, other, alive⟩ := run.invariant Overtaken
    (fun overtaken goesOn stepped => overtaken.step goesOn (moves_of_step stepped))
    ⟨.inl rfl, c.heartbeatTimeoutId, (Table.del_live ..).mpr ⟨alive, fun _ => started⟩⟩
  cases moves_of_step through with
  | sent sending added =>
      obtain ⟨unused, live⟩ := Table.add_live added
      intro one
      obtain rfl : other = new := one other ((live other).mpr (.inr alive))
      exact unused alive

/-- A message is sent during a heartbeat, and from then on two timers arm themselves. -/
theorem send_during_heartbeat :
    ∃ c, Run Client.step (fun _ _ => True) {} [.start 1, .fire 1, .beginSend, .sendSucceeds 2,
        .rearm 1 3] c ∧ c.timers.Live 2 ∧ c.timers.Live 3 ∧ ¬ c.OneTimer := by
  obtain ⟨c, run, both⟩ := Run.of_check Client.step (fun _ _ => true) {}
    [.start 1, .fire 1, .beginSend, .sendSucceeds 2, .rearm 1 3]
    (fun c => decide (c.timers.Live 2 ∧ c.timers.Live 3)) (fun _ _ _ => trivial) (by decide)
  obtain ⟨second, third⟩ := of_decide_eq_true both
  refine ⟨c, run, second, third, fun one => ?_⟩
  have same : 2 = 3 := (one 2 second).trans (one 3 third).symm
  cases same

end Client
end Tinyim.CmdClient
