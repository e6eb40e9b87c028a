import Tinyim.Access.Eviction
import Tinyim.Access.Pushes

/-! The heartbeat timers on a clock. A section arms a timer for its reading of the clock plus the
timeout, and no timer fires before its time. A user who lets no deadline pass is left alone. -/
namespace Tinyim.Access
open Transition OneShotTimers

/-- The user whose timer the event arms, and that timer. -/
def Event.signal : Event → Option (Int × Nat)
  | .pullData u t | .heartBeat u t | .sendMsg u t => some (u, t)
  | .sendtoAccess _ | .complete _ | .fire _ | .clearUserData _ | .handlerReturns _ => none

namespace Service
variable {s s' : Service} {u v : Int} {t : Nat} {arg owner : HeartBeatTimeoutArg}
  {status now : Status} {data : Data} {e : Event} {call : Nat}

def Asleep (s : Service) (u : Int) : Prop :=
  ∀ t arg status, s.timers t = some { argument := arg, status := status } →
    arg.userId = u → status = .pending ∨ status = .cancelled

def Elsewhere (s : Service) (u : Int) (call : Nat) : Prop :=
  ∃ v, s.pulls[call]? = some v ∧ v ≠ u

structure Undisturbed (u : Int) (s : Service) : Prop where
  asleep : s.Asleep u
  held : ∀ data t, .clearUserData data t ∈ s.held → ∃ call, data.OfCall call ∧ s.Elsewhere u call
  closed : ∀ call ∈ s.closed, s.Elsewhere u call

theorem initial_undisturbed (u : Int) : Undisturbed u {} where
  asleep _ _ _ found := nomatch found
  held _ _ member := absurd member List.not_mem_nil
  closed _ member := absurd member List.not_mem_nil

theorem Asleep.mark (asleep : s.Asleep u)
    (moved : arg.userId = u → status = .pending ∨ status = .cancelled) :
    (s.mark t arg status).Asleep u := by
  intro t' owner now found mine
  obtain ⟨-, same⟩ | ⟨-, old⟩ := mark_cases found
  · cases same
    exact moved mine
  · exact asleep t' owner now old mine

theorem Asleep.dropTimer (asleep : s.Asleep u) (v : Int) : (s.dropTimer v).Asleep u := by
  obtain ⟨data, arg, -, -, -, -, same⟩ | ⟨same, -⟩ := dropTimer_cases s v
  · rw [same]
    exact asleep.mark fun _ => .inr rfl
  · rw [same]
    exact asleep

theorem pending_of_dropTimer
    (found : (s.dropTimer u).timers t = some { argument := arg, status := .pending }) :
    s.timers t = some { argument := arg, status := .pending } := by
  obtain ⟨data, owner, -, -, -, -, same⟩ | ⟨same, -⟩ := dropTimer_cases s u
  · rw [same] at found
    obtain ⟨-, cancelled⟩ | ⟨-, old⟩ := mark_cases found
    · cases cancelled
    · exact old
  · rwa [same] at found

theorem Asleep.congr (asleep : s.Asleep u) (timers : s'.timers = s.timers) : s'.Asleep u := by
  intro t arg status found mine
  rw [timers] at found
  exact asleep t arg status found mine

theorem Asleep.armed (asleep : s.Asleep u) (arms : Arms s s' v t data) : s'.Asleep u := by
  intro t' arg status found mine
  obtain ⟨-, fresh⟩ | ⟨-, old⟩ := arms.timer_cases found
  · cases fresh
    exact .inl rfl
  · exact asleep.dropTimer v t' arg status old mine

theorem Undisturbed.kept (undisturbed : s.Undisturbed u) (stepped : s.step e = some s')
    (asleep : s'.Asleep u)
    (held : ∀ data t, .clearUserData data t ∈ s'.held → .clearUserData data t ∈ s.held ∨
      ∃ call, data.OfCall call ∧ s.Elsewhere u call)
    (closed : ∀ call ∈ s'.closed, call ∈ s.closed ∨ s.Elsewhere u call) : s'.Undisturbed u := by
  have still : ∀ {call}, s.Elsewhere u call → s'.Elsewhere u call :=
    fun ⟨v, owner, other⟩ => ⟨v, pulls_kept stepped owner, other⟩
  refine ⟨asleep, ?_, ?_⟩
  · intro data t member
    obtain ⟨call, fields, elsewhere⟩ := (held data t member).elim (undisturbed.held data t) id
    exact ⟨call, fields, still elsewhere⟩
  · intro call member
    exact still ((closed call member).elim (undisturbed.closed call) id)

theorem Undisturbed.completed (undisturbed : s.Undisturbed u) (stepped : s.step e = some s')
    (found : s.held[place]? = some completion)
    (done : complete { s with held := s.held.eraseIdx place } completion = some s') :
    s'.Undisturbed u := by
  obtain ⟨-, held, timers⟩ := complete_same done
  have fewer : ∀ data t, .clearUserData data t ∈ s'.held → .clearUserData data t ∈ s.held := by
    intro data t member
    rw [held] at member
    exact List.mem_of_mem_eraseIdx member
  apply undisturbed.kept stepped (undisturbed.asleep.congr timers.timers)
    fun data t member => .inl (fewer data t member)
  intro call member
  cases completion with
  | lazyRun done' =>
      cases done
      exact .inl member
  | sendtoAccess clientDone msgs msg =>
      obtain ⟨_, -, made⟩ := Option.bind_eq_some_iff.mp done
      cases made
      exact .inl member
  | clearUserData data t =>
      obtain ⟨taken, ⟨-, -, cntl⟩, elsewhere⟩ :=
        undisturbed.held data t (List.mem_of_getElem? found)
      obtain ⟨_, same, rest⟩ := Option.bind_eq_some_iff.mp done
      obtain ⟨_, -, made⟩ := Option.bind_eq_some_iff.mp rest
      cases made
      cases cntl.symm.trans same
      obtain old | new := List.mem_append.mp member
      · exact .inl old
      · cases List.mem_singleton.mp new
        exact .inr elsewhere

theorem step_undisturbed (undisturbed : s.Undisturbed u) (custody : s.Custody)
    (unfired : ∀ t arg, e = .fire t →
      s.timers t = some { argument := arg, status := .pending } → arg.userId ≠ u)
    (stepped : s.step e = some s') :
    s'.Undisturbed u ∧ ((s.entry u).isSome → (s'.entry u).isSome) := by
  have awake : ∀ {t arg status}, s.timers t = some { argument := arg, status := status } →
      status ≠ .pending → status ≠ .cancelled → arg.userId ≠ u := by
    intro t arg status found started kept mine
    exact (undisturbed.asleep t arg status found mine).elim started kept
  have marked : ∀ {t arg status}, arg.userId ≠ u → s'.timers = (s.mark t arg status).timers →
      s'.held = s.held → s'.closed = s.closed → s'.Undisturbed u := by
    intro t arg status other timers held closed
    exact undisturbed.kept stepped
      ((undisturbed.asleep.mark fun mine => absurd mine other).congr timers)
      (fun _ _ member => .inl (held ▸ member)) (fun _ member => .inl (closed ▸ member))
  have written : ∀ {v data}, s'.entry = Function.update s.entry v (some data) →
      (s.entry u).isSome → (s'.entry u).isSome := by
    intro v data entry present
    rw [entry]
    by_cases mine : u = v
    · rw [mine, Function.update_self]
      rfl
    · rwa [Function.update_of_ne mine]
  cases moves_of_step stepped with
  | pulled arms _ _ held _ _ closed =>
      refine ⟨undisturbed.kept stepped (undisturbed.asleep.armed arms) ?_ ?_, written arms.entry⟩
      · exact fun data t member => .inl (clear_of_append held (fun _ _ _ same => nomatch same)
          data t member)
      · exact fun _ member => .inl (closed ▸ member)
  | refreshed _ arms _ _ polls =>
      refine ⟨undisturbed.kept stepped (undisturbed.asleep.armed arms) ?_ ?_, written arms.entry⟩
      · exact fun _ _ member => .inl (polls.held ▸ member)
      · exact fun _ member => .inl (polls.closed ▸ member)
  | popped _ entry held _ _ closed _ timers =>
      refine ⟨undisturbed.kept stepped (undisturbed.asleep.congr timers.timers) ?_ ?_,
        written entry⟩
      · exact fun data t member => .inl (clear_of_append held (fun _ _ _ same => nomatch same)
          data t member)
      · exact fun _ member => .inl (closed ▸ member)
  | unserved _ same =>
      subst same
      exact ⟨undisturbed, id⟩
  | completed found done =>
      refine ⟨undisturbed.completed stepped found done, ?_⟩
      rw [(complete_same done).1]
      exact id
  | @fired t arg found moved =>
      subst moved
      exact ⟨marked (unfired t arg rfl found) rfl rfl rfl, id⟩
  | @cleared t arg data found present entry timers held _ _ closed =>
      -- The entry that goes is that of another user, and so is the poll taken from it.
      have other : arg.userId ≠ u := awake found nofun nofun
      have left : (s.mark t arg .leaving).Asleep u :=
        undisturbed.asleep.mark fun mine => absurd mine other
      refine ⟨undisturbed.kept stepped ((left.dropTimer arg.userId).congr timers.timers) ?_
        fun _ member => .inl (closed ▸ member), ?_⟩
      · intro taken t' member
        rw [held] at member
        refine (List.mem_append.mp member).imp_right ?_
        intro new
        split at new
        · rename_i some
          cases List.mem_singleton.mp new
          obtain ⟨-, none, -⟩ | ⟨call, mine, fields⟩ := custody.fields _ data present
          · rw [none] at some
            contradiction
          · exact ⟨call, fields, _, mine, other⟩
        · contradiction
      · intro there
        rwa [entry, Function.update_of_ne (Ne.symm other)]
  | vacant found _ moved =>
      subst moved
      exact ⟨marked (awake found nofun nofun) rfl rfl rfl, id⟩
  | returned found _ moved =>
      subst moved
      exact ⟨marked (awake found nofun nofun) rfl rfl rfl, id⟩

theorem signal_cases (stepped : s.step e = some s') :
    (∃ u t data, e.signal = some (u, t) ∧ Arms s s' u t data) ∨
      e.signal = none ∧ ∀ t arg, s'.timers t = some { argument := arg, status := .pending } →
        s.timers t = some { argument := arg, status := .pending } := by
  have quiet : e.signal = none → s'.timers = s.timers →
      e.signal = none ∧ ∀ t arg, s'.timers t = some { argument := arg, status := .pending } →
        s.timers t = some { argument := arg, status := .pending } := by
    intro silent same
    rw [same]
    exact ⟨silent, fun _ _ pending => pending⟩
  have moved : ∀ {t arg} status, status ≠ .pending →
      ∀ t' owner, (s.mark t arg status).timers t' =
          some { argument := owner, status := .pending } →
        s.timers t' = some { argument := owner, status := .pending } := by
    intro t arg status ended t' owner pending
    obtain ⟨-, same⟩ | ⟨-, old⟩ := mark_cases pending
    · cases same
      contradiction
    · exact old
  cases moves_of_step stepped with
  | pulled arms => exact .inl ⟨_, _, _, rfl, arms⟩
  | refreshed signal arms =>
      refine .inl ⟨_, _, _, ?_, arms⟩
      obtain rfl | rfl := signal <;> rfl
  | popped _ _ _ _ _ _ _ timers => exact .inr (quiet rfl timers.timers)
  | unserved _ same => exact .inr (quiet rfl (congrArg timers same))
  | completed _ done => exact .inr (quiet rfl (complete_same done).2.2.timers)
  | fired _ same =>
      subst same
      exact .inr ⟨rfl, moved .running nofun⟩
  | @cleared t arg _ _ _ _ timers =>
      refine .inr ⟨rfl, fun t' owner pending => ?_⟩
      rw [timers.timers] at pending
      exact moved .leaving nofun t' owner (pending_of_dropTimer pending)
  | vacant _ _ same =>
      subst same
      exact .inr ⟨rfl, moved .leaving nofun⟩
  | returned _ _ same =>
      subst same
      exact .inr ⟨rfl, moved .finished nofun⟩

end Service

/-! The clock is `gettimeofday_us` and is never set back. -/

structure Timed where
  service : Service := {}
  now : Int := 0
  /-- The `abstime` of each timer. -/
  due : Nat → Int := fun _ => 0
  /-- `cur_time_us` of the last section that armed a timer for the user. -/
  curTimeUs : Int → Option Int := fun _ => none

namespace Timed

inductive Event where
  | passes (elapsed : Nat)
  /-- A section arms its timer for its reading of the clock plus the timeout. -/
  | access (reading : Int) (event : Access.Event)
  deriving DecidableEq, Repr

/-- PushClosureAndReply reads the clock under the lock, ResetHeartBeatTimer before it. -/
def OnTime (s : Timed) (reading : Int) : Access.Event → Prop
  | .pullData _ _ => reading = s.now
  | .heartBeat _ _ | .sendMsg _ _ => reading ≤ s.now
  | .fire t => s.due t ≤ s.now
  | .sendtoAccess _ | .complete _ | .clearUserData _ | .handlerReturns _ => True

instance (s : Timed) (reading : Int) : (e : Access.Event) → Decidable (s.OnTime reading e)
  | .pullData _ _ => inferInstanceAs (Decidable (reading = s.now))
  | .heartBeat _ _ | .sendMsg _ _ => inferInstanceAs (Decidable (reading ≤ s.now))
  | .fire t => inferInstanceAs (Decidable (s.due t ≤ s.now))
  | .sendtoAccess _ | .complete _ | .clearUserData _ | .handlerReturns _ =>
    inferInstanceAs (Decidable True)

/-- `bthread_timer_add` with `cur_time_us + heartbeat_timeout_us`. -/
def timerAdd (heartbeatTimeoutUs reading : Int) (u : Int) (t : Nat) (s : Timed) : Timed :=
  { s with
    due := Function.update s.due t (reading + heartbeatTimeoutUs)
    curTimeUs := Function.update s.curTimeUs u (some reading) }

def step (heartbeatTimeoutUs : Int) (s : Timed) : Event → Option Timed
  | .passes elapsed => some { s with now := s.now + elapsed }
  | .access reading e => do
    if s.OnTime reading e then
      let service ← s.service.step e
      let s := { s with service := service }
      match e.signal with
      | some (u, t) => return s.timerAdd heartbeatTimeoutUs reading u t
      | none => return s
    else none

variable {s s' : Timed} {timeout reading : Int} {u : Int} {t : Nat} {e : Event}
  {event : Access.Event} {arg : HeartBeatTimeoutArg}

theorem access_cases (stepped : s.step timeout (.access reading event) = some s') :
    s.OnTime reading event ∧ s.service.step event = some s'.service ∧ s'.now = s.now ∧
      ((∃ u t data, event.signal = some (u, t) ∧ Service.Arms s.service s'.service u t data ∧
          s'.due = Function.update s.due t (reading + timeout) ∧
          s'.curTimeUs = Function.update s.curTimeUs u (some reading)) ∨
        (∀ t arg, s'.service.timers t = some { argument := arg, status := .pending } →
          s.service.timers t = some { argument := arg, status := .pending }) ∧
        s'.due = s.due ∧ s'.curTimeUs = s.curTimeUs) := by
  simp only [step] at stepped
  split at stepped
  · rename_i onTime
    obtain ⟨service, inner, rest⟩ := Option.bind_eq_some_iff.mp stepped
    refine ⟨onTime, ?_⟩
    obtain ⟨u, t, data, signal, arms⟩ | ⟨silent, pending⟩ := Service.signal_cases inner
    · rw [signal] at rest
      cases rest
      exact ⟨inner, rfl, .inl ⟨u, t, data, signal, arms, rfl, rfl⟩⟩
    · rw [silent] at rest
      cases rest
      exact ⟨inner, rfl, .inr ⟨pending, rfl, rfl⟩⟩
  · contradiction

/-- Every pending timer is due the timeout after its user's last reading of the clock. -/
structure Clocked (timeout : Int) (s : Timed) : Prop where
  watched : s.service.Watched
  deadline : ∀ t arg, s.service.timers t = some { argument := arg, status := .pending } →
    ∃ reading, s.curTimeUs arg.userId = some reading ∧ s.due t = reading + timeout

theorem initial_clocked (timeout start : Int) : Clocked timeout { now := start } where
  watched := Service.initial_watched
  deadline _ _ pending := nomatch pending

theorem step_clocked (clocked : s.Clocked timeout) (stepped : s.step timeout e = some s') :
    s'.Clocked timeout := by
  cases e with
  | passes elapsed =>
      cases stepped
      exact ⟨clocked.watched, clocked.deadline⟩
  | access reading event =>
      obtain ⟨-, inner, -, moved⟩ := access_cases stepped
      refine ⟨Service.step_watched clocked.watched inner, ?_⟩
      intro t' arg pending
      obtain ⟨u, t, data, -, arms, due, readings⟩ | ⟨before, due, readings⟩ := moved
      · rw [due, readings]
        obtain ⟨rfl, fresh⟩ | ⟨other, old⟩ := arms.timer_cases pending
        · cases fresh
          exact ⟨reading, Function.update_self .., Function.update_self ..⟩
        · -- The section has cancelled the timer that its user had.
          have different : arg.userId ≠ u :=
            (clocked.watched.tracked.dropTimer u).2.1 t' arg old
          rw [Function.update_of_ne different, Function.update_of_ne other]
          exact clocked.deadline t' arg (Service.pending_of_dropTimer old)
      · rw [due, readings]
        exact clocked.deadline t' arg (before t' arg pending)

theorem run_clocked (run : Run (step timeout) allowed { now := start } es s) :
    s.Clocked timeout :=
  run.invariant (Clocked timeout) (fun clocked _ stepped => step_clocked clocked stepped)
    (initial_clocked timeout start)

abbrev AnyTime (_ : Timed) (_ : Event) : Prop := True

/-- A handler of a user can start exactly when the timer of the user's entry is pending and the
timeout has passed since the last reading of the clock for this user. -/
theorem handler_starts_iff (run : Run (step timeout) AnyTime { now := start } es s) (u : Int) :
    (∃ t arg reading s', s.service.timers t = some { argument := arg, status := .pending } ∧
        arg.userId = u ∧ s.step timeout (.access reading (.fire t)) = some s') ↔
      ∃ data reading, s.service.entry u = some data ∧
        s.service.timers.pending data.heartbeatTimeoutId = true ∧
        s.curTimeUs u = some reading ∧ reading + timeout ≤ s.now := by
  have clocked := run_clocked run
  constructor
  · rintro ⟨t, arg, _, s', pending, rfl, stepped⟩
    obtain ⟨onTime, -⟩ := access_cases stepped
    obtain ⟨reading, last, due⟩ := clocked.deadline t arg pending
    obtain ⟨data, present, rfl⟩ := clocked.watched.tracked.named t arg pending
    refine ⟨data, reading, present, Table.pending_iff.mpr ⟨_, pending, rfl⟩, last, ?_⟩
    rw [← due]
    exact onTime
  · rintro ⟨data, reading, present, pending, last, passed⟩
    obtain ⟨⟨arg, status⟩, found, rfl⟩ := Table.pending_iff.mp pending
    obtain ⟨_, _, same, mine⟩ := clocked.watched.tracked.owner u data present
    cases found.symm.trans same
    obtain ⟨again, now, due⟩ := clocked.deadline _ arg found
    rw [mine, last] at now
    cases now
    have onTime : s.OnTime 0 (.fire data.heartbeatTimeoutId) := by
      rw [OnTime, due]
      exact passed
    refine ⟨_, arg, 0, ?_, found, mine, ?_⟩
    · exact { s with service := s.service.mark data.heartbeatTimeoutId arg .running }
    · simp only [step, if_pos onTime, Service.step, Table.advance, found]
      rfl

/-- A heartbeat that took its reading of the clock before a poll and the lock after it. -/
def delayedHeartbeat : List Event :=
  [.passes 100, .access 100 (.pullData 7 1), .access 50 (.heartBeat 7 2), .passes 350]

/-- The deadline has moved back: the handler can start 350 after the poll. -/
theorem handler_starts_iff_delayed :
    ∃ s, Run (step 400) AnyTime { now := 0 } delayedHeartbeat s ∧
      ∃ t arg reading s', s.service.timers t = some { argument := arg, status := .pending } ∧
        arg.userId = 7 ∧ s.step 400 (.access reading (.fire t)) = some s' := by
  obtain ⟨s, run, checked⟩ : ∃ s, Run (step 400) AnyTime { now := 0 } delayedHeartbeat s ∧ _ :=
    Run.of_check (step 400) (fun _ _ => true) { now := 0 } delayedHeartbeat
      (fun s => decide ((s.service.entry 7).map Data.heartbeatTimeoutId = some 2 ∧
        s.service.timers.pending 2 = true ∧ s.curTimeUs 7 = some 50 ∧ s.now = 450))
      (fun _ _ _ => trivial) (by decide)
  obtain ⟨named, pending, last, now⟩ := of_decide_eq_true checked
  obtain ⟨data, present, named⟩ := Option.map_eq_some_iff.mp named
  refine ⟨s, run, (handler_starts_iff run 7).mpr ⟨data, 50, present, ?_, last, ?_⟩⟩
  · rwa [named]
  · rw [now]
    decide

/-- The user's last section is less than the timeout ago, by its own reading of the clock. -/
def Punctual (timeout : Int) (u : Int) (s : Timed) (_ : Event) : Prop :=
  ∀ reading, s.curTimeUs u = some reading → s.now < reading + timeout

structure LeftAlone (timeout u : Int) (s : Timed) : Prop where
  clocked : s.Clocked timeout
  custody : s.service.Custody
  undisturbed : s.service.Undisturbed u
  present : s.curTimeUs u ≠ none → (s.service.entry u).isSome

theorem step_leftAlone (alone : s.LeftAlone timeout u) (punctual : s.Punctual timeout u e)
    (stepped : s.step timeout e = some s') : s'.LeftAlone timeout u := by
  have clocked := step_clocked alone.clocked stepped
  cases e with
  | passes elapsed =>
      cases stepped
      exact ⟨clocked, alone.custody, alone.undisturbed, alone.present⟩
  | access reading event =>
      obtain ⟨onTime, inner, -, moved⟩ := access_cases stepped
      have unfired : ∀ t arg, event = .fire t →
          s.service.timers t = some { argument := arg, status := .pending } → arg.userId ≠ u := by
        rintro t arg rfl pending rfl
        obtain ⟨reading, last, due⟩ := alone.clocked.deadline t arg pending
        have early := punctual reading last
        rw [← due] at early
        exact absurd onTime (Int.not_le.mpr early)
      obtain ⟨undisturbed, kept⟩ :=
        Service.step_undisturbed alone.undisturbed alone.custody unfired inner
      refine ⟨clocked, Service.step_custody alone.custody inner, undisturbed, ?_⟩
      intro signalled
      obtain ⟨v, t, data, -, arms, -, readings⟩ | ⟨-, -, readings⟩ := moved
      · by_cases mine : u = v
        · rw [arms.entry, mine, Function.update_self]
          rfl
        · rw [readings, Function.update_of_ne mine] at signalled
          exact kept (alone.present signalled)
      · rw [readings] at signalled
        exact kept (alone.present signalled)

/-- A user whose sections always come before the timeout keeps its entry from the first one on;
no heartbeat handler of the user starts, and none of the user's polls is closed. -/
theorem punctual_users_stay (run : Run (step timeout) (Punctual timeout u) { now := start } es s) :
    (s.curTimeUs u ≠ none → (s.service.entry u).isSome) ∧
    (∀ t arg status, s.service.timers t = some { argument := arg, status := status } →
      arg.userId = u → status = .pending ∨ status = .cancelled) ∧
    ∀ call, s.service.pulls[call]? = some u → call ∉ s.service.closed := by
  have alone : s.LeftAlone timeout u := run.invariant (LeftAlone timeout u)
    (fun alone punctual stepped => step_leftAlone alone punctual stepped)
    ⟨initial_clocked timeout start, Service.initial_custody, Service.initial_undisturbed u,
      fun signalled => absurd rfl signalled⟩
  refine ⟨alone.present, alone.undisturbed.asleep, ?_⟩
  intro call mine member
  obtain ⟨v, owner, other⟩ := alone.undisturbed.closed call member
  rw [mine] at owner
  cases owner
  exact other rfl

/-- One user polls and falls silent, the other one signals in time. -/
def oneFallsSilent : List Event :=
  [.access 0 (.heartBeat 7 1), .access 0 (.pullData 9 2), .passes 300, .access 300 (.pullData 7 3),
    .passes 200, .access 0 (.fire 2), .access 0 (.clearUserData 2), .access 0 (.complete 0)]

/-- The poll of the silent one is closed, and the other one's is not. -/
theorem punctual_users_stay_two :
    ∃ s, Run (step 400) (Punctual 400 7) { now := 0 } oneFallsSilent s ∧
      s.service.closed = [0] ∧ s.service.entry 9 = none ∧ (s.service.entry 7).isSome ∧
      1 ∉ s.service.closed := by
  obtain ⟨s, run, checked⟩ :
      ∃ s, Run (step 400) (Punctual 400 7) { now := 0 } oneFallsSilent s ∧ _ :=
    Run.of_check (step 400) (fun s _ => (s.curTimeUs 7).all fun r => decide (s.now < r + 400))
      { now := 0 } oneFallsSilent
      (fun s => decide (s.service.closed = [0] ∧ s.service.entry 9 = none ∧
        s.curTimeUs 7 = some 300 ∧ s.service.pulls = [9, 7]))
      (fun _ _ early reading last => by simpa [last] using early) (by decide)
  obtain ⟨closed, gone, last, pulls⟩ := of_decide_eq_true checked
  obtain ⟨present, -, unclosed⟩ := punctual_users_stay run
  exact ⟨s, run, closed, gone, present (by rw [last]; nofun), unclosed 1 (by rw [pulls]; rfl)⟩

end Timed
end Tinyim.Access
