import Tinyim.Access.Watch

/-! Which handler evicts a user. `bthread_timer_del` cannot stop a handler that has started, so
a refresh that comes before the handler gets the lock does not save the user. -/
namespace Tinyim.Access
open Transition OneShotTimers

def Event.arms (u : Int) : Event → Option Nat
  | .pullData v t | .heartBeat v t | .sendMsg v t => if v = u then some t else none
  | .sendtoAccess _ | .complete _ | .fire _ | .clearUserData _ | .handlerReturns _ => none

def lastArmed (es : List Event) (u : Int) : Option Nat := es.reverse.findSome? (Event.arms u)

theorem lastArmed_append (es : List Event) (e : Event) (u : Int) :
    lastArmed (es ++ [e]) u = (e.arms u).or (lastArmed es u) := by
  simp only [lastArmed, List.reverse_append, List.reverse_singleton, List.findSome?_append,
    List.findSome?_singleton]

namespace Service
variable {s s' : Service} {u v : Int} {t : Nat} {arg : HeartBeatTimeoutArg} {data : Data}
  {es : List Event} {e : Event}

/-- A handler of the user has started and has not got the lock in ClearUserData yet. -/
def HandlerWaits (s : Service) (u : Int) : Prop :=
  ∃ t arg, s.timers t = some { argument := arg, status := .running } ∧ arg.userId = u

/-- No request refreshes a user for whom a handler waits. -/
def Unraced (s : Service) (e : Event) : Prop := ∀ u t, e.arms u = some t → ¬ s.HandlerWaits u

structure Timely (es : List Event) (s : Service) : Prop where
  watched : s.Watched
  last : ∀ u data, s.entry u = some data → lastArmed es u = some data.heartbeatTimeoutId
  waiting : ∀ t arg data, s.timers t = some { argument := arg, status := .running } →
    s.entry arg.userId = some data → data.heartbeatTimeoutId = t
  held : ∀ data t, .clearUserData data t ∈ s.held → data.heartbeatTimeoutId = t

theorem running_of_dropTimer
    (found : (s.dropTimer u).timers t = some { argument := arg, status := .running }) :
    s.timers t = some { argument := arg, status := .running } := by
  obtain ⟨data, owner, -, -, -, -, same⟩ | ⟨same, -⟩ := dropTimer_cases s u
  · rw [same] at found
    obtain ⟨-, stopped⟩ | ⟨-, old⟩ := mark_cases found
    · cases stopped
    · exact old
  · rwa [same] at found

theorem arms_timely (timely : Timely es s) (arms : Arms s s' u t data) (armed : e.arms u = some t)
    (others : ∀ v, v ≠ u → e.arms v = none) (unraced : s.Unraced e)
    (held : ∀ data t, .clearUserData data t ∈ s'.held → .clearUserData data t ∈ s.held) :
    Timely (es ++ [e]) s' where
  watched := arms_watched timely.watched arms
  last v found present := by
    rw [lastArmed_append]
    obtain ⟨rfl, new⟩ | ⟨other, old⟩ := entry_cases arms.entry present
    · cases new
      rw [armed, arms.named]
      rfl
    · rw [others v other]
      exact timely.last v found old
  waiting t' owner found running present := by
    obtain ⟨-, fresh⟩ | ⟨-, before⟩ := arms.timer_cases running
    · cases fresh
    · have started := running_of_dropTimer before
      obtain ⟨mine, -⟩ | ⟨-, old⟩ := entry_cases arms.entry present
      · exact absurd ⟨t', owner, started, mine⟩ (unraced u t armed)
      · exact timely.waiting t' owner found started old
  held data t member := timely.held data t (held data t member)

theorem quiet_last (timely : Timely es s) (quiet : ∀ u, e.arms u = none)
    (named : ∀ v data, s'.entry v = some data → ∃ old, s.entry v = some old ∧
      old.heartbeatTimeoutId = data.heartbeatTimeoutId) :
    ∀ v data, s'.entry v = some data → lastArmed (es ++ [e]) v = some data.heartbeatTimeoutId := by
  intro v data present
  obtain ⟨old, before, same⟩ := named v data present
  rw [lastArmed_append, quiet v, ← same]
  exact timely.last v old before

theorem clear_of_append {f : Nat → Completion} {calls : List Nat}
    (held : s'.held = s.held ++ calls.map f)
    (others : ∀ x data t, f x ≠ .clearUserData data t) (data : Data) (t : Nat)
    (member : .clearUserData data t ∈ s'.held) : .clearUserData data t ∈ s.held := by
  rw [held] at member
  obtain old | new := List.mem_append.mp member
  · exact old
  · obtain ⟨x, -, same⟩ := List.mem_map.mp new
    exact absurd same (others x data t)

theorem kept_timely (timely : Timely es s) (watched : s'.Watched) (quiet : ∀ u, e.arms u = none)
    (named : ∀ v data, s'.entry v = some data → ∃ old, s.entry v = some old ∧
      old.heartbeatTimeoutId = data.heartbeatTimeoutId)
    (timers : s'.timers = s.timers)
    (held : ∀ data t, .clearUserData data t ∈ s'.held → .clearUserData data t ∈ s.held) :
    Timely (es ++ [e]) s' where
  watched := watched
  last := quiet_last timely quiet named
  waiting t arg data running present := by
    obtain ⟨old, before, equal⟩ := named _ data present
    rw [timers] at running
    rw [← equal]
    exact timely.waiting t arg old running before
  held data t member := timely.held data t (held data t member)

/-- A timer that moves on; a handler that starts is that of its user's entry. -/
theorem mark_timely (t : Nat) (arg : HeartBeatTimeoutArg) (status : Status)
    (timely : Timely es s) (watched : s'.Watched) (quiet : ∀ u, e.arms u = none)
    (started : status = .running → ∀ data, s.entry arg.userId = some data →
      data.heartbeatTimeoutId = t)
    (entry : s'.entry = s.entry) (timers : s'.timers = (s.mark t arg status).timers)
    (held : s'.held = s.held) : Timely (es ++ [e]) s' where
  watched := watched
  last := by
    apply quiet_last timely quiet
    rw [entry]
    exact fun _ data present => ⟨data, present, rfl⟩
  waiting t' owner data running present := by
    rw [timers] at running
    rw [entry] at present
    obtain ⟨rfl, same⟩ | ⟨-, old⟩ := mark_cases running
    · cases same
      exact started rfl data present
    · exact timely.waiting t' owner data old present
  held data t' member := timely.held data t' (held ▸ member)

theorem cleared_timely (timely : Timely es s) (watched : s'.Watched) (quiet : ∀ u, e.arms u = none)
    (found : s.timers t = some { argument := arg, status := .running })
    (present : s.entry arg.userId = some data)
    (entry : s'.entry = Function.update s.entry arg.userId none)
    (timers : s'.timers = ((s.mark t arg .leaving).dropTimer arg.userId).timers)
    (held : s'.held = s.held ++ if data.msgs.isSome then [.clearUserData data t] else []) :
    Timely (es ++ [e]) s' := by
  have kept : ∀ v after, s'.entry v = some after → v ≠ arg.userId ∧ s.entry v = some after := by
    intro v after there
    obtain ⟨-, gone⟩ | ⟨other, old⟩ := entry_cases entry there
    · contradiction
    · exact ⟨other, old⟩
  constructor
  · exact watched
  · exact quiet_last timely quiet fun v after there => ⟨after, (kept v after there).2, rfl⟩
  · intro t' owner after running there
    rw [timers] at running
    obtain ⟨-, left⟩ | ⟨-, old⟩ := mark_cases (running_of_dropTimer running)
    · cases left
    · exact timely.waiting t' owner after old (kept _ after there).2
  · intro other t' member
    rw [held] at member
    obtain old | new := List.mem_append.mp member
    · exact timely.held other t' old
    · split at new
      · cases List.mem_singleton.mp new
        exact timely.waiting t arg data found present
      · exact absurd new List.not_mem_nil

theorem step_timely (timely : Timely es s) (unraced : s.Unraced e) (stepped : s.step e = some s') :
    Timely (es ++ [e]) s' := by
  have watched := step_watched timely.watched stepped
  have same : ∀ v data, s.entry v = some data → ∃ old, s.entry v = some old ∧
      old.heartbeatTimeoutId = data.heartbeatTimeoutId := fun _ data present => ⟨data, present, rfl⟩
  cases moves_of_step stepped with
  | pulled arms _ _ held =>
      exact arms_timely timely arms (by simp [Event.arms])
        (fun v other => by simp [Event.arms, Ne.symm other]) unraced
        (clear_of_append held fun _ _ _ same => nomatch same)
  | refreshed signal arms _ _ polls =>
      refine arms_timely timely arms ?_ ?_ unraced (fun data t member => polls.held ▸ member)
      · obtain rfl | rfl := signal <;> simp [Event.arms]
      · obtain rfl | rfl := signal <;> exact fun v other => by simp [Event.arms, Ne.symm other]
  | @popped data msg found entry held _ _ _ _ timers =>
      apply kept_timely timely watched (fun _ => rfl) ?_ timers.timers
        (clear_of_append held fun _ _ _ same => nomatch same)
      intro v after present
      obtain ⟨rfl, new⟩ | ⟨-, old⟩ := entry_cases entry present
      · cases new
        exact ⟨data, found, rfl⟩
      · exact ⟨after, old, rfl⟩
  | unserved _ kept =>
      subst kept
      exact kept_timely timely watched (fun _ => rfl) same rfl fun _ _ member => member
  | completed found done =>
      obtain ⟨entry, held, timers⟩ := complete_same done
      apply kept_timely timely watched (fun _ => rfl) (by rw [entry]; exact same) timers.timers
      intro data t member
      rw [held] at member
      exact List.mem_of_mem_eraseIdx member
  | @fired t arg found moved =>
      subst moved
      apply mark_timely t arg .running timely watched (fun _ => rfl) ?_ rfl rfl rfl
      intro _ data present
      obtain ⟨after, there, named⟩ := timely.watched.tracked.named t arg found
      cases there.symm.trans present
      exact named
  | @cleared t arg data found present entry timers held =>
      exact cleared_timely timely watched (fun _ => rfl) found present entry timers.timers held
  | @vacant t arg _ _ moved =>
      subst moved
      exact mark_timely t arg .leaving timely watched (fun _ => rfl) (fun left => nomatch left)
        rfl rfl rfl
  | @returned t arg _ _ moved =>
      subst moved
      exact mark_timely t arg .finished timely watched (fun _ => rfl) (fun left => nomatch left)
        rfl rfl rfl

theorem arms_of_step (armed : e.arms u = some t) (stepped : s.step e = some s') :
    ∃ data, Arms s s' u t data := by
  have named : ∀ {v timer data}, Arms s s' v timer data →
      e = .heartBeat v timer ∨ e = .sendMsg v timer ∨ e = .pullData v timer →
      ∃ data, Arms s s' u t data := by
    intro v timer data arms signal
    have same : v = u ∧ timer = t := by
      obtain rfl | rfl | rfl := signal <;> simpa [Event.arms] using armed
    obtain ⟨rfl, rfl⟩ := same
    exact ⟨data, arms⟩
  cases moves_of_step stepped with
  | pulled arms => exact named arms (.inr (.inr rfl))
  | refreshed signal arms => exact named arms (signal.imp_right .inl)
  | popped | unserved | completed | fired | cleared | vacant | returned => cases armed

theorem Arms.waits (arms : Arms s s' u t data) (waits : s'.HandlerWaits v) : s.HandlerWaits v := by
  obtain ⟨t', arg, running, mine⟩ := waits
  obtain ⟨-, fresh⟩ | ⟨-, before⟩ := arms.timer_cases running
  · cases fresh
  · exact ⟨t', arg, running_of_dropTimer before, mine⟩

/-- A refresh under a waiting handler is undone: the handler erases the entry although its
timer is not the last one. -/
theorem waiting_handler_evicts (es : List Event)
    (found : s.timers t = some { argument := arg, status := .running })
    (armed : e.arms arg.userId = some t') (stepped : s.step e = some s') :
    ∃ s'', s'.step (.clearUserData t) = some s'' ∧ (s'.entry arg.userId).isSome ∧
      s''.entry arg.userId = none ∧ lastArmed (es ++ [e]) arg.userId = some t' ∧ t ≠ t' := by
  obtain ⟨data, arms⟩ := arms_of_step armed stepped
  obtain ⟨-, unused, timers⟩ := arms.added
  have kept : (s.dropTimer arg.userId).timers t =
      some { argument := arg, status := .running } := by
    obtain ⟨data, owner, -, -, pending, -, same⟩ | ⟨same, -⟩ := dropTimer_cases s arg.userId
    · rw [same]
      refine (mark_other ?_).trans found
      rintro rfl
      cases found.symm.trans pending
    · rw [same, found]
  have different : t ≠ t' := by
    rintro rfl
    cases unused.symm.trans kept
  have waits : s'.timers t = some { argument := arg, status := .running } := by
    rw [timers, Function.update_of_ne different, kept]
  have present : s'.entry arg.userId = some data := by rw [arms.entry, Function.update_self]
  obtain ⟨s'', cleared, erased⟩ := clearUserData_erases waits present
  refine ⟨s'', cleared, by rw [present]; rfl, erased, ?_, different⟩
  rw [lastArmed_append, armed]
  rfl

/-- As long as no request refreshes a user for whom a handler waits, only the handler of the
timer that was armed last erases the user's entry and gets its poll. After any other refresh the
waiting handler can erase the entry that the refresh has written. -/
theorem only_last_armed_evicts (es : List Event) (s : Service) :
    (Run step Unraced {} es s →
      (∀ t s' u, s.step (.clearUserData t) = some s' → (s.entry u).isSome → s'.entry u = none →
        lastArmed es u = some t) ∧
      ∀ data t, .clearUserData data t ∈ s.held → data.heartbeatTimeoutId = t) ∧
    (Run step AnyOrder {} es s → ∀ e s', s.step e = some s' → ¬ s.Unraced e →
      ∃ t t' u s'', s'.step (.clearUserData t) = some s'' ∧ (s'.entry u).isSome ∧
        s''.entry u = none ∧ lastArmed (es ++ [e]) u = some t' ∧ t ≠ t') := by
  constructor
  · intro run
    have timely : Timely es s := run.history Timely
      (fun timely unraced stepped => step_timely timely unraced stepped)
      ⟨initial_watched, fun u data found => absurd ((entry_initial u).symm.trans found) nofun,
        nofun, fun _ _ member => absurd member List.not_mem_nil⟩
    refine ⟨?_, timely.held⟩
    intro t s' u stepped present erased
    obtain ⟨data, present⟩ := Option.isSome_iff_exists.mp present
    cases moves_of_step stepped with
    | @cleared _ arg owner found there entry =>
        by_cases mine : u = arg.userId
        · subst mine
          rw [timely.last _ data present, timely.waiting t arg data found present]
        · rw [entry, Function.update_of_ne mine, present] at erased
          cases erased
    | vacant _ _ moved =>
        subst moved
        cases present.symm.trans erased
    | refreshed signal => exact signal.elim nofun nofun
  · intro _ e s' stepped raced
    simp only [Unraced, not_forall, not_not] at raced
    obtain ⟨_, t', armed, t, arg, found, rfl⟩ := raced
    obtain ⟨s'', evicted⟩ := waiting_handler_evicts es found armed stepped
    exact ⟨t, t', arg.userId, s'', evicted⟩

/-- A heartbeat, a poll that replaces its timer, and then silence. -/
def silence : List Event := [.heartBeat 7 1, .pullData 7 2, .fire 2]

theorem only_last_armed_evicts_silent :
    ∃ s s', Run step Unraced {} silence s ∧ s.step (.clearUserData 2) = some s' ∧
      (s.entry 7).isSome ∧ s'.entry 7 = none ∧ lastArmed silence 7 = some 2 := by
  obtain ⟨s, run, checked⟩ : ∃ s, Run step AnyOrder {} silence s ∧ _ :=
    Run.of_check step (fun _ _ => true) {} silence
      (fun s => decide ((s.entry 7).isSome ∧
        (s.step (.clearUserData 2)).map (fun s' => s'.entry 7) = some none))
      (fun _ _ _ => trivial) (by decide)
  obtain ⟨present, cleared⟩ := of_decide_eq_true checked
  obtain ⟨s', stepped, erased⟩ := Option.map_eq_some_iff.mp cleared
  have unraced : Run step Unraced {} silence s := by
    cases run with
    | next _ beaten rest => cases rest with
      | next _ pulled rest => cases rest with
        | next _ fired rest =>
            cases rest
            have idle : ∀ u, ¬ HandlerWaits {} u := by
              rintro u ⟨t, arg, found, -⟩
              cases found
            obtain ⟨data, arms⟩ := arms_of_step (u := 7) (t := 1) rfl beaten
            refine .next (fun u t _ => idle u) beaten
              (.next ?_ pulled (.next nofun fired (.refl _)))
            exact fun u t _ waits => idle u (arms.waits waits)
  exact ⟨s, s', unraced, stepped, present, erased,
    ((only_last_armed_evicts _ _).1 unraced).1 2 s' 7 stepped present erased⟩

/-- A poll comes in between the firing of the heartbeat timer and its handler. -/
def refreshedTooLate : List Event := [.heartBeat 7 1, .fire 1, .pullData 7 2]

/-- The handler of timer 1 erases the entry, closes the connection of the poll and completes it,
although timer 2 was armed last. -/
theorem superseded_timer_evicts :
    ∃ s, Run step AnyOrder {} (refreshedTooLate ++ [.clearUserData 1, .complete 0]) s ∧
      lastArmed refreshedTooLate 7 = some 2 ∧ s.entry 7 = none ∧ s.closed = [0] ∧ s.ran = [0] := by
  obtain ⟨s, run, checked⟩ : ∃ s, Run step AnyOrder {}
      (refreshedTooLate ++ [.clearUserData 1, .complete 0]) s ∧ _ :=
    Run.of_check step (fun _ _ => true) {} (refreshedTooLate ++ [.clearUserData 1, .complete 0])
      (fun s => decide (lastArmed refreshedTooLate 7 = some 2 ∧ s.entry 7 = none ∧
        s.closed = [0] ∧ s.ran = [0]))
      (fun _ _ _ => trivial) (by decide)
  exact ⟨s, run, of_decide_eq_true checked⟩

end Service
end Tinyim.Access
