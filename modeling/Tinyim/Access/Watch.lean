import Tinyim.Transition
import Tinyim.Access.Moves

/-! Which timer watches an entry. The table and the timers agree on the user of every
timer that an entry names, and a pending timer is one that its user's entry names. -/
namespace Tinyim.Access
open Transition OneShotTimers

namespace Service
variable {s s' : Service} {u v : Int} {t : Nat} {arg : HeartBeatTimeoutArg} {status : Status}

structure Tracked (s : Service) : Prop where
  zero : s.timers 0 = none
  owner : ∀ u data, s.entry u = some data →
    ∃ arg status, s.timers data.heartbeatTimeoutId = some { argument := arg, status := status } ∧
      arg.userId = u
  named : ∀ t arg, s.timers t = some { argument := arg, status := .pending } →
    ∃ data, s.entry arg.userId = some data ∧ data.heartbeatTimeoutId = t

/-- The timer of this user's entry is pending, or its handler has not got the lock yet. -/
def Alive (s : Service) (u : Int) : Prop :=
  ∀ data, s.entry u = some data →
    ∃ arg status, s.timers data.heartbeatTimeoutId = some { argument := arg, status := status } ∧
      (status = .pending ∨ status = .running)

def Idle (s : Service) (u : Int) : Prop :=
  ∀ t arg, s.timers t = some { argument := arg, status := .pending } → arg.userId ≠ u

theorem mark_cases (found : (s.mark t arg status).timers t' = some task) :
    t' = t ∧ task = { argument := arg, status := status } ∨ t' ≠ t ∧ s.timers t' = some task := by
  simp only [mark] at found
  by_cases same : t' = t
  · subst same
    rw [Function.update_self] at found
    exact Or.inl ⟨rfl, (Option.some.inj found).symm⟩
  · rw [Function.update_of_ne same] at found
    exact Or.inr ⟨same, found⟩

theorem mark_self : (s.mark t arg status).timers t = some { argument := arg, status := status } :=
  Function.update_self ..

theorem mark_other (different : t' ≠ t) : (s.mark t arg status).timers t' = s.timers t' :=
  Function.update_of_ne different ..

theorem Tracked.mark (tracked : s.Tracked)
    (found : s.timers t = some { argument := arg, status := before })
    (moved : status ≠ .pending) : (s.mark t arg status).Tracked := by
  refine ⟨?_, ?_, ?_⟩
  · rw [mark_other, tracked.zero]
    rintro rfl
    rw [tracked.zero] at found
    contradiction
  · intro u data present
    obtain ⟨held, was, timer, mine⟩ := tracked.owner u data present
    by_cases same : data.heartbeatTimeoutId = t
    · rw [same, found] at timer
      cases timer
      exact ⟨arg, status, by rw [same, mark_self], mine⟩
    · exact ⟨held, was, by rw [mark_other same, timer], mine⟩
  · intro t' held pending
    obtain ⟨-, same⟩ | ⟨-, old⟩ := mark_cases pending
    · cases same
      contradiction
    · exact tracked.named t' held old

theorem Tracked.alive_mark (tracked : s.Tracked)
    (found : s.timers t = some { argument := arg, status := before })
    (other : v ≠ arg.userId) (alive : s.Alive v) : (s.mark t arg status).Alive v := by
  intro data present
  obtain ⟨held, was, timer, running⟩ := alive data present
  obtain ⟨owner, now, same, mine⟩ := tracked.owner v data present
  have different : data.heartbeatTimeoutId ≠ t := by
    intro equal
    rw [equal, found] at same
    cases same
    exact other mine.symm
  exact ⟨held, was, by rw [mark_other different, timer], running⟩

theorem alive_running (alive : s.Alive v) : (s.mark t arg .running).Alive v := by
  intro data present
  by_cases same : data.heartbeatTimeoutId = t
  · exact ⟨arg, .running, by rw [same, mark_self], Or.inr rfl⟩
  · obtain ⟨held, was, timer, running⟩ := alive data present
    exact ⟨held, was, by rw [mark_other same, timer], running⟩

theorem Tracked.dropTimer (tracked : s.Tracked) (u : Int) :
    (s.dropTimer u).Tracked ∧ (s.dropTimer u).Idle u ∧
      ∀ v, v ≠ u → s.Alive v → (s.dropTimer u).Alive v := by
  obtain ⟨data, arg, present, valid, armed, -, same⟩ | ⟨same, -, ended⟩ := dropTimer_cases s u
  · have mine : arg.userId = u := by
      obtain ⟨held, status, timer, mine⟩ := tracked.owner u data present
      rw [armed] at timer
      cases timer
      exact mine
    have tracked' := tracked.mark armed (show Status.cancelled ≠ .pending from nofun)
    rw [same]
    refine ⟨⟨tracked'.zero, tracked'.owner, tracked'.named⟩, ?_, ?_⟩
    · rintro t held pending rfl
      obtain ⟨-, same⟩ | ⟨different, old⟩ := mark_cases pending
      · cases same
      · obtain ⟨data', present', named⟩ := tracked.named t held old
        rw [present] at present'
        cases present'
        exact different named.symm
    · intro v other alive
      exact tracked.alive_mark armed (mine ▸ other) alive
  · rw [same]
    refine ⟨tracked, ?_, fun _ _ alive => alive⟩
    rintro t held pending rfl
    obtain ⟨data, present, rfl⟩ := tracked.named t held pending
    have valid : data.heartbeatTimeoutId ≠ 0 := by
      intro zero
      rw [zero, tracked.zero] at pending
      contradiction
    have idle := ended data present valid
    rw [Table.pending_iff.mpr ⟨_, pending, rfl⟩] at idle
    contradiction

theorem Arms.added (arms : Arms s s' u t data) :
    t ≠ 0 ∧ (s.dropTimer u).timers t = none ∧
      s'.timers = Function.update (s.dropTimer u).timers t
        (some { argument := { userId := u, allocation := s.allocated } }) :=
  Table.add_cases arms.timers

theorem Arms.timer_cases (arms : Arms s s' u t data) (found : s'.timers t' = some task) :
    t' = t ∧ task = { argument := { userId := u, allocation := s.allocated } } ∨
      t' ≠ t ∧ (s.dropTimer u).timers t' = some task := by
  obtain ⟨-, -, timers⟩ := arms.added
  rw [timers] at found
  by_cases same : t' = t
  · subst same
    rw [Function.update_self] at found
    exact Or.inl ⟨rfl, (Option.some.inj found).symm⟩
  · rw [Function.update_of_ne same] at found
    exact Or.inr ⟨same, found⟩

theorem Arms.armed (arms : Arms s s' u t data) :
    s'.timers t = some { argument := { userId := u, allocation := s.allocated } } := by
  rw [arms.added.2.2, Function.update_self]

theorem dropTimer_entry (s : Service) (u : Int) : (s.dropTimer u).entry = s.entry := by
  rw [dropTimer_kept]
  rfl

theorem Arms.entry_dropped (arms : Arms s s' u t data) :
    s'.entry = Function.update (s.dropTimer u).entry u (some data) := by
  rw [dropTimer_entry, arms.entry]

structure Watched (s : Service) : Prop where
  tracked : s.Tracked
  alive : ∀ u, s.Alive u

theorem initial_watched : Watched {} := by
  have empty : ∀ u data, Service.entry {} u ≠ some data := fun u data found =>
    absurd ((entry_initial u).symm.trans found) nofun
  refine ⟨⟨rfl, fun u data found => absurd found (empty u data), ?_⟩,
    fun u data found => absurd found (empty u data)⟩
  intro t arg pending
  contradiction

theorem arms_watched (watched : s.Watched) (arms : Arms s s' u t data) : s'.Watched := by
  obtain ⟨tracked, idle, others⟩ := watched.tracked.dropTimer u
  obtain ⟨positive, unused, timers⟩ := arms.added
  have entry := arms.entry_dropped
  have kept : ∀ t' task, (s.dropTimer u).timers t' = some task → s'.timers t' = some task := by
    intro t' task found
    rw [timers, Function.update_of_ne, found]
    rintro rfl
    rw [unused] at found
    contradiction
  refine ⟨⟨?_, ?_, ?_⟩, ?_⟩
  · rw [timers, Function.update_of_ne (Ne.symm positive), tracked.zero]
  · intro v found present
    obtain ⟨rfl, new⟩ | ⟨-, old⟩ := entry_cases entry present
    · cases new
      exact ⟨_, _, by rw [arms.named, arms.armed], rfl⟩
    · obtain ⟨arg, status, timer, mine⟩ := tracked.owner v found old
      exact ⟨arg, status, kept _ _ timer, mine⟩
  · intro t' arg pending
    obtain ⟨rfl, same⟩ | ⟨-, old⟩ := arms.timer_cases pending
    · cases same
      exact ⟨data, by rw [entry, Function.update_self], arms.named⟩
    · obtain ⟨found, present, named⟩ := tracked.named t' arg old
      exact ⟨found, by rw [entry, Function.update_of_ne (idle t' arg old), present], named⟩
  · intro v found present
    obtain ⟨rfl, new⟩ | ⟨other, old⟩ := entry_cases entry present
    · cases new
      exact ⟨_, _, by rw [arms.named, arms.armed], Or.inl rfl⟩
    · obtain ⟨arg, status, timer, running⟩ := others v other (watched.alive v) found old
      exact ⟨arg, status, kept _ _ timer, running⟩

theorem cleared_watched (watched : s.Watched)
    (found : s.timers t = some { argument := arg, status := .running })
    (entry : s'.entry = Function.update s.entry arg.userId none)
    (timers : SameTimers ((s.mark t arg .leaving).dropTimer arg.userId) s') : s'.Watched := by
  have left : (s.mark t arg .leaving).Tracked := watched.tracked.mark found nofun
  obtain ⟨tracked, idle, others⟩ := left.dropTimer arg.userId
  have same : ((s.mark t arg .leaving).dropTimer arg.userId).entry = s.entry := by
    rw [dropTimer_entry]
    rfl
  rw [← same] at entry
  refine ⟨⟨?_, ?_, ?_⟩, ?_⟩
  · rw [timers.timers, tracked.zero]
  · intro v data present
    obtain ⟨-, gone⟩ | ⟨-, old⟩ := entry_cases entry present
    · contradiction
    · rw [timers.timers]
      exact tracked.owner v data old
  · intro t' held pending
    rw [timers.timers] at pending
    obtain ⟨data, present, named⟩ := tracked.named t' held pending
    exact ⟨data, by rw [entry, Function.update_of_ne (idle t' held pending), present], named⟩
  · intro v data present
    obtain ⟨-, gone⟩ | ⟨other, old⟩ := entry_cases entry present
    · contradiction
    · rw [timers.timers]
      exact others v other (watched.tracked.alive_mark found other (watched.alive v)) data old

theorem unnamed_watched (watched : s.Watched)
    (found : s.timers t = some { argument := arg, status := before })
    (ended : before ≠ .pending ∧ before ≠ .running) (moved : status ≠ .pending) :
    (s.mark t arg status).Watched := by
  refine ⟨watched.tracked.mark found moved, ?_⟩
  intro v data present
  obtain ⟨held, was, timer, running⟩ := watched.alive v data present
  refine ⟨held, was, ?_, running⟩
  rw [mark_other, timer]
  intro same
  rw [same, found] at timer
  cases timer
  exact running.elim ended.1 ended.2

theorem retimed_watched (watched : s.Watched)
    (named : ∀ v, (s'.entry v).map Data.heartbeatTimeoutId =
      (s.entry v).map Data.heartbeatTimeoutId)
    (timers : SameTimers s s') : s'.Watched := by
  have before : ∀ v data, s'.entry v = some data → ∃ old, s.entry v = some old ∧
      old.heartbeatTimeoutId = data.heartbeatTimeoutId := by
    intro v data present
    have same := named v
    rw [present] at same
    exact Option.map_eq_some_iff.mp same.symm
  refine ⟨⟨?_, ?_, ?_⟩, ?_⟩
  · rw [timers.timers, watched.tracked.zero]
  · intro v data present
    obtain ⟨old, there, same⟩ := before v data present
    rw [timers.timers, ← same]
    exact watched.tracked.owner v old there
  · intro t arg pending
    rw [timers.timers] at pending
    obtain ⟨old, there, rfl⟩ := watched.tracked.named t arg pending
    have same := named arg.userId
    rw [there] at same
    exact Option.map_eq_some_iff.mp same
  · intro v data present
    obtain ⟨old, there, same⟩ := before v data present
    rw [timers.timers, ← same]
    exact watched.alive v old there

theorem step_watched (watched : s.Watched) (stepped : s.step e = some s') : s'.Watched := by
  cases moves_of_step stepped with
  | pulled arms _ _ _ _ _ _ _ => exact arms_watched watched arms
  | refreshed _ arms _ _ _ => exact arms_watched watched arms
  | @popped data msg found entry _ _ _ _ _ timers =>
      refine retimed_watched watched ?_ timers
      intro v
      rw [entry]
      by_cases same : v = msg.userId
      · subst same
        rw [Function.update_self, found]
        rfl
      · rw [Function.update_of_ne same]
  | unserved _ same =>
      rw [same]
      exact watched
  | completed _ done =>
      obtain ⟨entry, -, timers⟩ := complete_same done
      exact retimed_watched watched (fun v => by rw [entry]; rfl)
        ⟨timers.timers, timers.disposed, timers.allocated⟩
  | fired found moved =>
      rw [moved]
      exact ⟨watched.tracked.mark found nofun, fun v => alive_running (watched.alive v)⟩
  | cleared found _ entry timers _ _ _ _ _ => exact cleared_watched watched found entry timers
  | @vacant t arg found absent moved =>
      rw [moved]
      refine ⟨watched.tracked.mark found nofun, ?_⟩
      intro v
      by_cases same : v = arg.userId
      · subst same
        intro data present
        exact absurd (absent.symm.trans present) nofun
      · exact watched.tracked.alive_mark found same (watched.alive v)
  | returned found _ moved =>
      rw [moved]
      have after := unnamed_watched watched found ⟨nofun, nofun⟩
        (show Status.finished ≠ .pending from nofun)
      exact ⟨⟨after.tracked.zero, after.tracked.owner, after.tracked.named⟩, after.alive⟩

theorem run_watched (watched : s.Watched) (run : Run step allowed s es s') : s'.Watched :=
  run.invariant Watched (fun watched _ stepped => step_watched watched stepped) watched

theorem index_of_entry (present : s.entry u = some data) :
    ∃ b, Sharding.index kBucketNum u = some b := by
  simp only [entry, Sharding.Shards.view] at present
  split at present
  · rename_i b found
    exact ⟨b, found⟩
  · contradiction

theorem clearUserData_erases (found : s.timers t = some { argument := arg, status := .running })
    (present : s.entry arg.userId = some data) :
    ∃ s', s.step (.clearUserData t) = some s' ∧ s'.entry arg.userId = none := by
  obtain ⟨b, bucket⟩ := index_of_entry present
  have moved : s.timers.advance .running .leaving t =
      some (arg, (s.mark t arg .leaving).timers) := by
    simp only [Table.advance, found]
    rfl
  have here : (s.mark t arg .leaving).idMap b arg.userId = some data :=
    (entry_of_index s bucket).trans present
  have cleared : ∃ s', clearUserData arg.userId t (s.mark t arg .leaving) = some s' := by
    simp only [clearUserData, bucket, Option.bind_eq_bind, Option.bind_some, here]
    split
    · exact ⟨_, rfl⟩
    · exact ⟨_, rfl⟩
  obtain ⟨s', cleared⟩ := cleared
  have stepped : s.step (.clearUserData t) = some s' := by
    simp only [step, moved, Option.bind_eq_bind, Option.bind_some]
    exact cleared
  refine ⟨s', stepped, ?_⟩
  cases clearUserData_moves found cleared with
  | @cleared _ _ _ found' _ entry _ _ _ _ _ _ =>
      rw [found] at found'
      cases found'
      rw [entry, Function.update_self]
  | vacant found' absent _ =>
      rw [found] at found'
      cases found'
      rw [absent] at present
      contradiction
  | refreshed signal => exact signal.elim nofun nofun

/-- Firing and handling its timer removes an entry, whatever else happened before. -/
theorem Watched.can_time_out (watched : s.Watched) (present : s.entry u = some data) :
    ∃ es s', Run step AnyOrder s es s' ∧ s'.entry u = none ∧
      ∀ e ∈ es, e = .fire data.heartbeatTimeoutId ∨
        e = .clearUserData data.heartbeatTimeoutId := by
  obtain ⟨arg, status, timer, rfl⟩ := watched.tracked.owner u data present
  obtain ⟨held, was, same, running⟩ := watched.alive _ data present
  rw [timer] at same
  cases same
  rcases running with rfl | rfl
  · -- The timer fires first.
    have fired : s.step (.fire data.heartbeatTimeoutId) =
        some (s.mark data.heartbeatTimeoutId arg .running) := by
      simp only [step, Table.advance, timer]
      rfl
    obtain ⟨s', stepped, erased⟩ := clearUserData_erases
      (s := s.mark data.heartbeatTimeoutId arg .running) mark_self present
    exact ⟨[_, _], s', .next trivial fired (.next trivial stepped (.refl _)), erased, by simp⟩
  · obtain ⟨s', stepped, erased⟩ := clearUserData_erases timer present
    exact ⟨[_], s', .next trivial stepped (.refl _), erased, by simp⟩

/-- A user has at most one pending timer, which its entry names; every entry names a
timer of its user that has not run out, and running it out removes the entry. -/
theorem entries_watched (run : Run step AnyOrder {} es s) :
    (∀ t t' arg arg', s.timers t = some { argument := arg, status := .pending } →
      s.timers t' = some { argument := arg', status := .pending } →
        arg.userId = arg'.userId → t = t') ∧
    (∀ t arg, s.timers t = some { argument := arg, status := .pending } →
      ∃ data, s.entry arg.userId = some data ∧ data.heartbeatTimeoutId = t) ∧
    (∀ u data, s.entry u = some data →
      ∃ arg status, s.timers data.heartbeatTimeoutId =
          some { argument := arg, status := status } ∧
        arg.userId = u ∧ (status = .pending ∨ status = .running)) ∧
    (∀ u data, s.entry u = some data → ∃ es s', Run step AnyOrder s es s' ∧ s'.entry u = none ∧
      ∀ e ∈ es, e = .fire data.heartbeatTimeoutId ∨
        e = .clearUserData data.heartbeatTimeoutId) := by
  have watched := run_watched initial_watched run
  refine ⟨?_, watched.tracked.named, ?_, fun _ _ => watched.can_time_out⟩
  · intro t t' arg arg' pending pending' same
    obtain ⟨data, present, rfl⟩ := watched.tracked.named t arg pending
    obtain ⟨data', present', rfl⟩ := watched.tracked.named t' arg' pending'
    rw [← same, present] at present'
    cases present'
    rfl
  · intro u data present
    obtain ⟨arg, status, timer, mine⟩ := watched.tracked.owner u data present
    obtain ⟨held, was, same, running⟩ := watched.alive u data present
    rw [timer] at same
    cases same
    exact ⟨arg, status, timer, mine, running⟩

/-- A handler that has lost the race erases the entry of the poll that came in between, and
the next heartbeat starts afresh. -/
def staleHandler : List Event :=
  [.heartBeat 7 1, .fire 1, .pullData 7 2, .clearUserData 1, .complete 0, .heartBeat 7 3]

theorem entries_watched_stale :
    ∃ s, Run step AnyOrder {} staleHandler s ∧
      (s.entry 7).map Data.heartbeatTimeoutId = some 3 ∧
      (∀ t arg, s.timers t = some { argument := arg, status := .pending } →
        ∃ data, s.entry arg.userId = some data ∧ data.heartbeatTimeoutId = t) := by
  obtain ⟨s, run, named⟩ : ∃ s, Run step AnyOrder {} staleHandler s ∧ _ :=
    Run.of_check step (fun _ _ => true) {} staleHandler
      (fun s => decide ((s.entry 7).map Data.heartbeatTimeoutId = some 3))
      (fun _ _ _ => trivial) (by decide)
  exact ⟨s, run, of_decide_eq_true named, (entries_watched run).2.1⟩

end Service
end Tinyim.Access
