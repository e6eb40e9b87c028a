import Tinyim.Access.Service

/-! What one section or completion can do, said once, on the table as one map from
user to entry. Invariants are derived from these cases. -/
namespace Tinyim.Access
open Sharding OneShotTimers

abbrev AnyOrder (_ : Service) (_ : Event) : Prop := True

def Data.OfCall (data : Data) (call : Nat) : Prop :=
  data.done = some call ∧ data.msgs = some call ∧ data.cntl = some call

def Data.NoCall (data : Data) : Prop :=
  data.done = none ∧ data.msgs = none ∧ data.cntl = none

instance (data : Data) (call : Nat) : Decidable (data.OfCall call) := by
  unfold Data.OfCall; infer_instance

instance (data : Data) : Decidable data.NoCall := by
  unfold Data.NoCall; infer_instance

namespace Service
variable {s s' : Service}

def mark (s : Service) (timer : Nat) (arg : HeartBeatTimeoutArg) (status : Status) : Service :=
  { s with timers := Function.update s.timers timer (some { argument := arg, status := status }) }

/-- The state after the `bthread_timer_del` of a section for this user. -/
def dropTimer (s : Service) (userId : Int) : Service :=
  match s.entry userId with
  | some data => (s.timerDel data).2
  | none => s

/-- The `hbarg` that PushClosureAndReply leaves in the entry. -/
def keptArg (s : Service) (userId : Int) : Option Nat :=
  match s.entry userId with
  | some data => if (s.timerDel data).1 then none else data.hbarg
  | none => none

theorem timerDel_cases (data : Data) (s : Service) :
    (∃ arg, s.timerDel data = (true, { s.mark data.heartbeatTimeoutId arg .cancelled with
          disposed := s.disposed ++ data.hbarg.toList }) ∧
        s.timers data.heartbeatTimeoutId = some { argument := arg, status := .pending } ∧
        data.heartbeatTimeoutId ≠ 0) ∨
      s.timerDel data = (false, s) ∧
        (data.heartbeatTimeoutId ≠ 0 → s.timers.pending data.heartbeatTimeoutId = false) := by
  simp only [timerDel]
  split
  · rename_i valid
    obtain ⟨arg, deleted, found⟩ | ⟨deleted, ended⟩ :=
      Table.del_cases s.timers data.heartbeatTimeoutId
    · exact Or.inl ⟨arg, by simp only [deleted]; rfl, found, valid⟩
    · exact Or.inr ⟨by simp only [deleted], fun _ => ended⟩
  · rename_i invalid
    exact Or.inr ⟨rfl, fun valid => absurd valid invalid⟩

theorem dropTimer_cases (s : Service) (u : Int) :
    (∃ data arg, s.entry u = some data ∧ data.heartbeatTimeoutId ≠ 0 ∧
        s.timers data.heartbeatTimeoutId = some { argument := arg, status := .pending } ∧
        s.keptArg u = none ∧
        s.dropTimer u = { s.mark data.heartbeatTimeoutId arg .cancelled with
          disposed := s.disposed ++ data.hbarg.toList }) ∨
      s.dropTimer u = s ∧ s.keptArg u = (s.entry u).bind Data.hbarg ∧
        ∀ data, s.entry u = some data → data.heartbeatTimeoutId ≠ 0 →
          s.timers.pending data.heartbeatTimeoutId = false := by
  simp only [dropTimer, keptArg]
  cases found : s.entry u with
  | none => exact Or.inr ⟨rfl, rfl, fun _ impossible => absurd impossible (by simp)⟩
  | some data =>
      obtain ⟨arg, deleted, armed, valid⟩ | ⟨kept, ended⟩ := timerDel_cases data s
      · exact Or.inl ⟨data, arg, rfl, valid, armed, by simp only [deleted, if_true], by
          simp only [deleted]⟩
      · refine Or.inr ⟨by simp only [kept], by simp [kept], ?_⟩
        rintro _ ⟨⟩
        exact ended

theorem entry_of_index (s : Service) (bucket : index kBucketNum u = some b) :
    s.idMap b u = s.entry u :=
  (Shards.view_of_index s.idMap bucket).symm

theorem entry_put (bucket : index kBucketNum u = some b)
    (put : s'.idMap = s.idMap.put b u value) : s'.entry = Function.update s.entry u value := by
  funext v
  simp only [entry, put, Shards.view_put s.idMap bucket]
  rfl

theorem entry_initial (u : Int) : entry {} u = none := by
  simp only [entry, Shards.view]
  split <;> rfl

theorem entry_cases (entry : s'.entry = Function.update s.entry u value)
    (present : s'.entry v = some data) :
    v = u ∧ value = some data ∨ v ≠ u ∧ s.entry v = some data := by
  rw [entry] at present
  by_cases same : v = u
  · subst same
    rw [Function.update_self] at present
    exact Or.inl ⟨rfl, present⟩
  · rw [Function.update_of_ne same] at present
    exact Or.inr ⟨same, present⟩

/-- A section that arms a timer for a user and leaves `data` as the user's entry. -/
structure Arms (s s' : Service) (u : Int) (t : Nat) (data : Data) : Prop where
  entry : s'.entry = Function.update s.entry u (some data)
  named : data.heartbeatTimeoutId = t
  timers : (s.dropTimer u).timers.add t { userId := u, allocation := s.allocated } =
    some s'.timers
  disposed : s'.disposed = (s.dropTimer u).disposed
  allocated : s'.allocated = s.allocated + 1

structure SameTimers (s s' : Service) : Prop where
  timers : s'.timers = s.timers
  disposed : s'.disposed = s.disposed
  allocated : s'.allocated = s.allocated

/-- No closure was taken out or run, and no call came in. -/
structure SamePolls (s s' : Service) : Prop where
  pulls : s'.pulls = s.pulls
  replies : s'.replies = s.replies
  held : s'.held = s.held
  closed : s'.closed = s.closed
  ran : s'.ran = s.ran

inductive Moves (s s' : Service) : Event → Prop where
  | pulled (arms : Arms s s' u t data) (call : data.OfCall s.pulls.length)
      (hbarg : data.hbarg = s.keptArg u)
      (held : s'.held = s.held ++ ((s.entry u).bind Data.done).toList.map .lazyRun)
      (pulls : s'.pulls = s.pulls ++ [u]) (replies : s'.replies = s.replies)
      (closed : s'.closed = s.closed) (ran : s'.ran = s.ran) : Moves s s' (.pullData u t)
  | refreshed (signal : e = .heartBeat u t ∨ e = .sendMsg u t) (arms : Arms s s' u t data)
      (hbarg : data.hbarg = some s.allocated)
      (old : data = { (s.entry u).getD {} with
        heartbeatTimeoutId := data.heartbeatTimeoutId, hbarg := data.hbarg })
      (polls : SamePolls s s') : Moves s s' e
  | popped (found : s.entry msg.userId = some data)
      (entry : s'.entry = Function.update s.entry msg.userId
        (some { data with done := none, msgs := none, cntl := none }))
      (held : s'.held = s.held ++ data.done.toList.map (.sendtoAccess · data.msgs msg))
      (pulls : s'.pulls = s.pulls) (replies : s'.replies = s.replies)
      (closed : s'.closed = s.closed) (ran : s'.ran = s.ran) (timers : SameTimers s s') :
      Moves s s' (.sendtoAccess msg)
  | unserved (absent : s.entry msg.userId = none) (same : s' = s) : Moves s s' (.sendtoAccess msg)
  | completed (found : s.held[place]? = some completion)
      (done : complete { s with held := s.held.eraseIdx place } completion = some s') :
      Moves s s' (.complete place)
  | fired (found : s.timers t = some { argument := arg, status := .pending })
      (moved : s' = s.mark t arg .running) : Moves s s' (.fire t)
  | cleared (found : s.timers t = some { argument := arg, status := .running })
      (present : s.entry arg.userId = some data)
      (entry : s'.entry = Function.update s.entry arg.userId none)
      (timers : SameTimers ((s.mark t arg .leaving).dropTimer arg.userId) s')
      (held : s'.held = s.held ++ if data.msgs.isSome then [.clearUserData data t] else [])
      (pulls : s'.pulls = s.pulls) (replies : s'.replies = s.replies)
      (closed : s'.closed = s.closed) (ran : s'.ran = s.ran) : Moves s s' (.clearUserData t)
  | vacant (found : s.timers t = some { argument := arg, status := .running })
      (absent : s.entry arg.userId = none)
      (moved : s' = s.mark t arg .leaving) : Moves s s' (.clearUserData t)
  | returned (found : s.timers t = some { argument := arg, status := .leaving })
      (finished : s.inClearUserData t = false)
      (moved : s' = { s.mark t arg .finished with
        disposed := s.disposed ++ [arg.allocation] }) : Moves s s' (.handlerReturns t)

theorem timerDel_kept (data : Data) (s : Service) :
    (s.timerDel data).2 = { s with
      timers := (s.timerDel data).2.timers, disposed := (s.timerDel data).2.disposed } := by
  obtain ⟨arg, deleted, -⟩ | ⟨kept, -⟩ := timerDel_cases data s
  · rw [deleted]
    rfl
  · rw [kept]

theorem dropTimer_of_entry (found : s.entry u = some data) :
    s.dropTimer u = (s.timerDel data).2 := by
  simp only [dropTimer, found]

theorem dropTimer_of_none (absent : s.entry u = none) : s.dropTimer u = s := by
  simp only [dropTimer, absent]

theorem dropTimer_kept (s : Service) (u : Int) :
    s.dropTimer u = { s with
      timers := (s.dropTimer u).timers, disposed := (s.dropTimer u).disposed } := by
  cases found : s.entry u with
  | none => rw [dropTimer_of_none found]
  | some data =>
      rw [dropTimer_of_entry found]
      exact timerDel_kept data s

theorem timerAdd_cases (added : timerAdd u t s = some s') :
    s.timers.add t { userId := u, allocation := s.allocated } = some s'.timers ∧
      s' = { s with timers := s'.timers, allocated := s.allocated + 1 } := by
  obtain ⟨timers, armed, same⟩ := Option.bind_eq_some_iff.mp added
  cases same
  exact ⟨armed, rfl⟩

theorem arms_of_timerAdd (bucket : index kBucketNum u = some b)
    (added : timerAdd u t middle = some last) (named : data.heartbeatTimeoutId = t)
    (idMap : middle.idMap = s.idMap) (timers : middle.timers = (s.dropTimer u).timers)
    (disposed : middle.disposed = (s.dropTimer u).disposed)
    (allocated : middle.allocated = s.allocated) :
    Arms s (last.setData b u (some data)) u t data := by
  obtain ⟨armed, same⟩ := timerAdd_cases added
  rw [timers, allocated] at armed
  exact {
    entry := entry_put bucket (by rw [same, ← idMap]; rfl)
    named := named
    timers := armed
    disposed := by rw [same, ← disposed]; rfl
    allocated := by rw [same, ← allocated]; rfl }

theorem resetHeartBeatTimer_cases (reset : s.resetHeartBeatTimer u t = some s') :
    ∃ data, Arms s s' u t data ∧ data.hbarg = some s.allocated ∧
      data = { (s.entry u).getD {} with
        heartbeatTimeoutId := data.heartbeatTimeoutId, hbarg := data.hbarg } ∧
      SamePolls s s' := by
  obtain ⟨b, bucket, rest⟩ := Option.bind_eq_some_iff.mp reset
  rw [entry_of_index s bucket] at rest
  cases found : s.entry u with
  | none =>
      rw [found] at rest
      obtain ⟨last, added, same⟩ := Option.bind_eq_some_iff.mp rest
      cases same
      have dropped := dropTimer_of_none found
      refine ⟨_, arms_of_timerAdd bucket added rfl rfl ?_ ?_ rfl, rfl, rfl, ?_⟩
      · rw [dropped]
      · rw [dropped]
      · rw [(timerAdd_cases added).2]
        exact ⟨rfl, rfl, rfl, rfl, rfl⟩
  | some old =>
      rw [found] at rest
      obtain ⟨last, added, same⟩ := Option.bind_eq_some_iff.mp rest
      cases same
      rw [← dropTimer_of_entry found] at added
      have kept := dropTimer_kept s u
      refine ⟨_, arms_of_timerAdd bucket added rfl ?_ rfl rfl ?_, rfl, rfl, ?_⟩
      · rw [kept]
      · rw [kept]
      · rw [(timerAdd_cases added).2, kept]
        exact ⟨rfl, rfl, rfl, rfl, rfl⟩

theorem timerDel_replaced (call : Nat) (data : Data) (held : List Completion) :
    ({ s with held := held }).timerDel
        { data with done := some call, msgs := some call, cntl := some call } =
      ((s.timerDel data).1, { (s.timerDel data).2 with held := held }) := by
  simp only [timerDel]
  split
  · cases deleted : s.timers.del data.heartbeatTimeoutId with
    | mk answer timers => cases answer <;> rfl
  · rfl

theorem replaceClosure_eq (call : Nat) (found : s.entry u = some data) :
    s.replaceClosure call data =
      (⟨some call, some call, some call,
          if (s.timerDel data).1 then 0 else data.heartbeatTimeoutId, s.keptArg u⟩,
        { s.dropTimer u with held := s.held ++ data.done.toList.map .lazyRun }) := by
  have held : s.resetLazyRun data =
      { s with held := s.held ++ data.done.toList.map .lazyRun } := by
    simp only [resetLazyRun]
    cases data.done with
    | none => simp
    | some replaced => rfl
  simp only [replaceClosure, held, timerDel_replaced, dropTimer, keptArg, found]
  cases s.timerDel data with
  | mk answer after => cases answer <;> rfl

theorem pushClosureAndReply_cases (pushed : s.pushClosureAndReply u call t = some s') :
    ∃ data, Arms s s' u t data ∧ data.OfCall call ∧ data.hbarg = s.keptArg u ∧
      s'.held = s.held ++ ((s.entry u).bind Data.done).toList.map .lazyRun ∧
      s'.pulls = s.pulls ∧ s'.replies = s.replies ∧ s'.closed = s.closed ∧ s'.ran = s.ran := by
  obtain ⟨b, bucket, rest⟩ := Option.bind_eq_some_iff.mp pushed
  rw [entry_of_index s bucket] at rest
  cases found : s.entry u with
  | none =>
      rw [found] at rest
      obtain ⟨last, added, same⟩ := Option.bind_eq_some_iff.mp rest
      cases same
      have dropped := dropTimer_of_none found
      refine ⟨_, arms_of_timerAdd bucket added rfl rfl ?_ ?_ rfl, ⟨rfl, rfl, rfl⟩, ?_, ?_⟩
      · rw [dropped]
      · rw [dropped]
      · simp only [keptArg, found]
      · rw [(timerAdd_cases added).2]
        exact ⟨by simp [setData], rfl, rfl, rfl, rfl⟩
  | some old =>
      rw [found] at rest
      simp only [replaceClosure_eq call found] at rest
      obtain ⟨last, added, same⟩ := Option.bind_eq_some_iff.mp rest
      cases same
      have kept := dropTimer_kept s u
      refine ⟨_, arms_of_timerAdd bucket added rfl ?_ rfl rfl ?_, ⟨rfl, rfl, rfl⟩, rfl, ?_⟩
      · rw [kept]
      · rw [kept]
      · rw [(timerAdd_cases added).2, kept]
        exact ⟨rfl, rfl, rfl, rfl, rfl⟩

theorem sendtoAccess_moves (sent : s.sendtoAccess msg = some s') :
    Moves s s' (.sendtoAccess msg) := by
  obtain ⟨⟨⟨done, msgs, cntl⟩, middle⟩, popped, rest⟩ := Option.bind_eq_some_iff.mp sent
  obtain ⟨b, bucket, taken⟩ := Option.bind_eq_some_iff.mp popped
  rw [entry_of_index s bucket] at taken
  cases found : s.entry msg.userId with
  | none =>
      rw [found] at taken
      cases taken
      cases rest
      exact .unserved found rfl
  | some data =>
      rw [found] at taken
      cases taken
      have same : s' = { s.setData b msg.userId
          (some { data with done := none, msgs := none, cntl := none }) with
          held := s.held ++ data.done.toList.map (.sendtoAccess · data.msgs msg) } := by
        cases waiting : data.done with
        | none =>
            rw [waiting] at rest
            cases rest
            simp [setData]
        | some call =>
            rw [waiting] at rest
            cases rest
            rfl
      rw [same]
      exact .popped found (entry_put bucket rfl) rfl rfl rfl rfl rfl ⟨rfl, rfl, rfl⟩

theorem clearUserData_moves (found : s.timers t = some { argument := arg, status := .running })
    (cleared : clearUserData arg.userId t (s.mark t arg .leaving) = some s') :
    Moves s s' (.clearUserData t) := by
  obtain ⟨b, bucket, rest⟩ := Option.bind_eq_some_iff.mp cleared
  rw [show (s.mark t arg .leaving).idMap b arg.userId = s.entry arg.userId from
    entry_of_index s bucket] at rest
  cases present : s.entry arg.userId with
  | none =>
      rw [present] at rest
      cases rest
      exact .vacant found present rfl
  | some data =>
      rw [present] at rest
      have dropped : (s.mark t arg .leaving).dropTimer arg.userId =
          ((s.mark t arg .leaving).timerDel data).2 := dropTimer_of_entry present
      simp only [← dropped] at rest
      have kept := dropTimer_kept (s.mark t arg .leaving) arg.userId
      have same : s' = { ((s.mark t arg .leaving).dropTimer arg.userId).setData b arg.userId none
          with held := s.held ++ if data.msgs.isSome then [.clearUserData data t] else [] } := by
        split at rest
        · rename_i polling
          cases rest
          rw [if_pos polling, kept]
          rfl
        · rename_i idle
          cases rest
          rw [if_neg idle, List.append_nil, kept]
          rfl
      rw [same]
      refine .cleared found present (entry_put bucket ?_) ⟨rfl, rfl, rfl⟩ rfl ?_ ?_ ?_ ?_
      all_goals
        rw [kept]
        rfl

theorem moves_of_step (stepped : s.step e = some s') : Moves s s' e := by
  cases e with
  | pullData u t =>
      obtain ⟨last, pushed, same⟩ := Option.bind_eq_some_iff.mp stepped
      cases same
      obtain ⟨data, arms, call, hbarg, held, pulls, replies, closed, ran⟩ :=
        pushClosureAndReply_cases pushed
      exact .pulled ⟨arms.entry, arms.named, arms.timers, arms.disposed, arms.allocated⟩
        call hbarg held (by rw [pulls]) replies closed ran
  | heartBeat u t =>
      obtain ⟨data, arms, hbarg, old, polls⟩ := resetHeartBeatTimer_cases stepped
      exact .refreshed (.inl rfl) arms hbarg old polls
  | sendMsg u t =>
      obtain ⟨data, arms, hbarg, old, polls⟩ := resetHeartBeatTimer_cases stepped
      exact .refreshed (.inr rfl) arms hbarg old polls
  | sendtoAccess msg => exact sendtoAccess_moves stepped
  | complete place =>
      obtain ⟨completion, found, done⟩ := Option.bind_eq_some_iff.mp stepped
      exact .completed found done
  | fire t =>
      obtain ⟨⟨arg, timers⟩, moved, same⟩ := Option.bind_eq_some_iff.mp stepped
      obtain ⟨found, rfl⟩ := Table.advance_cases moved
      cases same
      exact .fired found rfl
  | clearUserData t =>
      obtain ⟨⟨arg, timers⟩, moved, cleared⟩ := Option.bind_eq_some_iff.mp stepped
      obtain ⟨found, rfl⟩ := Table.advance_cases moved
      exact clearUserData_moves found cleared
  | handlerReturns t =>
      obtain ⟨⟨arg, timers⟩, moved, rest⟩ := Option.bind_eq_some_iff.mp stepped
      obtain ⟨found, rfl⟩ := Table.advance_cases moved
      cases inside : s.inClearUserData t with
      | true => simp [inside] at rest
      | false =>
          simp only [inside, Bool.false_eq_true, if_false] at rest
          cases rest
          exact .returned found inside rfl

theorem quiet_of_mark (moved : s' = { s.mark t arg status with disposed := deleted }) :
    s'.entry = s.entry ∧ SamePolls s s' := by
  subst moved
  exact ⟨rfl, rfl, rfl, rfl, rfl, rfl⟩

theorem complete_same (done : complete s completion = some s') :
    s'.entry = s.entry ∧ s'.held = s.held ∧ SameTimers s s' := by
  cases completion with
  | lazyRun call =>
      cases done
      exact ⟨rfl, rfl, rfl, rfl, rfl⟩
  | sendtoAccess call msgs msg =>
      obtain ⟨target, -, same⟩ := Option.bind_eq_some_iff.mp done
      cases same
      exact ⟨rfl, rfl, rfl, rfl, rfl⟩
  | clearUserData originData timer =>
      obtain ⟨cntl, -, rest⟩ := Option.bind_eq_some_iff.mp done
      obtain ⟨call, -, same⟩ := Option.bind_eq_some_iff.mp rest
      cases same
      exact ⟨rfl, rfl, rfl, rfl, rfl⟩

end Service
end Tinyim.Access
