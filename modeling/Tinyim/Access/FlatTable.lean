import Tinyim.Access.Service

/-! `AccessServiceImpl` over one map from users to their entries: what its operations mean
when nothing is said about buckets. Under a bucket's mutex an operation sees the entry of
its user and nothing else of `id_map_`, so the service does the same as this one as long as
every user has a bucket. -/
namespace Tinyim.Access
open Sharding OneShotTimers

/-- The `idMap` of `rest` is not used. -/
structure FlatService where
  table : Int → Option Data
  rest : Service

/-- What an operation does to the entry of its user and to the rest of the service. -/
abbrev EntryOp := Service → Option Data → Option (Option Data × Service)

def resetEntry (userId : Int) (timer : Nat) : EntryOp := fun s entry =>
  match entry with
  | some data => do
    let t ← Service.timerAdd userId timer (s.timerDel data).2
    return (some { data with heartbeatTimeoutId := timer, hbarg := some s.allocated }, t)
  | none => do
    let t ← Service.timerAdd userId timer s
    return (some { heartbeatTimeoutId := timer, hbarg := some s.allocated }, t)

def clearEntry (timer : Nat) : EntryOp := fun s entry =>
  match entry with
  | some data =>
    let t := (s.timerDel data).2
    some (none, if data.msgs.isSome then t.hold (.clearUserData data timer) else t)
  | none => some (none, s)

def pushEntry (userId : Int) (done timer : Nat) : EntryOp := fun s entry => do
  let (data, t) := match entry with
    | none => (Data.mk (some done) (some done) (some done) 0 none, s)
    | some data => s.replaceClosure done data
  let t ← Service.timerAdd userId timer t
  return (some { data with heartbeatTimeoutId := timer }, t)

def pullEntry (userId : Int) (timer : Nat) : EntryOp := fun s entry => do
  let (entry, t) ← pushEntry userId s.pulls.length timer s entry
  return (entry, { t with pulls := t.pulls ++ [userId] })

def sendtoEntry (msg : Msg) : EntryOp := fun s entry =>
  match entry with
  | some data =>
    some (some { data with done := none, msgs := none, cntl := none },
      match data.done with
      | some done => s.hold (.sendtoAccess done data.msgs msg)
      | none => s)
  | none => some (none, s)

namespace FlatService

def onEntry (s : FlatService) (userId : Int) (op : EntryOp) : Option FlatService := do
  let (entry, rest) ← op s.rest (s.table userId)
  return ⟨Function.update s.table userId entry, rest⟩

def keepTable (s : FlatService) (rest : Option Service) : Option FlatService :=
  rest.map fun rest => ⟨s.table, rest⟩

def step (s : FlatService) : Event → Option FlatService
  | .pullData userId timer => s.onEntry userId (pullEntry userId timer)
  | .heartBeat userId timer => s.onEntry userId (resetEntry userId timer)
  | .sendMsg userId timer => s.onEntry userId (resetEntry userId timer)
  | .sendtoAccess msg => s.onEntry msg.userId (sendtoEntry msg)
  | .clearUserData timer => do
    let (arg, timers) ← s.rest.timers.advance .running .leaving timer
    onEntry ⟨s.table, { s.rest with timers := timers }⟩ arg.userId (clearEntry timer)
  | .complete place => s.keepTable (s.rest.step (.complete place))
  | .fire timer => s.keepTable (s.rest.step (.fire timer))
  | .handlerReturns timer => s.keepTable (s.rest.step (.handlerReturns timer))

/-- The user whose entry an event is about. -/
def userOf (s : FlatService) : Event → Option Int
  | .pullData userId _ | .heartBeat userId _ | .sendMsg userId _ => some userId
  | .sendtoAccess msg => some msg.userId
  | .clearUserData timer =>
    (s.rest.timers.advance .running .leaving timer).map (·.1.userId)
  | .complete _ | .fire _ | .handlerReturns _ => none

end FlatService

namespace Service
variable {s : Service} {op : EntryOp}

/-- An operation under the mutex of its user's bucket. -/
def onBucket (s : Service) (userId : Int) (op : EntryOp) : Option Service := do
  let bucket ← index kBucketNum userId
  let (entry, t) ← op s (s.idMap bucket userId)
  return t.setData bucket userId entry

def withMap (s : Service) (idMap : Shards kBucketNum (Option Data)) : Service :=
  { s with idMap := idMap }

/-- The one map that the buckets stand for, beside everything else. -/
def flatten (s : Service) : FlatService := ⟨s.idMap.view none, s.withMap fun _ _ => none⟩

/-- An operation neither reads nor writes `id_map_` but for the entry that it is given. -/
def IgnoresMap (op : EntryOp) : Prop :=
  ∀ s idMap entry, op (s.withMap idMap) entry =
    (op s entry).map fun result => (result.1, result.2.withMap idMap)

theorem timerAdd_withMap (userId : Int) (timer : Nat) (s : Service) (idMap) :
    timerAdd userId timer (s.withMap idMap) = (timerAdd userId timer s).map (·.withMap idMap) := by
  simp only [timerAdd, withMap]
  cases s.timers.add timer ⟨userId, s.allocated⟩ with
  | none => rfl
  | some timers => rfl

theorem timerDel_withMap (data : Data) (s : Service) (idMap) :
    (s.withMap idMap).timerDel data = ((s.timerDel data).1, (s.timerDel data).2.withMap idMap) := by
  simp only [timerDel, withMap]
  split
  · cases s.timers.del data.heartbeatTimeoutId with
    | mk deleted timers =>
        cases deleted with
        | true => rfl
        | false => rfl
  · rfl

theorem replaceClosure_withMap (done : Nat) (data : Data) (s : Service) (idMap) :
    (s.withMap idMap).replaceClosure done data =
      ((s.replaceClosure done data).1, (s.replaceClosure done data).2.withMap idMap) := by
  have reset : (s.withMap idMap).resetLazyRun data = (s.resetLazyRun data).withMap idMap := by
    simp only [resetLazyRun]
    split <;> rfl
  simp only [replaceClosure, reset, timerDel_withMap]
  cases (s.resetLazyRun data).timerDel _ with
  | mk deleted t =>
      cases deleted with
      | true => rfl
      | false => rfl

theorem resetEntry_ignoresMap (userId : Int) (timer : Nat) :
    IgnoresMap (resetEntry userId timer) := by
  intro s idMap entry
  cases entry with
  | some data =>
      simp only [resetEntry, timerDel_withMap, timerAdd_withMap]
      cases timerAdd userId timer (s.timerDel data).2 with
      | none => rfl
      | some t => rfl
  | none =>
      simp only [resetEntry, timerAdd_withMap]
      cases timerAdd userId timer s with
      | none => rfl
      | some t => rfl

theorem clearEntry_ignoresMap (timer : Nat) : IgnoresMap (clearEntry timer) := by
  intro s idMap entry
  cases entry with
  | some data =>
      simp only [clearEntry, timerDel_withMap, Option.map_some]
      split
      · rfl
      · rfl
  | none => rfl

theorem pullEntry_ignoresMap (userId : Int) (timer : Nat) :
    IgnoresMap (pullEntry userId timer) := by
  intro s idMap entry
  have pulls : (s.withMap idMap).pulls = s.pulls := rfl
  cases entry with
  | some data =>
      simp only [pullEntry, pushEntry, pulls, replaceClosure_withMap, timerAdd_withMap]
      cases timerAdd userId timer (s.replaceClosure s.pulls.length data).2 with
      | none => rfl
      | some t => rfl
  | none =>
      simp only [pullEntry, pushEntry, pulls, timerAdd_withMap]
      cases timerAdd userId timer s with
      | none => rfl
      | some t => rfl

theorem sendtoEntry_ignoresMap (msg : Msg) : IgnoresMap (sendtoEntry msg) := by
  intro s idMap entry
  cases entry with
  | some data =>
      simp only [sendtoEntry]
      split
      · rfl
      · rfl
  | none => rfl

theorem setData_self (found : s.idMap bucket userId = data) :
    s.setData bucket userId data = s := by
  rw [setData, Shards.put_eq_self _ found]

/-! The operations of the service are these ones, under the mutex of the bucket. -/

theorem resetHeartBeatTimer_eq (userId : Int) (timer : Nat) (s : Service) :
    resetHeartBeatTimer userId timer s = s.onBucket userId (resetEntry userId timer) := by
  simp only [resetHeartBeatTimer, onBucket]
  cases index kBucketNum userId with
  | none => rfl
  | some bucket =>
      simp only [Option.bind_eq_bind, Option.bind_some]
      cases s.idMap bucket userId with
      | some data =>
          simp only [resetEntry]
          cases timerAdd userId timer (s.timerDel data).2 with
          | none => rfl
          | some t => rfl
      | none =>
          simp only [resetEntry]
          cases timerAdd userId timer s with
          | none => rfl
          | some t => rfl

theorem clearUserData_eq (userId : Int) (timer : Nat) (s : Service) :
    clearUserData userId timer s = s.onBucket userId (clearEntry timer) := by
  simp only [clearUserData, onBucket]
  cases index kBucketNum userId with
  | none => rfl
  | some bucket =>
      simp only [Option.bind_eq_bind, Option.bind_some]
      cases found : s.idMap bucket userId with
      | some data =>
          simp only [clearEntry, Option.bind_some]
          split
          · rfl
          · rfl
      | none => simp only [clearEntry, Option.bind_some, setData_self found, Option.pure_def]

theorem pullData_eq (userId : Int) (timer : Nat) (s : Service) :
    s.step (.pullData userId timer) = s.onBucket userId (pullEntry userId timer) := by
  simp only [step, pushClosureAndReply, onBucket]
  cases index kBucketNum userId with
  | none => rfl
  | some bucket =>
      simp only [Option.bind_eq_bind, Option.bind_some]
      cases s.idMap bucket userId with
      | some data =>
          simp only [pullEntry, pushEntry]
          cases timerAdd userId timer (s.replaceClosure s.pulls.length data).2 with
          | none => rfl
          | some t => rfl
      | none =>
          simp only [pullEntry, pushEntry]
          cases timerAdd userId timer s with
          | none => rfl
          | some t => rfl

theorem sendtoAccess_eq (msg : Msg) (s : Service) :
    s.sendtoAccess msg = s.onBucket msg.userId (sendtoEntry msg) := by
  simp only [sendtoAccess, popClosureAndReply, onBucket]
  cases index kBucketNum msg.userId with
  | none => rfl
  | some bucket =>
      simp only [Option.bind_eq_bind, Option.bind_some]
      cases found : s.idMap bucket msg.userId with
      | some data =>
          simp only [sendtoEntry, Option.bind_some, Option.pure_def]
          cases data.done with
          | some done => rfl
          | none => rfl
      | none => simp only [sendtoEntry, Option.bind_some, setData_self found, Option.pure_def]

/-- What an operation finds and leaves under its bucket's mutex it finds and leaves in the
one map. -/
theorem onBucket_flatten (ignores : IgnoresMap op) (s : Service)
    (found : index kBucketNum userId = some bucket) :
    (s.onBucket userId op).map flatten = s.flatten.onEntry userId op := by
  have entry : s.flatten.table userId = s.idMap bucket userId := Shards.view_of_index _ found
  simp only [onBucket, FlatService.onEntry, found, entry, Option.bind_eq_bind, Option.bind_some]
  have kept := ignores s s.idMap (s.idMap bucket userId)
  have flat := ignores s (fun _ _ => none) (s.idMap bucket userId)
  have same : s.withMap s.idMap = s := rfl
  rw [same] at kept
  rw [flatten, flat]
  cases done : op s (s.idMap bucket userId) with
  | none => rfl
  | some result =>
      obtain ⟨entry, t⟩ := result
      rw [done] at kept
      have whole : t = t.withMap s.idMap := congrArg Prod.snd (Option.some.inj kept)
      have map : t.idMap = (t.withMap s.idMap).idMap := congrArg Service.idMap whole
      replace map : t.idMap = s.idMap := map
      simp only [Option.map_some, Option.bind_some, Option.pure_def, flatten, setData, map,
        Shards.view_put _ found]
      rfl

theorem onBucket_none (outside : index kBucketNum userId = none) :
    s.onBucket userId op = none := by
  rw [onBucket, outside]
  rfl

theorem complete_withMap (s : Service) (completion : Completion) (idMap) :
    (s.withMap idMap).complete completion = (s.complete completion).map (·.withMap idMap) := by
  cases completion with
  | lazyRun done => rfl
  | sendtoAccess done msgs msg =>
      cases msgs with
      | none => rfl
      | some msgs => rfl
  | clearUserData data owner =>
      simp only [complete]
      cases data.cntl with
      | none => rfl
      | some cntl =>
          cases data.done with
          | none => rfl
          | some done => rfl

theorem step_complete_withMap (s : Service) (place : Nat) (idMap) :
    (s.withMap idMap).step (.complete place) =
      (s.step (.complete place)).map (·.withMap idMap) := by
  have held : (s.withMap idMap).held = s.held := rfl
  simp only [step, held]
  cases s.held[place]? with
  | none => rfl
  | some completion =>
      exact complete_withMap { s with held := s.held.eraseIdx place } completion idMap

theorem step_fire_withMap (s : Service) (timer : Nat) (idMap) :
    (s.withMap idMap).step (.fire timer) = (s.step (.fire timer)).map (·.withMap idMap) := by
  have timers : (s.withMap idMap).timers = s.timers := rfl
  simp only [step, timers]
  cases s.timers.advance .pending .running timer with
  | none => rfl
  | some moved => rfl

theorem step_handlerReturns_withMap (s : Service) (timer : Nat) (idMap) :
    (s.withMap idMap).step (.handlerReturns timer) =
      (s.step (.handlerReturns timer)).map (·.withMap idMap) := by
  have timers : (s.withMap idMap).timers = s.timers := rfl
  have waiting : (s.withMap idMap).inClearUserData timer = s.inClearUserData timer := rfl
  simp only [step, timers, waiting]
  cases s.timers.advance .leaving .finished timer with
  | none => rfl
  | some moved =>
      simp only [Option.bind_eq_bind, Option.bind_some]
      split
      · rfl
      · rfl

theorem flatten_of_withMap {e : Event} (ignores : ∀ idMap, (s.withMap idMap).step e =
    (s.step e).map (·.withMap idMap)) :
    (s.step e).map flatten = s.flatten.keepTable (s.flatten.rest.step e) := by
  have kept := ignores s.idMap
  have same : s.withMap s.idMap = s := rfl
  rw [same] at kept
  rw [flatten, ignores, FlatService.keepTable]
  cases stepped : s.step e with
  | none => rfl
  | some t =>
      rw [stepped] at kept
      have whole : t = t.withMap s.idMap := Option.some.inj kept
      have map : t.idMap = (t.withMap s.idMap).idMap := congrArg Service.idMap whole
      replace map : t.idMap = s.idMap := map
      simp only [Option.map_some, flatten, map]

/-- While the user of an event has a bucket, the step is the one of the flat table. -/
theorem step_flatten (s : Service) (e : Event)
    (addressed : ∀ u ∈ s.flatten.userOf e, (index kBucketNum u).isSome = true) :
    (s.step e).map flatten = s.flatten.step e := by
  have bucket {u : Int} (user : s.flatten.userOf e = some u) :
      ∃ bucket, index kBucketNum u = some bucket := Option.isSome_iff_exists.mp (addressed u user)
  cases e with
  | pullData userId timer =>
      obtain ⟨bucket, found⟩ := bucket rfl
      rw [pullData_eq, onBucket_flatten (pullEntry_ignoresMap userId timer) s found]
      rfl
  | heartBeat userId timer =>
      obtain ⟨bucket, found⟩ := bucket rfl
      rw [step, resetHeartBeatTimer_eq,
        onBucket_flatten (resetEntry_ignoresMap userId timer) s found]
      rfl
  | sendMsg userId timer =>
      obtain ⟨bucket, found⟩ := bucket rfl
      rw [step, resetHeartBeatTimer_eq,
        onBucket_flatten (resetEntry_ignoresMap userId timer) s found]
      rfl
  | sendtoAccess msg =>
      obtain ⟨bucket, found⟩ := bucket rfl
      rw [step, sendtoAccess_eq, onBucket_flatten (sendtoEntry_ignoresMap msg) s found]
      rfl
  | clearUserData timer =>
      have timers : s.flatten.rest.timers = s.timers := rfl
      simp only [step, FlatService.step, timers]
      cases moved : s.timers.advance .running .leaving timer with
      | none => rfl
      | some arg =>
          obtain ⟨bucket, found⟩ := bucket (u := arg.1.userId) (by
            simp only [FlatService.userOf, timers, moved, Option.map_some])
          simp only [Option.bind_eq_bind, Option.bind_some]
          rw [clearUserData_eq, onBucket_flatten (clearEntry_ignoresMap timer) _ found]
          rfl
  | complete place =>
      rw [flatten_of_withMap fun idMap => step_complete_withMap s place idMap]
      rfl
  | fire timer =>
      rw [flatten_of_withMap fun idMap => step_fire_withMap s timer idMap]
      rfl
  | handlerReturns timer =>
      rw [flatten_of_withMap fun idMap => step_handlerReturns_withMap s timer idMap]
      rfl

theorem step_unaddressed (user : s.flatten.userOf e = some u)
    (outside : index kBucketNum u = none) : s.step e = none := by
  cases e with
  | pullData userId timer =>
      cases user
      rw [pullData_eq, onBucket_none outside]
  | heartBeat userId timer =>
      cases user
      rw [step, resetHeartBeatTimer_eq, onBucket_none outside]
  | sendMsg userId timer =>
      cases user
      rw [step, resetHeartBeatTimer_eq, onBucket_none outside]
  | sendtoAccess msg =>
      cases user
      rw [step, sendtoAccess_eq, onBucket_none outside]
  | clearUserData timer =>
      have timers : s.flatten.rest.timers = s.timers := rfl
      simp only [FlatService.userOf, timers, Option.map_eq_some_iff] at user
      obtain ⟨arg, moved, rfl⟩ := user
      simp only [step, moved, Option.bind_eq_bind, Option.bind_some]
      rw [clearUserData_eq, onBucket_none outside]
  | complete place => cases user
  | fire timer => cases user
  | handlerReturns timer => cases user

end Service

namespace FlatService
variable {s t : FlatService}

theorem onEntry_frame (done : s.onEntry userId op = some t) (other : v ≠ userId) :
    t.table v = s.table v := by
  simp only [onEntry, Option.bind_eq_bind, Option.bind_eq_some_iff, Option.pure_def,
    Option.some.injEq] at done
  obtain ⟨result, -, rfl⟩ := done
  exact Function.update_of_ne other _ _

theorem keepTable_table {rest : Option Service} (kept : s.keepTable rest = some t) :
    t.table = s.table := by
  obtain ⟨rest, -, rfl⟩ := Option.map_eq_some_iff.mp kept
  rfl

theorem step_frame (stepped : s.step e = some t) (other : s.userOf e ≠ some v) :
    t.table v = s.table v := by
  have unlike {u : Int} (user : s.userOf e = some u) : v ≠ u := by
    rintro rfl
    exact other user
  cases e with
  | pullData userId timer => exact onEntry_frame stepped (unlike rfl)
  | heartBeat userId timer => exact onEntry_frame stepped (unlike rfl)
  | sendMsg userId timer => exact onEntry_frame stepped (unlike rfl)
  | sendtoAccess msg => exact onEntry_frame stepped (unlike rfl)
  | clearUserData timer =>
      simp only [step, Option.bind_eq_bind, Option.bind_eq_some_iff] at stepped
      obtain ⟨arg, moved, cleared⟩ := stepped
      have user : s.userOf (.clearUserData timer) = some arg.1.userId := by
        simp only [userOf, moved, Option.map_some]
      have frame := onEntry_frame cleared (unlike user)
      exact frame
  | complete place => rw [keepTable_table stepped]
  | fire timer => rw [keepTable_table stepped]
  | handlerReturns timer => rw [keepTable_table stepped]

end FlatService
end Tinyim.Access
