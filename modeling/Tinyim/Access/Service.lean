import Tinyim.Sharding
import Tinyim.OneShotTimers
import Tinyim.Common.Messages

/-! `AccessServiceImpl`: the table of long polls and heartbeat timers. Each section
under a bucket's mutex is one step, and so is each completion that an operation
runs after it has unlocked. A section whose bucket lies outside the array, or a
completion through a null pointer, has no result. -/
namespace Tinyim.Access
open Sharding OneShotTimers

def kBucketNum : Nat := 16

/-- `done`, `msgs` and `cntl` are those of a PullData call, named by its number. -/
structure Data where
  done : Option Nat := none
  msgs : Option Nat := none
  cntl : Option Nat := none
  heartbeatTimeoutId : Nat := 0
  hbarg : Option Nat := none
  deriving DecidableEq, Repr

/-- The argument of a heartbeat timer, with the number of its allocation. -/
structure HeartBeatTimeoutArg where
  userId : Int
  allocation : Nat
  deriving DecidableEq, Repr

/-- What an operation still does with the pointers it took out of the table. -/
inductive Completion where
  /-- `lazy_run` of PushClosureAndReply. -/
  | lazyRun (done : Nat)
  /-- SendtoAccess, with the message it appends before it runs `client_done`. -/
  | sendtoAccess (clientDone : Nat) (msgs : Option Nat) (msg : Msg)
  /-- ClearUserData, called from the handler of a timer, with its copy of the entry. -/
  | clearUserData (originData : Data) (timer : Nat)
  deriving DecidableEq, Repr

structure Service where
  idMap : Shards kBucketNum (Option Data) := fun _ _ => none
  timers : Table HeartBeatTimeoutArg := fun _ => none
  /-- How many timer arguments were allocated, and which ones were deleted. -/
  allocated : Nat := 0
  disposed : List Nat := []
  /-- The user of each PullData call, and the contents of its Msgs. -/
  pulls : List Int := []
  replies : Nat → List Msg := fun _ => []
  held : List Completion := []
  /-- The calls whose connection was closed and whose Closure was run. -/
  closed : List Nat := []
  ran : List Nat := []

inductive Event where
  | pullData (userId : Int) (timer : Nat)
  | heartBeat (userId : Int) (timer : Nat)
  | sendMsg (userId : Int) (timer : Nat)
  | sendtoAccess (msg : Msg)
  /-- The operation at this place in `held` completes. -/
  | complete (place : Nat)
  /-- UserHeartBeatTimeoutHeadler starts and reads its argument. -/
  | fire (timer : Nat)
  /-- Its ClearUserData gets the bucket's lock. -/
  | clearUserData (timer : Nat)
  | handlerReturns (timer : Nat)
  deriving DecidableEq, Repr

namespace Service

def setData (s : Service) (bucket : Fin kBucketNum) (userId : Int) (data : Option Data) : Service :=
  { s with idMap := s.idMap.put bucket userId data }

def hold (s : Service) (completion : Completion) : Service :=
  { s with held := s.held ++ [completion] }

/-- `bthread_timer_add` with a new HeartBeatTimeoutArg. -/
def timerAdd (userId : Int) (timer : Nat) (s : Service) : Option Service := do
  let timers ← s.timers.add timer { userId := userId, allocation := s.allocated }
  return { s with timers := timers, allocated := s.allocated + 1 }

/-- `bthread_timer_del` on the timer of an entry. Where it succeeds, `lazy_delete`
takes `hbarg`; a null one deletes nothing. -/
def timerDel (data : Data) (s : Service) : Bool × Service :=
  if data.heartbeatTimeoutId ≠ 0 then
    match s.timers.del data.heartbeatTimeoutId with
    | (true, timers) =>
      (true, { s with timers := timers, disposed := s.disposed ++ data.hbarg.toList })
    | (false, _) => (false, s)
  else (false, s)

def resetHeartBeatTimer (userId : Int) (timer : Nat) (s : Service) : Option Service := do
  let bucket ← index kBucketNum userId
  let hbarg := s.allocated
  match s.idMap bucket userId with
  | some data =>
    let s ← timerAdd userId timer (s.timerDel data).2
    return s.setData bucket userId
      (some { data with heartbeatTimeoutId := timer, hbarg := some hbarg })
  | none =>
    let s ← timerAdd userId timer s
    return s.setData bucket userId (some { heartbeatTimeoutId := timer, hbarg := some hbarg })

/-- `timer` is the one whose handler made the call. -/
def clearUserData (userId : Int) (timer : Nat) (s : Service) : Option Service := do
  let bucket ← index kBucketNum userId
  match s.idMap bucket userId with
  | some originData =>
    let s := (s.timerDel originData).2.setData bucket userId none
    if originData.msgs.isSome then return s.hold (.clearUserData originData timer)
    else return s
  | none => return s

/-- `lazy_run.reset(data.done)`, when there is one to replace. -/
def resetLazyRun (data : Data) (s : Service) : Service :=
  match data.done with
  | some replaced => s.hold (.lazyRun replaced)
  | none => s

/-- Lines 288 to 305, on an entry that exists: the entry as it is then. -/
def replaceClosure (done : Nat) (data : Data) (s : Service) : Data × Service :=
  let s := s.resetLazyRun data
  let data := { data with done := some done, msgs := some done, cntl := some done }
  match s.timerDel data with
  | (true, s) => ({ data with heartbeatTimeoutId := 0, hbarg := none }, s)
  | (false, s) => (data, s)

def pushClosureAndReply (userId : Int) (done timer : Nat) (s : Service) : Option Service := do
  let bucket ← index kBucketNum userId
  let (data, s) := match s.idMap bucket userId with
    | none => (Data.mk (some done) (some done) (some done) 0 none, s)
    | some data => s.replaceClosure done data
  let s ← timerAdd userId timer s
  -- The new argument is not stored in hbarg.
  return s.setData bucket userId (some { data with heartbeatTimeoutId := timer })

/-- The three pointers taken out, null when the user has no entry. -/
def popClosureAndReply (userId : Int) (s : Service) :
    Option ((Option Nat × Option Nat × Option Nat) × Service) := do
  let bucket ← index kBucketNum userId
  match s.idMap bucket userId with
  | some data =>
    return ((data.done, data.msgs, data.cntl),
      s.setData bucket userId (some { data with done := none, msgs := none, cntl := none }))
  | none => return ((none, none, none), s)

def sendtoAccess (msg : Msg) (s : Service) : Option Service := do
  let ((clientDone, msgs, _), s) ← s.popClosureAndReply msg.userId
  match clientDone with
  | some done => return s.hold (.sendtoAccess done msgs msg)
  | none => return s

/-- `done->Run()`. -/
def runClosure (s : Service) (done : Nat) : Service := { s with ran := s.ran ++ [done] }

def complete (s : Service) : Completion → Option Service
  | .lazyRun done => some (s.runClosure done)
  | .sendtoAccess done msgs msg => do
    let msgs ← msgs
    return runClosure
      { s with replies := Function.update s.replies msgs (s.replies msgs ++ [msg]) } done
  | .clearUserData originData _ => do
    let cntl ← originData.cntl
    let done ← originData.done
    return runClosure { s with closed := s.closed ++ [cntl] } done


/-- The handler of a timer stays in ClearUserData until it has run what it took. -/
def inClearUserData (s : Service) (timer : Nat) : Bool :=
  s.held.any fun
    | .clearUserData _ owner => owner = timer
    | _ => false

def step (s : Service) : Event → Option Service
  | .pullData userId timer => do
    let s ← s.pushClosureAndReply userId s.pulls.length timer
    return { s with pulls := s.pulls ++ [userId] }
  | .heartBeat userId timer => s.resetHeartBeatTimer userId timer
  | .sendMsg userId timer => s.resetHeartBeatTimer userId timer
  | .sendtoAccess msg => s.sendtoAccess msg
  | .complete place => do
    let completion ← s.held[place]?
    complete { s with held := s.held.eraseIdx place } completion
  | .fire timer => do
    let (_, timers) ← s.timers.advance .pending .running timer
    return { s with timers := timers }
  | .clearUserData timer => do
    let (arg, timers) ← s.timers.advance .running .leaving timer
    clearUserData arg.userId timer { s with timers := timers }
  | .handlerReturns timer => do
    let (arg, timers) ← s.timers.advance .leaving .finished timer
    if s.inClearUserData timer then none
    else return { s with timers := timers, disposed := s.disposed ++ [arg.allocation] }

/-- The entry of a user, whatever bucket it is in. -/
def entry (s : Service) (userId : Int) : Option Data := s.idMap.view none userId

end Service
end Tinyim.Access
