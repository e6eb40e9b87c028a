import Tinyim.Idgen.LevelDb
import Tinyim.Dbproxy.LastSend
import Tinyim.Logic.SendMsg

/-! The logic, idgen and dbproxy services as one transition system. Every remote
call of an attempt is a step of its own, so attempts interleave at each of them;
a save runs in dbproxy on its own, whatever becomes of the attempt that asked. -/
namespace Tinyim.Delivery
open IdGen Dbproxy Logic

/-- How far dbproxy is with the outstanding `GetUserLastSendData`. -/
inductive Lookup where
  | redis
  | mysql
  | answered (data : UserLastSendData)
  deriving DecidableEq, Repr

/-- One execution of `SendMsg`. -/
structure Attempt where
  newMsg : NewMsg
  stage : Stage := .getUserLastSendData
  lookup : Lookup := .redis
  /-- The reply that idgen fills, one requested user after the other. -/
  idReply : List MsgIds := []
  /-- The save request, once it is built. -/
  request : Option SaveRequest := none
  deriving DecidableEq, Repr

inductive SaveStatus where
  | running
  | saved
  | failed (error : RpcError)
  deriving DecidableEq, Repr

/-- One execution of `SavePrivateMsg` or `SaveGroupMsg` for an attempt. -/
structure SaveJob where
  attempt : Nat
  request : SaveRequest
  /-- The statements still to be executed. -/
  todo : List (List Row)
  status : SaveStatus := .running
  deriving DecidableEq, Repr

structure World where
  messages : List Row
  /-- The values of the keys `{user_id}u`. -/
  redis : Int → Option Text
  idgen : LevelDbIdGen
  attempts : List Attempt := []
  saves : List SaveJob := []

/-- The reply to the GET: the value of the key, a reply that is no string, or a failed call. -/
inductive RedisReply where
  | value
  | notString
  | unavailable
  deriving DecidableEq, Repr

/-- What MySQL does with an INSERT that violates no key: executes it, refuses it,
or executes it and loses the answer. -/
inductive InsertAnswer where
  | executed
  | refused
  | lost
  deriving DecidableEq, Repr

inductive Event where
  /-- A request reaches logic: a first send, a retry or a late duplicate. -/
  | start (m : NewMsg)
  | redisGet (attempt : Nat) (reply : RedisReply)
  | select (attempt : Nat) (executed : Bool)
  /-- The last-send reply reaches logic. -/
  | lookedUp (attempt : Nat)
  | groupMembers (attempt : Nat) (members : List Int)
  /-- idgen serves the next requested user. -/
  | idGenerate (attempt : Nat) (disk : Disk)
  /-- The id reply reaches logic, which reads the clock and calls the save. -/
  | idReplied (attempt : Nat) (msgTime : Int)
  /-- The save request, or another copy of it, reaches dbproxy. -/
  | saveArrives (attempt : Nat)
  | insert (save : Nat) (answer : InsertAnswer)
  | setLastSend (save : Nat) (executed reported : Bool)
  /-- The reply of a save reaches the attempt that asked. -/
  | saveReplied (attempt save : Nat)
  /-- The outstanding call of an attempt fails. -/
  | rpcFails (attempt : Nat) (error : RpcError)
  /-- An id request whose reply nobody uses. -/
  | strayIds (disk : Disk) (userId needMsgidNum : Int)
  | idgenRestarts
  | redisExpires (userId : Int)
  deriving DecidableEq, Repr

namespace Attempt

def redisGet (stored : Option Text) (reply : RedisReply) (att : Attempt) : Option Attempt :=
  match att.stage, att.lookup with
  | .getUserLastSendData, .redis =>
    match reply, stored with
    | .unavailable, _ =>
      some { att with stage := afterGetUserLastSendData att.newMsg (.error redisGetFailed) }
    | .value, some record => some { att with lookup := .answered (scanLastSend record) }
    | .value, none | .notString, _ => some { att with lookup := .mysql }
  | _, _ => none

def select (messages : List Row) (executed : Bool) (att : Attempt) : Option Attempt :=
  match att.stage, att.lookup with
  | .getUserLastSendData, .mysql =>
    if executed then
      some { att with lookup := .answered (selectLastSend messages att.newMsg.userId) }
    else some { att with stage := afterGetUserLastSendData att.newMsg (.error selectFailed) }
  | _, _ => none

def lookedUp (att : Attempt) : Option Attempt :=
  match att.stage, att.lookup with
  | .getUserLastSendData, .answered data =>
    some { att with stage := afterGetUserLastSendData att.newMsg (.ok data) }
  | _, _ => none

def groupMembers (members : List Int) (att : Attempt) : Option Attempt :=
  match att.stage with
  | .getGroupMembers => some { att with stage := afterGetGroupMembers att.newMsg (.ok members) }
  | _ => none

/-- The user that idgen serves next. -/
def nextUser (att : Attempt) : Option UserAndIdNum :=
  match att.stage with
  | .idGenerate idRequest => idRequest[att.idReply.length]?
  | _ => none

/-- `IdGenServiceImpl::IdGenerate` appends an entry or fails the call. -/
def identified (user : UserAndIdNum) (att : Attempt) : Except Text Int → Attempt
  | .ok startId =>
    { att with idReply := att.idReply ++ [⟨user.userId, startId, user.needMsgidNum⟩] }
  | .error reason => { att with stage := .finished (.failed ⟨-1, reason⟩) }

def idReplied (msgTime : Int) (att : Attempt) : Option Attempt :=
  match att.stage with
  | .idGenerate idRequest =>
    if att.idReply.length = idRequest.length then
      (saveRequest att.newMsg att.idReply msgTime).map fun request =>
        { att with stage := .save idRequest request, request := some request }
    else none
  | _ => none

def saveReplied (result : Rpc Unit) (att : Attempt) : Option Attempt :=
  match att.stage with
  | .save idRequest request =>
    some { att with stage := afterSave att.newMsg idRequest att.idReply request result }
  | _ => none

def rpcFails (error : RpcError) (att : Attempt) : Option Attempt :=
  match att.stage with
  | .getUserLastSendData =>
    some { att with stage := afterGetUserLastSendData att.newMsg (.error error) }
  | .getGroupMembers => some { att with stage := afterGetGroupMembers att.newMsg (.error error) }
  | .idGenerate _ => some { att with stage := .finished (.failed error) }
  | .save idRequest request =>
    some { att with stage := afterSave att.newMsg idRequest att.idReply request (.error error) }
  | .finished _ => none

end Attempt

namespace SaveStatus

/-- The result of the save call, once it has returned. -/
def result? : SaveStatus → Option (Rpc Unit)
  | .running => none
  | .saved => some (.ok ())
  | .failed error => some (.error error)

end SaveStatus

namespace World

def setAttempt (w : World) (a : Nat) (att : Attempt) : World :=
  { w with attempts := w.attempts.set a att }

def setSave (w : World) (j : Nat) (job : SaveJob) : World :=
  { w with saves := w.saves.set j job }

def advance (w : World) (a : Nat) (f : Attempt → Option Attempt) : Option World := do
  let att ← w.attempts[a]?
  let next ← f att
  return w.setAttempt a next

def idGenerate (n : Int) (disk : Disk) (a : Nat) (w : World) : Option World := do
  let att ← w.attempts[a]?
  let user ← att.nextUser
  let (result, idgen) ← IdGen.idGenerate n disk user.userId user.needMsgidNum w.idgen
  return { w with idgen }.setAttempt a (att.identified user result)

def saveArrives (a : Nat) (w : World) : Option World := do
  let att ← w.attempts[a]?
  match att.stage with
  | .save _ request =>
    return { w with saves := w.saves ++ [{ attempt := a, request, todo := request.statements }] }
  | _ => none

/-- The next statement of a save. An exception ends the save before the statements that follow. -/
def insert (j : Nat) (answer : InsertAnswer) (w : World) : Option World := do
  let job ← w.saves[j]?
  match job.status, job.todo with
  | .running, rows :: todo =>
    match answer, insertStatement w.messages rows with
    | .executed, some messages => return { w with messages }.setSave j { job with todo }
    | .lost, some messages =>
      return { w with messages }.setSave j { job with todo, status := .failed insertFailed }
    | .refused, _ | _, none => return w.setSave j { job with status := .failed insertFailed }
  | _, _ => none

/-- The Redis command of a save whose statements are all executed. It may be lost
on the way and it may be reported failed, in any combination. -/
def setLastSend (j : Nat) (executed reported : Bool) (w : World) : Option World := do
  let job ← w.saves[j]?
  match job.status, job.todo with
  | .running, [] =>
    let user := job.request.sender
    let redis := if executed then
        Function.update w.redis user (setUserLastSendData (w.redis user) job.request.lastSend)
      else w.redis
    let status := if reported then .saved else .failed redisSetFailed
    return { w with redis }.setSave j { job with status }
  | _, _ => none

def saveReplied (a j : Nat) (w : World) : Option World := do
  let job ← w.saves[j]?
  let result ← job.status.result?
  if job.attempt = a then w.advance a (·.saveReplied result) else none

end World

def step (n : Int) (w : World) : Event → Option World
  | .start m => some { w with attempts := w.attempts ++ [{ newMsg := m }] }
  | .redisGet a reply => w.advance a fun att => att.redisGet (w.redis att.newMsg.userId) reply
  | .select a executed => w.advance a (·.select w.messages executed)
  | .lookedUp a => w.advance a (·.lookedUp)
  | .groupMembers a members => w.advance a (·.groupMembers members)
  | .idGenerate a disk => w.idGenerate n disk a
  | .idReplied a msgTime => w.advance a (·.idReplied msgTime)
  | .saveArrives a => w.saveArrives a
  | .insert j answer => w.insert j answer
  | .setLastSend j executed reported => w.setLastSend j executed reported
  | .saveReplied a j => w.saveReplied a j
  | .rpcFails a error => w.advance a (·.rpcFails error)
  | .strayIds disk userId needMsgidNum =>
      (IdGen.idGenerate n disk userId needMsgidNum w.idgen).map fun (_, idgen) => { w with idgen }
  | .idgenRestarts => some { w with idgen := restart w.idgen }
  | .redisExpires userId => some { w with redis := Function.update w.redis userId none }

/-- No call is in progress, the table respects its key and Redis holds only what
the script has written. -/
structure Initial (w : World) : Prop where
  keys : KeyUnique w.messages
  written : ∀ userId record, w.redis userId = some record → ∃ d, record = recordText d
  attempts : w.attempts = []
  saves : w.saves = []

def World.empty : World where
  messages := []
  redis := fun _ => none
  idgen := .init fun _ => none

theorem initial_empty : Initial .empty := by
  refine ⟨List.nodup_nil, ?_, rfl, rfl⟩
  intro userId record present
  cases present

end Tinyim.Delivery
