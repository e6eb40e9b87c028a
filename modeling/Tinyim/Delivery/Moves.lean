import Tinyim.Transition
import Tinyim.Delivery.World

/-! What one step can do, said once. Invariants are derived from these cases and
never unfold the step function. -/
namespace Tinyim.Delivery
open IdGen Dbproxy Logic Transition

/-- The steps that change one attempt only. -/
inductive Advances (w : World) (a : Nat) (att : Attempt) : Event → Attempt → Prop where
  | redisHit (stage : att.stage = .getUserLastSendData) (lookup : att.lookup = .redis)
      (present : w.redis att.newMsg.userId = some record) :
      Advances w a att (.redisGet a .value) { att with lookup := .answered (scanLastSend record) }
  | redisMiss (stage : att.stage = .getUserLastSendData) (lookup : att.lookup = .redis)
      (miss : reply = .value ∧ w.redis att.newMsg.userId = none ∨ reply = .notString) :
      Advances w a att (.redisGet a reply) { att with lookup := .mysql }
  | selected (stage : att.stage = .getUserLastSendData) (lookup : att.lookup = .mysql) :
      Advances w a att (.select a true)
        { att with lookup := .answered (selectLastSend w.messages att.newMsg.userId) }
  | lookedUp (stage : att.stage = .getUserLastSendData) (lookup : att.lookup = .answered data) :
      Advances w a att (.lookedUp a)
        { att with stage := afterGetUserLastSendData att.newMsg (.ok data) }
  | groupMembers (stage : att.stage = .getGroupMembers) :
      Advances w a att (.groupMembers a members)
        { att with stage := afterGetGroupMembers att.newMsg (.ok members) }
  | idReplied (stage : att.stage = .idGenerate idRequest)
      (complete : att.idReply.length = idRequest.length)
      (built : saveRequest att.newMsg att.idReply msgTime = some request) :
      Advances w a att (.idReplied a msgTime)
        { att with stage := .save idRequest request, request := some request }
  | saveReplied (stage : att.stage = .save idRequest request) (found : w.saves[j]? = some job)
      (asked : job.attempt = a) (returned : job.status.result? = some result) :
      Advances w a att (.saveReplied a j)
        { att with stage := afterSave att.newMsg idRequest att.idReply request result }
  | failed
      (fault : e = .redisGet a .unavailable ∨ e = .select a false ∨ ∃ error, e = .rpcFails a error)
      (open_ : ∀ outcome, att.stage ≠ .finished outcome) :
      Advances w a att e { att with stage := .finished (.failed error) }

inductive Moves (n : Int) (w : World) : Event → World → Prop where
  | started : Moves n w (.start m) { w with attempts := w.attempts ++ [{ newMsg := m }] }
  | advanced {a : Nat} (found : w.attempts[a]? = some att) (adv : Advances w a att e next) :
      Moves n w e (w.setAttempt a next)
  | identified {a : Nat} {att : Attempt} {requested : UserAndIdNum}
      (found : w.attempts[a]? = some att) (user : att.nextUser = some requested)
      (served : IdGen.idGenerate n disk requested.userId requested.needMsgidNum w.idgen =
        some (.ok startId, idgen)) :
      Moves n w (.idGenerate a disk) ({ w with idgen }.setAttempt a { att with
        idReply := att.idReply ++ [MsgIds.mk requested.userId startId requested.needMsgidNum] })
  | idRefused {a : Nat} {att : Attempt} {requested : UserAndIdNum}
      (found : w.attempts[a]? = some att) (user : att.nextUser = some requested)
      (served : IdGen.idGenerate n disk requested.userId requested.needMsgidNum w.idgen =
        some (.error reason, idgen)) :
      Moves n w (.idGenerate a disk) ({ w with idgen }.setAttempt a { att with
        stage := .finished (.failed ⟨-1, reason⟩) })
  | saveArrived {a : Nat} {att : Attempt} (found : w.attempts[a]? = some att)
      (stage : att.stage = .save idRequest request) :
      Moves n w (.saveArrives a) { w with
        saves := w.saves ++ [{ attempt := a, request, todo := request.statements }] }
  | inserted (found : w.saves[j]? = some job) (running : job.status = .running)
      (next : job.todo = rows :: todo)
      (stored : insertStatement w.messages rows = some messages)
      (after : answer = .executed ∧ status = .running ∨
        answer = .lost ∧ status = .failed insertFailed) :
      Moves n w (.insert j answer) ({ w with messages }.setSave j { job with todo, status })
  | insertRefused (found : w.saves[j]? = some job) (running : job.status = .running)
      (next : job.todo = rows :: todo)
      (cause : answer = .refused ∨ insertStatement w.messages rows = none) :
      Moves n w (.insert j answer) (w.setSave j { job with status := .failed insertFailed })
  | lastSendSet (found : w.saves[j]? = some job) (running : job.status = .running)
      (complete : job.todo = []) :
      Moves n w (.setLastSend j executed reported) ({ w with
        redis := if executed then Function.update w.redis job.request.sender
            (setUserLastSendData (w.redis job.request.sender) job.request.lastSend)
          else w.redis }.setSave j
        { job with status := if reported then .saved else .failed redisSetFailed })
  | strayed (served : IdGen.idGenerate n disk userId need w.idgen = some (result, idgen)) :
      Moves n w (.strayIds disk userId need) { w with idgen }
  | idgenRestarted : Moves n w .idgenRestarts { w with idgen := restart w.idgen }
  | redisExpired : Moves n w (.redisExpires userId)
      { w with redis := Function.update w.redis userId none }

theorem advance_eq_some {w : World} (moved : w.advance a f = some w') :
    ∃ att next, w.attempts[a]? = some att ∧ f att = some next ∧ w' = w.setAttempt a next := by
  simp only [World.advance, Option.bind_eq_bind, Option.bind_eq_some_iff, Option.pure_def,
    Option.some.injEq] at moved
  obtain ⟨att, found, next, stepped, rfl⟩ := moved
  exact ⟨att, next, found, stepped, rfl⟩

theorem advance_of {w : World} (found : w.attempts[a]? = some att) (stepped : f att = some next) :
    w.advance a f = some (w.setAttempt a next) := by
  simp only [World.advance, found, stepped, Option.bind_eq_bind, Option.bind_some, Option.pure_def]

theorem redisGet_advances (found : att.redisGet (w.redis att.newMsg.userId) reply = some next) :
    Advances w a att (.redisGet a reply) next := by
  simp only [Attempt.redisGet] at found
  split at found
  · rename_i stage lookup
    split at found
    · cases found
      exact .failed (.inl rfl) (by simp [stage])
    · rename_i record present
      cases found
      exact .redisHit stage lookup present
    · rename_i absent
      cases found
      exact .redisMiss stage lookup (.inl ⟨rfl, absent⟩)
    · cases found
      exact .redisMiss stage lookup (.inr rfl)
  · contradiction

theorem select_advances (found : att.select w.messages executed = some next) :
    Advances w a att (.select a executed) next := by
  simp only [Attempt.select] at found
  split at found
  · rename_i stage lookup
    cases executed with
    | true => cases found; exact .selected stage lookup
    | false => cases found; exact .failed (.inr (.inl rfl)) (by simp [stage])
  · contradiction

theorem lookedUp_advances (found : att.lookedUp = some next) :
    Advances w a att (.lookedUp a) next := by
  simp only [Attempt.lookedUp] at found
  split at found
  · rename_i data stage lookup
    cases found
    exact .lookedUp stage lookup
  · contradiction

theorem groupMembers_advances (found : att.groupMembers members = some next) :
    Advances w a att (.groupMembers a members) next := by
  simp only [Attempt.groupMembers] at found
  split at found
  · rename_i stage
    cases found
    exact .groupMembers stage
  · contradiction

theorem idReplied_advances (found : att.idReplied msgTime = some next) :
    Advances w a att (.idReplied a msgTime) next := by
  simp only [Attempt.idReplied] at found
  split at found
  · rename_i idRequest stage
    split at found
    · rename_i complete
      obtain ⟨request, built, rfl⟩ := Option.map_eq_some_iff.mp found
      exact .idReplied stage complete built
    · contradiction
  · contradiction

theorem rpcFails_advances (found : att.rpcFails error = some next) :
    Advances w a att (.rpcFails a error) next := by
  have fault : Event.rpcFails a error = .redisGet a .unavailable ∨
      Event.rpcFails a error = .select a false ∨ ∃ e, Event.rpcFails a error = .rpcFails a e :=
    .inr (.inr ⟨error, rfl⟩)
  simp only [Attempt.rpcFails] at found
  split at found
  · rename_i stage
    cases found
    exact .failed fault (by simp [stage])
  · rename_i stage
    cases found
    exact .failed fault (by simp [stage])
  · rename_i stage
    cases found
    exact .failed fault (by simp [stage])
  · rename_i idRequest request stage
    cases found
    cases request with
    | privateMsg m => exact .failed fault (by simp [stage])
    | groupMsg m => exact .failed fault (by simp [stage])
  · contradiction

theorem saveReplied_moves (found : w.saveReplied a j = some w') :
    Moves n w (.saveReplied a j) w' := by
  simp only [World.saveReplied, Option.bind_eq_bind, Option.bind_eq_some_iff,
    Option.ite_none_right_eq_some] at found
  obtain ⟨job, present, result, returned, asked, moved⟩ := found
  obtain ⟨att, next, owner, stepped, rfl⟩ := advance_eq_some moved
  simp only [Attempt.saveReplied] at stepped
  split at stepped
  · rename_i idRequest request stage
    cases stepped
    exact .advanced owner (.saveReplied stage present asked returned)
  · contradiction

theorem idGenerate_moves (found : w.idGenerate n disk a = some w') :
    Moves n w (.idGenerate a disk) w' := by
  simp only [World.idGenerate, Option.bind_eq_bind, Option.bind_eq_some_iff, Option.pure_def,
    Option.some.injEq] at found
  obtain ⟨att, owner, requested, user, ⟨result, idgen⟩, served, rfl⟩ := found
  cases result with
  | ok startId => exact .identified owner user served
  | error reason => exact .idRefused owner user served

theorem saveArrives_moves (found : w.saveArrives a = some w') :
    Moves n w (.saveArrives a) w' := by
  simp only [World.saveArrives, Option.bind_eq_bind, Option.bind_eq_some_iff] at found
  obtain ⟨att, owner, found⟩ := found
  split at found
  · rename_i idRequest request stage
    cases found
    exact .saveArrived owner stage
  · contradiction

theorem insert_moves (found : w.insert j answer = some w') : Moves n w (.insert j answer) w' := by
  simp only [World.insert, Option.bind_eq_bind, Option.bind_eq_some_iff] at found
  obtain ⟨job, present, found⟩ := found
  split at found
  · rename_i rows todo running next
    split at found
    · rename_i messages stored
      cases found
      exact .inserted present running next stored (.inl ⟨rfl, running⟩)
    · rename_i messages stored
      cases found
      exact .inserted present running next stored (.inr ⟨rfl, rfl⟩)
    · cases found
      exact .insertRefused present running next (.inl rfl)
    · rename_i conflict
      cases found
      exact .insertRefused present running next (.inr conflict)
  · contradiction

theorem setLastSend_moves (found : w.setLastSend j executed reported = some w') :
    Moves n w (.setLastSend j executed reported) w' := by
  simp only [World.setLastSend, Option.bind_eq_bind, Option.bind_eq_some_iff] at found
  obtain ⟨job, present, found⟩ := found
  split at found
  · rename_i running complete
    cases found
    exact .lastSendSet present running complete
  · contradiction

theorem moves_of_step (stepped : step n w e = some w') : Moves n w e w' := by
  cases e with
  | start m => cases stepped; exact .started
  | redisGet a reply =>
      obtain ⟨att, next, found, moved, rfl⟩ := advance_eq_some stepped
      exact .advanced found (redisGet_advances moved)
  | select a executed =>
      obtain ⟨att, next, found, moved, rfl⟩ := advance_eq_some stepped
      exact .advanced found (select_advances moved)
  | lookedUp a =>
      obtain ⟨att, next, found, moved, rfl⟩ := advance_eq_some stepped
      exact .advanced found (lookedUp_advances moved)
  | groupMembers a members =>
      obtain ⟨att, next, found, moved, rfl⟩ := advance_eq_some stepped
      exact .advanced found (groupMembers_advances moved)
  | idGenerate a disk => exact idGenerate_moves stepped
  | idReplied a msgTime =>
      obtain ⟨att, next, found, moved, rfl⟩ := advance_eq_some stepped
      exact .advanced found (idReplied_advances moved)
  | saveArrives a => exact saveArrives_moves stepped
  | insert j answer => exact insert_moves stepped
  | setLastSend j executed reported => exact setLastSend_moves stepped
  | saveReplied a j => exact saveReplied_moves stepped
  | rpcFails a error =>
      obtain ⟨att, next, found, moved, rfl⟩ := advance_eq_some stepped
      exact .advanced found (rpcFails_advances moved)
  | strayIds disk userId need =>
      obtain ⟨⟨result, idgen⟩, served, rfl⟩ := Option.map_eq_some_iff.mp stepped
      exact .strayed served
  | idgenRestarts => cases stepped; exact .idgenRestarted
  | redisExpires userId => cases stepped; exact .redisExpired

end Tinyim.Delivery
