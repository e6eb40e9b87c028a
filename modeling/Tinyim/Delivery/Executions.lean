import Tinyim.Delivery.Moves
import Tinyim.Logic.Stepwise

/-! Every attempt beside all the others is one execution of `SendMsg`, with the answers that
the services give to its calls. -/
namespace Tinyim.Delivery
open IdGen Dbproxy Logic Transition

/-- The attempt whose outstanding call may end in the step. -/
def Event.caller? : Event → Option Nat
  | .redisGet a _ | .select a _ | .lookedUp a | .groupMembers a _ | .idGenerate a _
  | .idReplied a _ | .saveReplied a _ | .rpcFails a _ => some a
  | .start _ | .saveArrives _ | .insert _ _ | .setLastSend _ _ _ | .strayIds _ _ _
  | .idgenRestarts | .redisExpires _ => none

namespace Attempt

def failedCall (error : RpcError) (att : Attempt) : Option Answer :=
  match att.stage with
  | .getUserLastSendData => some (.lookup (.error error))
  | .getGroupMembers => some (.members (.error error))
  | .idGenerate _ => some (.idsFailed error)
  | .save _ _ => some (.saved (.error error))
  | .finished _ => none

/-- What ends the outstanding call of the attempt; `none` if it stays open. -/
def answer? (n : Int) (w : World) (att : Attempt) : Event → Option Answer
  | .redisGet _ .unavailable => some (.lookup (.error redisGetFailed))
  | .select _ false => some (.lookup (.error selectFailed))
  | .lookedUp _ =>
    match att.lookup with
    | .answered data => some (.lookup (.ok data))
    | .redis | .mysql => none
  | .groupMembers _ members => some (.members (.ok members))
  | .idGenerate _ disk => do
    let user ← att.nextUser
    match ← IdGen.idGenerate n disk user.userId user.needMsgidNum w.idgen with
    | (.error reason, _) => some (.idsFailed ⟨-1, reason⟩)
    | (.ok _, _) => none
  | .idReplied _ msgTime => some (.ids att.idReply msgTime)
  | .saveReplied _ j => do
    let job ← w.saves[j]?
    let result ← job.status.result?
    return .saved result
  | .rpcFails _ error => att.failedCall error
  | _ => none

end Attempt

def answer? (n : Int) (a : Nat) (w : World) (e : Event) : Option Answer :=
  if e.caller? = some a then w.attempts[a]?.bind (·.answer? n w e) else none

def answers (n : Int) (a : Nat) (w : World) : List Event → List Answer
  | [] => []
  | e :: es => (answer? n a w e).toList ++ ((step n w e).map (answers n a · es)).getD []

/-- The attempt stands where its answers have led it. -/
structure Follows (att : Attempt) (given : List Answer) : Prop where
  reached : Reaches att.newMsg given att.stage
  ids : ∀ idRequest request, att.stage = .save idRequest request →
    ∃ msgTime, .ids att.idReply msgTime ∈ given

variable {n : Int} {w w' : World} {att next : Attempt} {given : List Answer} {a b : Nat}

namespace Follows

theorem begun (m : NewMsg) : Follows { newMsg := m } [] := ⟨.begun, nofun⟩

theorem waiting (follows : Follows att given) (newMsg : next.newMsg = att.newMsg)
    (stage : next.stage = att.stage)
    (idReply : next.idReply = att.idReply ∨ ∃ idRequest, att.stage = .idGenerate idRequest) :
    Follows next (given ++ []) where
  reached := by
    rw [List.append_nil, newMsg, stage]
    exact follows.reached
  ids idRequest request saving := by
    rw [List.append_nil]
    rw [stage] at saving
    obtain same | ⟨_, generating⟩ := idReply
    · rw [same]
      exact follows.ids idRequest request saving
    · cases saving.symm.trans generating

theorem finished {stage : Stage} (reached : Reaches att.newMsg given stage)
    (final : ∀ idRequest request, stage ≠ .save idRequest request) :
    Follows { att with stage } given :=
  ⟨reached, fun idRequest request saving => absurd saving (final idRequest request)⟩

theorem lookup (follows : Follows att given) (stage : att.stage = .getUserLastSendData)
    (result : Rpc UserLastSendData) :
    Follows { att with stage := afterGetUserLastSendData att.newMsg result }
      (given ++ [.lookup result]) := by
  have empty : given = [] := by
    have before := follows.reached.place_lt
    rw [stage] at before
    exact List.eq_nil_iff_forall_not_mem.mpr fun answer member =>
      absurd (before answer member) (Nat.not_lt_zero _)
  subst empty
  refine finished (.lookedUp result) fun idRequest request saving => ?_
  cases result with
  | error error => cases saving
  | ok data =>
      obtain ⟨-, after⟩ | ⟨-, ⟨-, after⟩ | ⟨-, after⟩⟩ :=
        afterGetUserLastSendData_cases att.newMsg data
      · cases after.symm.trans saving
      · cases after.symm.trans saving
      · cases after.symm.trans saving

theorem members (follows : Follows att given) (stage : att.stage = .getGroupMembers)
    (result : Rpc (List Int)) :
    Follows { att with stage := afterGetGroupMembers att.newMsg result }
      (given ++ [.members result]) := by
  have reached := follows.reached
  rw [stage] at reached
  refine finished (.listed reached result) fun idRequest request saving => ?_
  cases result with
  | error | ok => cases saving

theorem idsFailed (follows : Follows att given) (stage : att.stage = .idGenerate idRequest)
    (error : RpcError) :
    Follows { att with stage := .finished (.failed error) } (given ++ [.idsFailed error]) := by
  have reached := follows.reached
  rw [stage] at reached
  exact finished (.idsFailed reached error) (by simp)

theorem saved (follows : Follows att given) (stage : att.stage = .save idRequest request)
    (result : Rpc Unit) :
    Follows { att with stage := afterSave att.newMsg idRequest att.idReply request result }
      (given ++ [.saved result]) := by
  have reached := follows.reached
  rw [stage] at reached
  obtain ⟨msgTime, used⟩ := follows.ids idRequest request stage
  obtain ⟨outcome, after, -⟩ :=
    afterSave_finishes att.newMsg idRequest att.idReply request result
  refine finished (.saved reached used result) fun _ _ saving => ?_
  cases after.symm.trans saving

end Follows

/-! Each step of an attempt, with the answer in it. -/

theorem follows_redisGet (follows : Follows att given)
    (moved : att.redisGet record reply = some next) :
    Follows next (given ++ (att.answer? n w (.redisGet b reply)).toList) := by
  simp only [Attempt.redisGet] at moved
  split at moved
  · rename_i stage lookup
    split at moved <;> cases moved
    · exact follows.lookup stage _
    · exact follows.waiting rfl rfl (.inl rfl)
    · exact follows.waiting rfl rfl (.inl rfl)
    · exact follows.waiting rfl rfl (.inl rfl)
  · contradiction

theorem follows_select (follows : Follows att given)
    (moved : att.select messages executed = some next) :
    Follows next (given ++ (att.answer? n w (.select b executed)).toList) := by
  simp only [Attempt.select] at moved
  split at moved
  · rename_i stage lookup
    cases executed with
    | true =>
        cases moved
        exact follows.waiting rfl rfl (.inl rfl)
    | false =>
        cases moved
        exact follows.lookup stage _
  · contradiction

theorem follows_lookedUp (follows : Follows att given) (moved : att.lookedUp = some next) :
    Follows next (given ++ (att.answer? n w (.lookedUp b)).toList) := by
  simp only [Attempt.lookedUp] at moved
  split at moved
  · rename_i data stage lookup
    cases moved
    have answered : att.answer? n w (.lookedUp b) = some (.lookup (.ok data)) := by
      simp only [Attempt.answer?, lookup]
    rw [answered]
    exact follows.lookup stage (.ok data)
  · contradiction

theorem follows_groupMembers (follows : Follows att given)
    (moved : att.groupMembers members = some next) :
    Follows next (given ++ (att.answer? n w (.groupMembers b members)).toList) := by
  simp only [Attempt.groupMembers] at moved
  split at moved
  · rename_i stage
    cases moved
    exact follows.members stage (.ok members)
  · contradiction

theorem follows_idReplied (follows : Follows att given)
    (moved : att.idReplied msgTime = some next) :
    Follows next (given ++ (att.answer? n w (.idReplied b msgTime)).toList) := by
  simp only [Attempt.idReplied] at moved
  split at moved
  · rename_i idRequest stage
    obtain ⟨-, moved⟩ := Option.ite_none_right_eq_some.mp moved
    obtain ⟨request, built, rfl⟩ := Option.map_eq_some_iff.mp moved
    have reached := follows.reached
    rw [stage] at reached
    exact ⟨.identified reached built, fun _ _ _ => ⟨msgTime, List.mem_concat_self⟩⟩
  · contradiction

theorem follows_rpcFails (follows : Follows att given)
    (moved : att.rpcFails error = some next) :
    Follows next (given ++ (att.answer? n w (.rpcFails b error)).toList) := by
  simp only [Attempt.answer?, Attempt.failedCall]
  simp only [Attempt.rpcFails] at moved
  cases stage : att.stage with
  | getUserLastSendData =>
      rw [stage] at moved
      cases moved
      exact follows.lookup stage (.error error)
  | getGroupMembers =>
      rw [stage] at moved
      cases moved
      exact follows.members stage (.error error)
  | idGenerate idRequest =>
      rw [stage] at moved
      cases moved
      exact follows.idsFailed stage error
  | save idRequest request =>
      rw [stage] at moved
      cases moved
      exact follows.saved stage (.error error)
  | finished outcome =>
      rw [stage] at moved
      contradiction

theorem follows_identified (follows : Follows att given) (asks : att.nextUser = some user)
    (served : IdGen.idGenerate n disk user.userId user.needMsgidNum w.idgen =
      some (result, idgen)) :
    Follows (att.identified user result)
      (given ++ (att.answer? n w (.idGenerate b disk)).toList) := by
  obtain ⟨idRequest, stage⟩ : ∃ idRequest, att.stage = .idGenerate idRequest := by
    simp only [Attempt.nextUser] at asks
    split at asks
    · exact ⟨_, ‹_›⟩
    · contradiction
  simp only [Attempt.answer?, asks, served, Option.bind_eq_bind, Option.bind_some]
  cases result with
  | ok startId => exact follows.waiting rfl rfl (.inr ⟨idRequest, stage⟩)
  | error reason => exact follows.idsFailed stage _

theorem follows_saveReplied (follows : Follows att given) (found : w.saves[j]? = some job)
    (returned : job.status.result? = some result) (moved : att.saveReplied result = some next) :
    Follows next (given ++ (att.answer? n w (.saveReplied b j)).toList) := by
  simp only [Attempt.saveReplied] at moved
  split at moved
  · rename_i idRequest request stage
    cases moved
    simp only [Attempt.answer?, found, returned, Option.bind_eq_bind, Option.bind_some,
      Option.pure_def]
    exact follows.saved stage result
  · contradiction

theorem attempts_kept (quiet : e.caller? = none) (other : ∀ m, e ≠ .start m)
    (moved : Moves n w e w') : w'.attempts = w.attempts := by
  cases moved with
  | started => exact absurd rfl (other _)
  | advanced found adv =>
      cases adv with
      | failed fault =>
          obtain rfl | rfl | ⟨error, rfl⟩ := fault
          · cases quiet
          · cases quiet
          · cases quiet
      | redisHit | redisMiss | selected | lookedUp | groupMembers | idReplied | saveReplied =>
          cases quiet
  | identified | idRefused => cases quiet
  | saveArrived | inserted | insertRefused | lastSendSet | strayed | idgenRestarted
  | redisExpired => rfl

structure Traced (w : World) (a : Nat) (given : List Answer) : Prop where
  begun : ∀ att, w.attempts[a]? = some att → Follows att given
  before : w.attempts[a]? = none → given = []

namespace Traced

theorem initial (attempts : w.attempts = []) (a : Nat) : Traced w a [] where
  begun att found := by simp [attempts] at found
  before _ := rfl

theorem advance {e : Event} (traced : Traced w a given) (caller : e.caller? = some b)
    (found : w.attempts[b]? = some att) (attempts : w'.attempts = w.attempts.set b next)
    (follows : ∀ given, Follows att given → Follows next (given ++ (att.answer? n w e).toList)) :
    Traced w' a (given ++ (answer? n a w e).toList) := by
  by_cases own : b = a
  · subst own
    have answered : answer? n b w e = att.answer? n w e := by
      rw [answer?, if_pos caller, found, Option.bind_some]
    have inside := (List.getElem?_eq_some_iff.mp found).1
    rw [answered]
    refine ⟨fun later present => ?_, fun absent => ?_⟩
    · rw [attempts, List.getElem?_set_self inside] at present
      cases present
      exact follows given (traced.begun att found)
    · rw [attempts, List.getElem?_set_self inside] at absent
      contradiction
  · have silent : answer? n a w e = none := by
      refine if_neg fun same => own ?_
      exact Option.some.inj (caller.symm.trans same)
    rw [silent, Option.toList_none, List.append_nil]
    have kept : w'.attempts[a]? = w.attempts[a]? := by
      rw [attempts, List.getElem?_set_ne own]
    exact ⟨fun later present => traced.begun later (kept ▸ present),
      fun absent => traced.before (kept ▸ absent)⟩

theorem frame {e : Event} (traced : Traced w a given) (caller : e.caller? = none)
    (attempts : w'.attempts = w.attempts) :
    Traced w' a (given ++ (answer? n a w e).toList) := by
  have silent : answer? n a w e = none := if_neg fun same => by simp [caller] at same
  rw [silent, Option.toList_none, List.append_nil]
  exact ⟨fun att found => traced.begun att (attempts ▸ found),
    fun absent => traced.before (attempts ▸ absent)⟩

theorem start (traced : Traced w a given) (m : NewMsg) :
    Traced { w with attempts := w.attempts ++ [{ newMsg := m }] } a
      (given ++ (answer? n a w (.start m)).toList) := by
  have silent : answer? n a w (.start m) = none := if_neg nofun
  rw [silent, Option.toList_none, List.append_nil]
  obtain inside | outside := lt_or_ge a w.attempts.length
  · refine ⟨fun att found => traced.begun att ?_, fun absent => traced.before ?_⟩
    · rwa [List.getElem?_append_left inside] at found
    · rwa [List.getElem?_append_left inside] at absent
  · have unbegun := traced.before (List.getElem?_eq_none outside)
    refine ⟨fun att found => ?_, fun _ => unbegun⟩
    rw [List.getElem?_append_right outside] at found
    rw [unbegun, List.mem_singleton.mp (List.mem_of_getElem? found)]
    exact .begun m

theorem step (traced : Traced w a given) (stepped : Delivery.step n w e = some w') :
    Traced w' a (given ++ (answer? n a w e).toList) := by
  cases e with
  | start m =>
      cases stepped
      exact traced.start m
  | redisGet b reply =>
      obtain ⟨att, next, found, moved, rfl⟩ := advance_eq_some stepped
      exact traced.advance rfl found rfl fun _ follows => follows_redisGet follows moved
  | select b executed =>
      obtain ⟨att, next, found, moved, rfl⟩ := advance_eq_some stepped
      exact traced.advance rfl found rfl fun _ follows => follows_select follows moved
  | lookedUp b =>
      obtain ⟨att, next, found, moved, rfl⟩ := advance_eq_some stepped
      exact traced.advance rfl found rfl fun _ follows => follows_lookedUp follows moved
  | groupMembers b members =>
      obtain ⟨att, next, found, moved, rfl⟩ := advance_eq_some stepped
      exact traced.advance rfl found rfl fun _ follows => follows_groupMembers follows moved
  | idReplied b msgTime =>
      obtain ⟨att, next, found, moved, rfl⟩ := advance_eq_some stepped
      exact traced.advance rfl found rfl fun _ follows => follows_idReplied follows moved
  | rpcFails b error =>
      obtain ⟨att, next, found, moved, rfl⟩ := advance_eq_some stepped
      exact traced.advance rfl found rfl fun _ follows => follows_rpcFails follows moved
  | idGenerate b disk =>
      simp only [Delivery.step, World.idGenerate, Option.bind_eq_bind, Option.bind_eq_some_iff,
        Option.pure_def, Option.some.injEq] at stepped
      obtain ⟨att, found, user, asks, ⟨result, idgen⟩, served, rfl⟩ := stepped
      exact traced.advance rfl found rfl fun _ follows => follows_identified follows asks served
  | saveReplied b j =>
      simp only [Delivery.step, World.saveReplied, Option.bind_eq_bind,
        Option.bind_eq_some_iff] at stepped
      obtain ⟨job, present, result, returned, stepped⟩ := stepped
      obtain ⟨-, stepped⟩ := Option.ite_none_right_eq_some.mp stepped
      obtain ⟨att, next, found, moved, rfl⟩ := advance_eq_some stepped
      exact traced.advance rfl found rfl fun _ follows =>
        follows_saveReplied follows present returned moved
  | saveArrives | insert | setLastSend | strayIds | idgenRestarts | redisExpires =>
      exact traced.frame rfl
        (attempts_kept rfl (by rintro m ⟨⟩) (moves_of_step stepped))

end Traced

theorem traced_run (run : Run (step n) allowed w es w') (traced : Traced w a given) :
    Traced w' a (given ++ answers n a w es) := by
  induction run generalizing given with
  | refl w =>
      rw [answers, List.append_nil]
      exact traced
  | @next w e middle es w' _ stepped _ ih =>
      have rest := ih (traced.step stepped)
      rw [answers, stepped, ← List.append_assoc]
      exact rest

/-- Every attempt that has ended is one execution of `SendMsg`, whatever runs beside it: with
the answers that it got in the run, the calls, their order, their failures and the outcome are
those of the execution. -/
theorem attempts_execute_sendMsg (begins : w.attempts = [])
    (run : Run (step n) (fun _ _ => True) w es w') (found : w'.attempts[a]? = some att)
    (finished : att.stage = .finished outcome) :
    (∃ rpcs : Rpcs, ∀ answer ∈ answers n a w es, answer.GivenBy rpcs) ∧
    ∀ rpcs : Rpcs, (∀ answer ∈ answers n a w es, answer.GivenBy rpcs) →
      sendMsg att.newMsg rpcs =
        some ⟨(answers n a w es).map (·.call att.newMsg), outcome⟩ := by
  have reached := ((traced_run run (.initial begins a)).begun att found).reached
  rw [List.nil_append, finished] at reached
  exact reached.executes

/-- Beside another call, the second row of a group message is refused: its `SendMsg` has made
four calls and reports none. -/
theorem attempts_execute_sendMsg_refused :
    ∃ w att, Run (step 1024) (fun _ _ => True) .empty
        [.start ⟨7, 5, .GROUP, [], 100, 0⟩, .start ⟨8, 7, .PRIVATE, [], 100, 0⟩,
          .redisGet 0 .value, .redisGet 1 .unavailable, .select 0 true, .lookedUp 0,
          .groupMembers 0 [8, 7], .idGenerate 0 {}, .idGenerate 0 {}, .idReplied 0 50,
          .saveArrives 0, .insert 0 .executed, .insert 0 .refused, .saveReplied 0 0] w ∧
      w.attempts[0]? = some att ∧ att.stage = .finished (.failed ⟨0, []⟩) ∧
      ∀ rpcs : Rpcs, rpcs.getUserLastSendData = .ok {} → rpcs.getGroupMembers = .ok [8, 7] →
        rpcs.idGenerate = .ok [⟨7, 1, 1⟩, ⟨8, 1, 1⟩] → rpcs.msgTime = 50 →
        rpcs.save = .error insertFailed →
        sendMsg att.newMsg rpcs = some ⟨[(.getUserLastSendData, none), (.getGroupMembers, none),
          (.idGenerate, none), (.saveGroupMsg, some insertFailed)], .failed ⟨0, []⟩⟩ := by
  let m : NewMsg := ⟨7, 5, .GROUP, [], 100, 0⟩
  let es : List Event :=
    [.start m, .start ⟨8, 7, .PRIVATE, [], 100, 0⟩, .redisGet 0 .value, .redisGet 1 .unavailable,
      .select 0 true, .lookedUp 0, .groupMembers 0 [8, 7], .idGenerate 0 {}, .idGenerate 0 {},
      .idReplied 0 50, .saveArrives 0, .insert 0 .executed, .insert 0 .refused, .saveReplied 0 0]
  have given : answers 1024 0 .empty es = [.lookup (.ok {}), .members (.ok [8, 7]),
      .ids [⟨7, 1, 1⟩, ⟨8, 1, 1⟩] 50, .saved (.error insertFailed)] := by decide +kernel
  have admits : ∀ (_ : World) (_ : Event), true = true → True := fun _ _ _ => trivial
  obtain ⟨w, run, checked⟩ := Run.of_check (step 1024) (fun _ _ => true) .empty es
    (fun w => decide (w.attempts[0]?.map (fun att : Attempt => (att.newMsg, att.stage)) =
      some (m, .finished (.failed ⟨0, []⟩))))
    admits (by decide +kernel)
  obtain ⟨att, found, same⟩ := Option.map_eq_some_iff.mp (of_decide_eq_true checked)
  obtain ⟨own, finished⟩ := Prod.mk.inj same
  refine ⟨w, att, run, found, finished, ?_⟩
  intro rpcs lookup members ids clock saved
  have execution := (attempts_execute_sendMsg rfl run found finished).2 rpcs ?_
  · rw [execution, given, own]
    rfl
  · rw [given]
    simp [Answer.GivenBy, lookup, members, ids, clock, saved]

end Tinyim.Delivery
