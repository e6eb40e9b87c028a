import Tinyim.Logic.Failures

/-! `SendMsg` as its caller never sees it: one remote call after the other. The stages reached
with given answers are those of one execution with these answers. -/
namespace Tinyim.Logic
open Dbproxy

/-- How a remote call of `SendMsg` ends. -/
inductive Answer where
  | lookup (result : Rpc UserLastSendData)
  | members (result : Rpc (List Int))
  | idsFailed (error : RpcError)
  /-- The id reply, and the clock that is read after it. -/
  | ids (idReply : List MsgIds) (msgTime : Int)
  | saved (result : Rpc Unit)
  deriving DecidableEq

namespace Answer

def call (m : NewMsg) : Answer → Remote × Option RpcError
  | .lookup result => (.getUserLastSendData, failure result)
  | .members result => (.getGroupMembers, failure result)
  | .idsFailed error => (.idGenerate, some error)
  | .ids _ _ => (.idGenerate, none)
  | .saved result => (saveCall m, failure result)

def GivenBy (rpcs : Rpcs) : Answer → Prop
  | .lookup result => rpcs.getUserLastSendData = result
  | .members result => rpcs.getGroupMembers = result
  | .idsFailed error => rpcs.idGenerate = .error error
  | .ids idReply msgTime => rpcs.idGenerate = .ok idReply ∧ rpcs.msgTime = msgTime
  | .saved result => rpcs.save = result

end Answer

/-- The stages that a call reaches with the answers it has got. -/
inductive Reaches (m : NewMsg) : List Answer → Stage → Prop where
  | begun : Reaches m [] .getUserLastSendData
  | lookedUp (result : Rpc UserLastSendData) :
      Reaches m [.lookup result] (afterGetUserLastSendData m result)
  | listed (before : Reaches m given .getGroupMembers) (result : Rpc (List Int)) :
      Reaches m (given ++ [.members result]) (afterGetGroupMembers m result)
  | idsFailed (before : Reaches m given (.idGenerate idRequest)) (error : RpcError) :
      Reaches m (given ++ [.idsFailed error]) (.finished (.failed error))
  | identified (before : Reaches m given (.idGenerate idRequest))
      (built : saveRequest m idReply msgTime = some request) :
      Reaches m (given ++ [.ids idReply msgTime]) (.save idRequest request)
  | saved (before : Reaches m given (.save idRequest request))
      (used : .ids idReply msgTime ∈ given) (result : Rpc Unit) :
      Reaches m (given ++ [.saved result]) (afterSave m idRequest idReply request result)

def resume (m : NewMsg) (rpcs : Rpcs) : Stage → Option Execution
  | .getUserLastSendData => sendMsg m rpcs
  | .getGroupMembers => listing m rpcs
  | .idGenerate idRequest => generating m rpcs idRequest
  | .save idRequest request =>
    match rpcs.idGenerate with
    | .error _ => none
    | .ok idReply =>
      match afterSave m idRequest idReply request rpcs.save with
      | .finished outcome => some ⟨[(saveCall m, failure rpcs.save)], outcome⟩
      | _ => none
  | .finished outcome => some ⟨[], outcome⟩

def Execution.afterAll (calls : List (Remote × Option RpcError)) (x : Execution) : Execution :=
  { x with made := calls ++ x.made }

theorem Execution.afterAll_append (x : Execution) :
    x.afterAll (calls ++ later) = (x.afterAll later).afterAll calls := by
  simp only [afterAll, List.append_assoc]

variable {m : NewMsg} {rpcs : Rpcs} {given : List Answer} {stage : Stage}

theorem resume_lookup (m : NewMsg) (rpcs : Rpcs) :
    sendMsg m rpcs =
      (resume m rpcs (afterGetUserLastSendData m rpcs.getUserLastSendData)).map
        (.afterAll [(.getUserLastSendData, failure rpcs.getUserLastSendData)]) := by
  cases result : rpcs.getUserLastSendData with
  | error error => simp only [sendMsg, result, afterGetUserLastSendData, resume]; rfl
  | ok data =>
      obtain ⟨-, after⟩ | ⟨-, ⟨-, after⟩ | ⟨-, after⟩⟩ := afterGetUserLastSendData_cases m data
      · simp only [sendMsg, result, after, resume]
        rfl
      · simp only [sendMsg, result, after, resume]
        rfl
      · simp only [sendMsg, result, after, resume]
        rfl

theorem resume_members (m : NewMsg) (rpcs : Rpcs) :
    listing m rpcs = (resume m rpcs (afterGetGroupMembers m rpcs.getGroupMembers)).map
      (.afterAll [(.getGroupMembers, failure rpcs.getGroupMembers)]) := by
  cases result : rpcs.getGroupMembers with
  | error error => simp only [listing, result, afterGetGroupMembers, resume]; rfl
  | ok members =>
      simp only [listing, result, afterGetGroupMembers, resume]
      rfl

theorem resume_ids (idRequest : List UserAndIdNum) (replied : rpcs.idGenerate = .ok idReply)
    (built : saveRequest m idReply rpcs.msgTime = some request) :
    generating m rpcs idRequest =
      (resume m rpcs (.save idRequest request)).map (.afterAll [(.idGenerate, none)]) := by
  simp only [generating, resume, replied, saving, built, Option.bind_eq_bind, Option.bind_some]
  rfl

theorem resume_saved (replied : rpcs.idGenerate = .ok idReply) :
    resume m rpcs (.save idRequest request) =
      (resume m rpcs (afterSave m idRequest idReply request rpcs.save)).map
        (.afterAll [(saveCall m, failure rpcs.save)]) := by
  obtain ⟨outcome, after, -⟩ := afterSave_finishes m idRequest idReply request rpcs.save
  simp only [resume, replied, after]
  rfl

theorem afterAll_trans {x y z : Option Execution} (first : x = y.map (.afterAll calls))
    (second : y = z.map (.afterAll later)) : x = z.map (.afterAll (calls ++ later)) := by
  rw [first, second, Option.map_map]
  congr
  funext z
  exact z.afterAll_append.symm

theorem sendMsg_eq_resume (reached : Reaches m given stage)
    (answered : ∀ answer ∈ given, answer.GivenBy rpcs) :
    sendMsg m rpcs = (resume m rpcs stage).map (.afterAll (given.map (·.call m))) := by
  have earlier {given : List Answer} {last : Answer}
      (answered : ∀ answer ∈ given ++ [last], answer.GivenBy rpcs) :
      (∀ answer ∈ given, answer.GivenBy rpcs) ∧ last.GivenBy rpcs :=
    ⟨fun answer member => answered answer (List.mem_append_left _ member),
      answered last List.mem_concat_self⟩
  induction reached with
  | begun => exact Option.map_id'.symm
  | lookedUp result =>
      obtain rfl : rpcs.getUserLastSendData = result := answered _ List.mem_cons_self
      exact resume_lookup m rpcs
  | listed before result ih =>
      obtain ⟨known, rfl⟩ := earlier answered
      rw [List.map_append]
      exact afterAll_trans (ih known) (resume_members m rpcs)
  | idsFailed before error ih =>
      obtain ⟨known, failed⟩ := earlier answered
      have failed : rpcs.idGenerate = .error error := failed
      rw [List.map_append]
      apply afterAll_trans (ih known)
      simp only [resume, generating, failed]
      rfl
  | identified before built ih =>
      obtain ⟨known, replied, rfl⟩ := earlier answered
      rw [List.map_append]
      exact afterAll_trans (ih known) (resume_ids _ replied built)
  | saved before used result ih =>
      obtain ⟨known, rfl⟩ := earlier answered
      rw [List.map_append]
      exact afterAll_trans (ih known) (resume_saved (known _ used).1)

/-! The calls are made in a fixed order, each of them once. -/

def Answer.place : Answer → Nat
  | .lookup _ => 0
  | .members _ => 1
  | .idsFailed _ | .ids _ _ => 2
  | .saved _ => 3

/-- The place of the outstanding call. -/
@[simp] def Stage.place : Stage → Nat
  | .getUserLastSendData => 0
  | .getGroupMembers => 1
  | .idGenerate _ => 2
  | .save _ _ => 3
  | .finished _ => 4

theorem place_afterGetUserLastSendData (m : NewMsg) (result : Rpc UserLastSendData) :
    0 < (afterGetUserLastSendData m result).place := by
  cases result with
  | error error => simp [afterGetUserLastSendData]
  | ok data =>
      obtain ⟨-, after⟩ | ⟨-, ⟨-, after⟩ | ⟨-, after⟩⟩ := afterGetUserLastSendData_cases m data
      · simp [after]
      · simp [after]
      · simp [after]

theorem Reaches.place_lt (reached : Reaches m given stage) :
    ∀ answer ∈ given, answer.place < stage.place := by
  have later {given : List Answer} {last : Answer} {before after : Stage}
      (ih : ∀ answer ∈ given, answer.place < before.place) (own : last.place = before.place)
      (next : before.place < after.place) :
      ∀ answer ∈ given ++ [last], answer.place < after.place := by
    intro answer member
    obtain old | new := List.mem_append.mp member
    · exact (ih answer old).trans next
    · rw [List.mem_singleton.mp new, own]
      exact next
  induction reached with
  | begun => exact nofun
  | lookedUp result =>
      intro answer member
      rw [List.mem_singleton.mp member]
      exact place_afterGetUserLastSendData m result
  | listed before result ih =>
      refine later ih rfl ?_
      cases result <;> simp [afterGetGroupMembers]
  | idsFailed before error ih => exact later ih rfl (by simp)
  | identified before built ih => exact later ih rfl (by simp)
  | @saved _ idRequest request idReply _ before used result ih =>
      refine later ih rfl ?_
      obtain ⟨outcome, after, -⟩ := afterSave_finishes m idRequest idReply request result
      rw [after]
      simp

def Rpcs.giving (rpcs : Rpcs) : Answer → Rpcs
  | .lookup result => { rpcs with getUserLastSendData := result }
  | .members result => { rpcs with getGroupMembers := result }
  | .idsFailed error => { rpcs with idGenerate := .error error }
  | .ids idReply msgTime => { rpcs with idGenerate := .ok idReply, msgTime }
  | .saved result => { rpcs with save := result }

theorem givenBy_giving (rpcs : Rpcs) (answer : Answer) : answer.GivenBy (rpcs.giving answer) := by
  cases answer with
  | ids => exact ⟨rfl, rfl⟩
  | lookup | members | idsFailed | saved => rfl

theorem GivenBy.giving {answer last : Answer} (given : answer.GivenBy rpcs)
    (other : answer.place ≠ last.place) : answer.GivenBy (rpcs.giving last) := by
  cases last <;> cases answer <;> first | exact given | exact absurd rfl other

theorem Reaches.answerable (reached : Reaches m given stage) :
    ∃ rpcs : Rpcs, ∀ answer ∈ given, answer.GivenBy rpcs := by
  have next {given : List Answer} {last : Answer} {stage : Stage}
      (ih : ∃ rpcs : Rpcs, ∀ answer ∈ given, answer.GivenBy rpcs)
      (before : Reaches m given stage) (own : last.place = stage.place) :
      ∃ rpcs : Rpcs, ∀ answer ∈ given ++ [last], answer.GivenBy rpcs := by
    obtain ⟨rpcs, known⟩ := ih
    refine ⟨rpcs.giving last, fun answer member => ?_⟩
    obtain old | new := List.mem_append.mp member
    · have less := before.place_lt answer old
      exact GivenBy.giving (known answer old) (by omega)
    · rw [List.mem_singleton.mp new]
      exact givenBy_giving rpcs last
  let silent : Rpcs := ⟨.error ⟨0, []⟩, .error ⟨0, []⟩, .error ⟨0, []⟩, .error ⟨0, []⟩, 0⟩
  induction reached with
  | begun => exact ⟨silent, fun _ member => absurd member List.not_mem_nil⟩
  | lookedUp result =>
      exact next ⟨silent, fun _ member => absurd member List.not_mem_nil⟩ .begun rfl
  | listed before _ ih => exact next ih before rfl
  | idsFailed before _ ih => exact next ih before rfl
  | identified before _ ih => exact next ih before rfl
  | saved before _ _ ih => exact next ih before rfl

/-- A call that has ended is one execution of `SendMsg` with the answers that it has got. -/
theorem Reaches.executes (reached : Reaches m given (.finished outcome)) :
    (∃ rpcs : Rpcs, ∀ answer ∈ given, answer.GivenBy rpcs) ∧
    ∀ rpcs : Rpcs, (∀ answer ∈ given, answer.GivenBy rpcs) →
      sendMsg m rpcs = some ⟨given.map (·.call m), outcome⟩ := by
  refine ⟨reached.answerable, fun rpcs answered => ?_⟩
  rw [sendMsg_eq_resume reached answered]
  simp only [resume, Option.map_some, Execution.afterAll, List.append_nil]

end Tinyim.Logic
