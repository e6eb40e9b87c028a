import Tinyim.Dbproxy.MessagesTable

/-! `LogicServiceImpl::SendMsg`, cut at its remote calls: a stage says which call
is outstanding and the function after it runs the code up to the next call. -/
namespace Tinyim.Logic
open Dbproxy

/-- The arguments of the background task that pushes an accepted message. -/
structure SendtoPeersArgs where
  idRequest : List UserAndIdNum
  idReply : List MsgIds
  newMsg : NewMsg
  sender : Int
  deriving DecidableEq, Repr

inductive Outcome where
  /-- The duplicate check recognised the message. -/
  | duplicate (reply : MsgReply)
  /-- The message was saved and the task `SendtoPeers` started. -/
  | accepted (reply : MsgReply) (args : SendtoPeersArgs)
  /-- The arguments given to `cntl->SetFailed`. -/
  | failed (error : RpcError)
  /-- A CHECK stopped the process. -/
  | aborted
  deriving DecidableEq, Repr

inductive Stage where
  | getUserLastSendData
  | getGroupMembers
  | idGenerate (idRequest : List UserAndIdNum)
  | save (idRequest : List UserAndIdNum) (request : SaveRequest)
  | finished (outcome : Outcome)
  deriving DecidableEq, Repr

def Outcome.reply? : Outcome → Option MsgReply
  | .duplicate reply | .accepted reply _ => some reply
  | .failed _ | .aborted => none

/-- The reply of a call that has returned success. -/
def Stage.reply? : Stage → Option MsgReply
  | .finished outcome => outcome.reply?
  | _ => none

def privateIdRequest (m : NewMsg) : List UserAndIdNum := [⟨m.userId, 1⟩, ⟨m.peerId, 1⟩]

def groupIdRequest (m : NewMsg) (members : List Int) : List UserAndIdNum :=
  ⟨m.userId, 1⟩ :: (members.filter (· ≠ m.userId)).map (⟨·, 1⟩)

def afterGetUserLastSendData (m : NewMsg) : Rpc UserLastSendData → Stage
  | .error error => .finished (.failed error)
  | .ok lastSendData =>
    if lastSendData.clientTime = m.clientTime then
      .finished (.duplicate { msgId := lastSendData.msgId, msgTime := lastSendData.msgTime })
    else match m.msgType with
      | .PRIVATE => .idGenerate (privateIdRequest m)
      | .GROUP => .getGroupMembers

def afterGetGroupMembers (m : NewMsg) : Rpc (List Int) → Stage
  | .error error => .finished (.failed error)
  | .ok members => .idGenerate (groupIdRequest m members)

/-- Lines 179 to 188; `none` is an index outside the reply. -/
def newPrivateMsg (m : NewMsg) (idReply : List MsgIds) (msgTime : Int) : Option NewPrivateMsg := do
  let senderIds ← idReply[0]?
  let receiverIds ← idReply[1]?
  return {
    sender := m.userId, senderMsgId := senderIds.startMsgId,
    receiver := m.peerId, receiverMsgId := receiverIds.startMsgId,
    message := m.message, msgTime, clientTime := m.clientTime }

/-- The loop variable `msg_id` of lines 212 to 221: the last id of the sender. -/
def senderMsgId (m : NewMsg) (idReply : List MsgIds) : Int :=
  idReply.foldl (fun msgId ids => if m.userId = ids.userId then ids.startMsgId else msgId) 0

def newGroupMsg (m : NewMsg) (idReply : List MsgIds) (msgTime : Int) : NewGroupMsg where
  groupId := m.peerId
  userAndMsgids := idReply.map fun ids => ⟨ids.userId, ids.startMsgId⟩
  senderUserId := m.userId
  senderMsgId := senderMsgId m idReply
  message := m.message
  msgTime := msgTime
  clientTime := m.clientTime

def saveRequest (m : NewMsg) (idReply : List MsgIds) (msgTime : Int) : Option SaveRequest :=
  match m.msgType with
  | .PRIVATE => (newPrivateMsg m idReply msgTime).map .privateMsg
  | .GROUP => some (.groupMsg (newGroupMsg m idReply msgTime))

def sendtoPeersArgs (m : NewMsg) (idRequest : List UserAndIdNum) (idReply : List MsgIds)
    (msgTime : Int) : SendtoPeersArgs :=
  ⟨idRequest, idReply, { m with msgTime }, m.userId⟩

def acceptedReply (request : SaveRequest) : MsgReply :=
  ⟨request.senderMsgId, request.senderMsgId, request.msgTime⟩

/-- A failed group save reports the id controller, which has not failed. -/
def afterSave (m : NewMsg) (idRequest : List UserAndIdNum) (idReply : List MsgIds)
    (request : SaveRequest) (saved : Rpc Unit) : Stage :=
  match request, saved with
  | .privateMsg _, .error error => .finished (.failed error)
  | .groupMsg _, .error _ => .finished (.failed ⟨0, []⟩)
  | .privateMsg _, .ok _ => .finished
      (.accepted (acceptedReply request) (sendtoPeersArgs m idRequest idReply request.msgTime))
  | .groupMsg g, .ok _ =>
    if g.senderMsgId = 0 then .finished .aborted
    else .finished
      (.accepted (acceptedReply request) (sendtoPeersArgs m idRequest idReply request.msgTime))

theorem afterGetUserLastSendData_cases (m : NewMsg) (data : UserLastSendData) :
    (data.clientTime = m.clientTime ∧ afterGetUserLastSendData m (.ok data) =
      .finished (.duplicate { msgId := data.msgId, msgTime := data.msgTime })) ∨
    data.clientTime ≠ m.clientTime ∧
      (m.msgType = .PRIVATE ∧
          afterGetUserLastSendData m (.ok data) = .idGenerate (privateIdRequest m) ∨
        m.msgType = .GROUP ∧ afterGetUserLastSendData m (.ok data) = .getGroupMembers) := by
  by_cases same : data.clientTime = m.clientTime
  · exact .inl ⟨same, by simp only [afterGetUserLastSendData, same, if_true]⟩
  · refine .inr ⟨same, ?_⟩
    cases kind : m.msgType with
    | PRIVATE => exact .inl ⟨rfl, by simp only [afterGetUserLastSendData, same, if_false, kind]⟩
    | GROUP => exact .inr ⟨rfl, by simp only [afterGetUserLastSendData, same, if_false, kind]⟩

theorem duplicate_of_finished
    (finished : afterGetUserLastSendData m (.ok data) = .finished outcome) :
    data.clientTime = m.clientTime ∧
      outcome = .duplicate { msgId := data.msgId, msgTime := data.msgTime } := by
  obtain ⟨same, after⟩ | ⟨-, ⟨-, after⟩ | ⟨-, after⟩⟩ := afterGetUserLastSendData_cases m data
  · cases after.symm.trans finished
    exact ⟨same, rfl⟩
  · cases after.symm.trans finished
  · cases after.symm.trans finished

theorem afterGetUserLastSendData_ne (m : NewMsg) (data : UserLastSendData) :
    afterGetUserLastSendData m (.ok data) ≠ .getUserLastSendData := by
  intro again
  obtain ⟨-, after⟩ | ⟨-, ⟨-, after⟩ | ⟨-, after⟩⟩ := afterGetUserLastSendData_cases m data
  · cases after.symm.trans again
  · cases after.symm.trans again
  · cases after.symm.trans again

theorem afterSave_cases (m : NewMsg) (idRequest : List UserAndIdNum) (idReply : List MsgIds)
    (request : SaveRequest) (result : Rpc Unit) :
    (∃ cause error, result = .error cause ∧
      afterSave m idRequest idReply request result = .finished (.failed error)) ∨
    request.senderMsgId = 0 ∧ afterSave m idRequest idReply request result = .finished .aborted ∨
    result = .ok () ∧ afterSave m idRequest idReply request result = .finished (.accepted
      (acceptedReply request) (sendtoPeersArgs m idRequest idReply request.msgTime)) := by
  cases request with
  | privateMsg p =>
      cases result with
      | error error => exact .inl ⟨error, error, rfl, rfl⟩
      | ok _ => exact .inr (.inr ⟨rfl, rfl⟩)
  | groupMsg g =>
      cases result with
      | error error => exact .inl ⟨error, _, rfl, rfl⟩
      | ok _ =>
          by_cases zero : g.senderMsgId = 0
          · exact .inr (.inl ⟨zero, by simp only [afterSave, zero, if_true]⟩)
          · refine .inr (.inr ⟨rfl, ?_⟩)
            simp only [afterSave, zero, if_false]

theorem afterSave_finishes (m : NewMsg) (idRequest : List UserAndIdNum) (idReply : List MsgIds)
    (request : SaveRequest) (result : Rpc Unit) :
    ∃ outcome, afterSave m idRequest idReply request result = .finished outcome ∧
      ∀ reply, outcome ≠ .duplicate reply := by
  obtain ⟨_, error, -, after⟩ | ⟨-, after⟩ | ⟨-, after⟩ :=
    afterSave_cases m idRequest idReply request result
  · exact ⟨_, after, nofun⟩
  · exact ⟨_, after, nofun⟩
  · exact ⟨_, after, nofun⟩

end Tinyim.Logic
