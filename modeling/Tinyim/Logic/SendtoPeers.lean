import Tinyim.Dbproxy.Sessions
import Tinyim.Logic.SendMsg

/-! `LogicServiceImpl::SendtoPeers`: it asks for the sessions of the recipients and then
issues one `SendtoAccess` call for each recipient that has one. -/
namespace Tinyim.Logic
open Dbproxy

/-- The users of the id request without the sender, which is the first one. -/
def recipients (args : SendtoPeersArgs) : List Int :=
  (args.idRequest.drop 1).map UserAndIdNum.userId

/-- The message that the loop builds for a recipient. -/
def pushedMsg (args : SendtoPeersArgs) (userId : Int) (ids : MsgIds) : Msg where
  userId := userId
  msgId := ids.startMsgId
  sender := args.sender
  receiver := userId
  message := cStr args.newMsg.message
  groupId := match args.newMsg.msgType with
    | .PRIVATE => 0
    | .GROUP => args.newMsg.peerId
  clientTime := args.newMsg.clientTime
  msgTime := args.newMsg.msgTime

/-- The calls of the loop in their order, each with the address that it goes to. Round `i`
reads `user_ids(i)`, `msg_ids(i + 1)` and `session(i)`. -/
def sendtoPeers (args : SendtoPeersArgs) (sessions : List Session) : List (Text × Msg) :=
  (((recipients args).zip (args.idReply.drop 1)).zip sessions).filterMap
    fun ((userId, ids), session) =>
      if session.hasSession then some (session.addr, pushedMsg args userId ids) else none

theorem sendtoPeers_eq {args : SendtoPeersArgs} (value : Int → Option Text)
    (answers : args.idReply.map MsgIds.userId = args.idRequest.map UserAndIdNum.userId) :
    sendtoPeers args (getSessions value (recipients args)) =
      (args.idReply.drop 1).filterMap fun ids =>
        (value ids.userId).map fun addr => (cStr addr, pushedMsg args ids.userId ids) := by
  have users : recipients args = (args.idReply.drop 1).map MsgIds.userId := by
    rw [recipients, List.map_drop, List.map_drop, answers]
  rw [sendtoPeers, users]
  induction args.idReply.drop 1 with
  | nil => rfl
  | cons ids rest ih =>
      simp only [getSessions, List.map_cons, List.zip_cons_cons, List.filterMap_cons] at ih ⊢
      rw [ih]
      cases value ids.userId with
      | none => rfl
      | some addr => rfl

end Tinyim.Logic
