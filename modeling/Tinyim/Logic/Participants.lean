import Tinyim.Logic.SendMsg

/-! The id request, the id reply and the save request of one message, entry by
entry: one participant, one id, one row. -/
namespace Tinyim.Logic
open Dbproxy

/-- The id request of a message when `listed` says which member lists a group may have. -/
def RequestOf (listed : Int → List Int → Prop) (m : NewMsg)
    (idRequest : List UserAndIdNum) : Prop :=
  match m.msgType with
  | .PRIVATE => idRequest = privateIdRequest m
  | .GROUP => ∃ members, listed m.peerId members ∧ idRequest = groupIdRequest m members

def participants (membership : Int → List Int) (m : NewMsg) : List Int :=
  match m.msgType with
  | .PRIVATE => [m.userId, m.peerId]
  | .GROUP => m.userId :: (membership m.peerId).filter (· ≠ m.userId)

def Fixed (membership : Int → List Int) (groupId : Int) (members : List Int) : Prop :=
  members = membership groupId

/-- The row that a save stores for one entry of the id reply. -/
def participantRow (m : NewMsg) (msgTime : Int) (ids : MsgIds) : Row where
  userId := ids.userId
  sender := m.userId
  receiver := m.peerId
  msgId := ids.startMsgId
  groupId := match m.msgType with
    | .PRIVATE => 0
    | .GROUP => m.peerId
  message := m.message
  clientTime := m.clientTime
  msgTime := msgTime

/-- A save request that was built from a complete answer to an id request. -/
structure Built (listed : Int → List Int → Prop) (m : NewMsg) (idReply : List MsgIds)
    (r : SaveRequest) : Prop where
  answers : ∃ idRequest, RequestOf listed m idRequest ∧
    idReply.map MsgIds.userId = idRequest.map UserAndIdNum.userId
  request : saveRequest m idReply r.msgTime = some r

variable {listed : Int → List Int → Prop} {m : NewMsg} {idReply : List MsgIds} {r : SaveRequest}

theorem saveRequest_msgTime (built : saveRequest m idReply msgTime = some r) :
    r.msgTime = msgTime := by
  cases kind : m.msgType with
  | PRIVATE =>
      simp only [saveRequest, kind, newPrivateMsg, Option.bind_eq_bind, Option.pure_def,
        Option.map_eq_some_iff, Option.bind_eq_some_iff, Option.some.injEq] at built
      obtain ⟨_, ⟨_, -, _, -, rfl⟩, rfl⟩ := built
      rfl
  | GROUP =>
      simp only [saveRequest, kind, Option.some.injEq] at built
      subst built
      rfl

theorem RequestOf.head (asked : RequestOf listed m idRequest) :
    ∃ others, idRequest = ⟨m.userId, 1⟩ :: others := by
  cases kind : m.msgType with
  | PRIVATE =>
      simp only [RequestOf, kind] at asked
      exact ⟨_, asked⟩
  | GROUP =>
      simp only [RequestOf, kind] at asked
      obtain ⟨members, -, rfl⟩ := asked
      exact ⟨_, rfl⟩

theorem RequestOf.need (asked : RequestOf listed m idRequest) (member : user ∈ idRequest) :
    user.needMsgidNum = 1 := by
  cases kind : m.msgType with
  | PRIVATE =>
      simp only [RequestOf, kind] at asked
      subst asked
      simp only [privateIdRequest, List.mem_cons, List.not_mem_nil, or_false] at member
      obtain rfl | rfl := member <;> rfl
  | GROUP =>
      simp only [RequestOf, kind] at asked
      obtain ⟨members, -, rfl⟩ := asked
      simp only [groupIdRequest, List.mem_cons, List.mem_map] at member
      obtain rfl | ⟨_, -, rfl⟩ := member <;> rfl

theorem RequestOf.participants (asked : RequestOf (Fixed membership) m idRequest) :
    idRequest.map UserAndIdNum.userId = participants membership m := by
  cases kind : m.msgType with
  | PRIVATE =>
      simp only [RequestOf, kind] at asked
      subst asked
      simp only [Logic.participants, kind]
      rfl
  | GROUP =>
      simp only [RequestOf, kind] at asked
      obtain ⟨members, rfl, rfl⟩ := asked
      simp only [Logic.participants, kind, groupIdRequest, List.map_cons, List.map_map]
      congr 1
      exact List.map_id _

theorem senderMsgId_cons (own : ids.userId = m.userId)
    (others : ∀ other ∈ rest, other.userId ≠ m.userId) :
    senderMsgId m (ids :: rest) = ids.startMsgId := by
  have kept : ∀ id, rest.foldl
      (fun msgId ids => if m.userId = ids.userId then ids.startMsgId else msgId) id = id := by
    induction rest with
    | nil => exact fun _ => rfl
    | cons other rest ih =>
        intro id
        have different := others other List.mem_cons_self
        rw [List.foldl_cons, if_neg (Ne.symm different)]
        exact ih (fun o member => others o (List.mem_cons_of_mem _ member)) id
  simp only [senderMsgId, List.foldl_cons, own, if_true]
  exact kept _

namespace Built

theorem private_reply (built : Built listed m idReply r) (kind : m.msgType = .PRIVATE) :
    ∃ own peer, idReply = [own, peer] ∧ own.userId = m.userId ∧ peer.userId = m.peerId ∧
      r = .privateMsg ⟨m.userId, own.startMsgId, m.peerId, peer.startMsgId, m.message,
        r.msgTime, m.clientTime⟩ := by
  obtain ⟨⟨idRequest, asked, users⟩, request⟩ := built
  simp only [RequestOf, kind] at asked
  subst asked
  simp only [privateIdRequest, List.map_cons, List.map_nil, List.map_eq_cons_iff,
    List.map_eq_nil_iff] at users
  obtain ⟨own, _, rfl, ownUser, peer, _, rfl, peerUser, rfl⟩ := users
  simp only [saveRequest, kind, newPrivateMsg, List.getElem?_cons_zero, List.getElem?_cons_succ,
    Option.bind_eq_bind, Option.bind_some, Option.pure_def, Option.map_some,
    Option.some.injEq] at request
  exact ⟨own, peer, rfl, ownUser, peerUser, request.symm⟩

theorem group_reply (built : Built listed m idReply r) (kind : m.msgType = .GROUP) :
    ∃ own others, idReply = own :: others ∧ own.userId = m.userId ∧
      r = .groupMsg (newGroupMsg m idReply r.msgTime) ∧ r.senderMsgId = own.startMsgId := by
  obtain ⟨⟨idRequest, asked, users⟩, request⟩ := built
  simp only [RequestOf, kind] at asked
  obtain ⟨members, -, rfl⟩ := asked
  simp only [groupIdRequest, List.map_cons, List.map_map, List.map_eq_cons_iff] at users
  obtain ⟨own, others, rfl, ownUser, othersUsers⟩ := users
  simp only [saveRequest, kind, Option.some.injEq] at request
  refine ⟨own, others, rfl, ownUser, request.symm, ?_⟩
  rw [← request]
  apply senderMsgId_cons ownUser
  intro other member
  have present : other.userId ∈ others.map MsgIds.userId := List.mem_map_of_mem member
  rw [othersUsers] at present
  obtain ⟨user, kept, same⟩ := List.mem_map.mp present
  have different := (List.mem_filter.mp kept).2
  simp only [ne_eq, decide_eq_true_eq] at different
  rw [← same]
  exact different

theorem sender (built : Built listed m idReply r) : r.sender = m.userId := by
  cases kind : m.msgType with
  | PRIVATE =>
      obtain ⟨_, _, -, -, -, shape⟩ := built.private_reply kind
      rw [shape]; rfl
  | GROUP =>
      obtain ⟨_, _, -, -, shape, -⟩ := built.group_reply kind
      rw [shape]; rfl

theorem clientTime (built : Built listed m idReply r) : r.clientTime = m.clientTime := by
  cases kind : m.msgType with
  | PRIVATE =>
      obtain ⟨_, _, -, -, -, shape⟩ := built.private_reply kind
      rw [shape]; rfl
  | GROUP =>
      obtain ⟨_, _, -, -, shape, -⟩ := built.group_reply kind
      rw [shape]; rfl

theorem participants (built : Built (Fixed membership) m idReply r) :
    idReply.map MsgIds.userId = Logic.participants membership m := by
  obtain ⟨⟨idRequest, asked, users⟩, -⟩ := built
  rw [users, asked.participants]

/-- A private save inserts both rows in one statement. -/
theorem private_statements (built : Built listed m idReply r) (kind : m.msgType = .PRIVATE) :
    r.statements = [idReply.map (participantRow m r.msgTime)] := by
  obtain ⟨own, peer, rfl, ownUser, peerUser, shape⟩ := built.private_reply kind
  rw [shape]
  simp only [SaveRequest.statements, privateStatements, chooseDatabase, if_true, List.map_cons,
    List.map_nil, participantRow, kind, ownUser, peerUser]
  rfl

/-- A group save inserts one row per statement. -/
theorem group_statements (built : Built listed m idReply r) (kind : m.msgType = .GROUP) :
    r.statements = idReply.map fun ids => [participantRow m r.msgTime ids] := by
  obtain ⟨own, others, -, -, shape, -⟩ := built.group_reply kind
  rw [shape]
  simp only [SaveRequest.statements, groupStatements, newGroupMsg, List.map_map]
  apply List.map_congr_left
  intro ids member
  simp only [Function.comp_apply, participantRow, kind]
  rfl

theorem rows (built : Built listed m idReply r) :
    r.statements.flatten = idReply.map (participantRow m r.msgTime) := by
  cases kind : m.msgType with
  | PRIVATE => rw [built.private_statements kind, List.flatten_singleton]
  | GROUP => rw [built.group_statements kind, ← List.flatMap_def, List.map_eq_flatMap]

theorem first_row (built : Built listed m idReply r) :
    ∃ own others, idReply = own :: others ∧ own.userId = m.userId ∧
      own.startMsgId = r.senderMsgId ∧
      ∃ more later, r.statements = (participantRow m r.msgTime own :: more) :: later := by
  cases kind : m.msgType with
  | PRIVATE =>
      have statements := built.private_statements kind
      obtain ⟨own, peer, rfl, ownUser, peerUser, shape⟩ := built.private_reply kind
      exact ⟨own, [peer], rfl, ownUser, by rw [shape]; rfl, _, _, statements⟩
  | GROUP =>
      have statements := built.group_statements kind
      obtain ⟨own, others, rfl, ownUser, shape, same⟩ := built.group_reply kind
      exact ⟨own, others, rfl, ownUser, same.symm, _, _, statements⟩

theorem statements_le (built : Built listed m idReply r) :
    r.statements.length ≤ idReply.length := by
  cases kind : m.msgType with
  | PRIVATE =>
      have statements := built.private_statements kind
      obtain ⟨own, peer, rfl, -⟩ := built.private_reply kind
      rw [statements]
      simp
  | GROUP =>
      exact Nat.le_of_eq (by rw [built.group_statements kind, List.length_map])

end Built

theorem saveRequest_defined (asked : RequestOf listed m idRequest)
    (complete : idReply.length = idRequest.length) (msgTime : Int) :
    ∃ r, saveRequest m idReply msgTime = some r := by
  cases kind : m.msgType with
  | PRIVATE =>
      simp only [RequestOf, kind] at asked
      subst asked
      obtain ⟨own, peer, rfl⟩ := List.length_eq_two.mp complete
      exact ⟨_, by simp only [saveRequest, kind]; rfl⟩
  | GROUP =>
      refine ⟨.groupMsg (newGroupMsg m idReply msgTime), ?_⟩
      simp only [saveRequest, kind]

end Tinyim.Logic
