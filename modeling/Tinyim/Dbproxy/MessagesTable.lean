import Mathlib.Data.List.Nodup
import Tinyim.Common.Messages

/-! The `messages` table with its unique key, the INSERT statements of the two
save calls and the two queries. One statement inserts all its rows or none. -/
namespace Tinyim.Dbproxy

structure Row where
  userId : Int
  sender : Int
  /-- The peer of a private message, the group of a group message. -/
  receiver : Int
  msgId : Int
  groupId : Int
  message : Text
  deleted : Int := 0
  clientTime : Int
  msgTime : Int
  deriving DecidableEq, Repr

/-- UNIQUE KEY `userid_and_sender_and_time`. -/
def Row.key (row : Row) : Int × Int × Int := (row.userId, row.sender, row.clientTime)

def KeyUnique (messages : List Row) : Prop := (messages.map Row.key).Nodup

/-- One INSERT statement; `none` is a violation of the unique key. -/
def insertStatement (messages : List Row) : List Row → Option (List Row)
  | [] => some messages
  | row :: rows =>
    if row.key ∈ messages.map Row.key then none else insertStatement (messages ++ [row]) rows

theorem insertStatement_eq_some (inserted : insertStatement messages rows = some after) :
    after = messages ++ rows ∧ (KeyUnique messages → KeyUnique after) ∧
      ∀ row ∈ rows, row.key ∉ messages.map Row.key := by
  induction rows generalizing messages with
  | nil =>
      cases inserted
      exact ⟨(List.append_nil _).symm, id, fun _ absent => absurd absent List.not_mem_nil⟩
  | cons row rows ih =>
      simp only [insertStatement, Option.ite_none_left_eq_some] at inserted
      obtain ⟨fresh, inserted⟩ := inserted
      obtain ⟨rfl, unique, others⟩ := ih inserted
      refine ⟨by simp, fun before => unique ?_, ?_⟩
      · rw [KeyUnique, List.map_append, List.nodup_append]
        refine ⟨before, List.nodup_singleton _, ?_⟩
        rintro key present _ member rfl
        exact fresh (List.mem_singleton.mp member ▸ present)
      · intro other member
        rcases List.mem_cons.mp member with rfl | member
        · exact fresh
        · exact fun present => others other member (by simp [List.mem_map.mp present])

theorem insertStatement_of_keyUnique (unique : KeyUnique (messages ++ rows)) :
    insertStatement messages rows = some (messages ++ rows) := by
  induction rows generalizing messages with
  | nil => simp [insertStatement]
  | cons row rows ih =>
      have split : messages ++ row :: rows = (messages ++ [row]) ++ rows := by simp
      have fresh : row.key ∉ messages.map Row.key := by
        intro present
        simp only [KeyUnique, List.map_append, List.nodup_append] at unique
        exact unique.2.2 _ present _ (by simp) rfl
      rw [split] at unique
      rw [insertStatement, if_neg fresh, ih unique, split]

theorem KeyUnique.eq (unique : KeyUnique messages) (left : a ∈ messages) (right : b ∈ messages)
    (same : a.key = b.key) : a = b :=
  List.inj_on_of_nodup_map unique left right same

/-- The connection pools that `ChooseDatabase` can point to. -/
abbrev Pool := Nat

/-- `return &db_message_connect_pool_`, whatever the user. -/
def chooseDatabase (_ : Int) : Pool := 0

def NewPrivateMsg.senderRow (m : NewPrivateMsg) : Row where
  userId := m.sender
  sender := m.sender
  receiver := m.receiver
  msgId := m.senderMsgId
  groupId := 0
  message := m.message
  clientTime := m.clientTime
  msgTime := m.msgTime

def NewPrivateMsg.receiverRow (m : NewPrivateMsg) : Row where
  userId := m.receiver
  sender := m.sender
  receiver := m.receiver
  msgId := m.receiverMsgId
  groupId := 0
  message := m.message
  clientTime := m.clientTime
  msgTime := m.msgTime

/-- The INSERT statements of `SavePrivateMsg`, each with its rows. -/
def privateStatements (choose : Int → Pool) (m : NewPrivateMsg) : List (List Row) :=
  if choose m.sender = choose m.receiver then
    [[NewPrivateMsg.senderRow m, NewPrivateMsg.receiverRow m]]
  else [[NewPrivateMsg.senderRow m], [NewPrivateMsg.receiverRow m]]

def NewGroupMsg.row (m : NewGroupMsg) (member : UserAndMsgId) : Row where
  userId := member.userId
  sender := m.senderUserId
  receiver := m.groupId
  msgId := member.msgId
  groupId := m.groupId
  message := m.message
  clientTime := m.clientTime
  msgTime := m.msgTime

/-- The INSERT statements of the loop of `SaveGroupMsg`. -/
def groupStatements (m : NewGroupMsg) : List (List Row) :=
  m.userAndMsgids.map fun member => [NewGroupMsg.row m member]

inductive SaveRequest where
  | privateMsg (m : NewPrivateMsg)
  | groupMsg (m : NewGroupMsg)
  deriving DecidableEq, Repr

namespace SaveRequest

def sender : SaveRequest → Int
  | .privateMsg m => m.sender
  | .groupMsg m => m.senderUserId

def clientTime : SaveRequest → Int
  | .privateMsg m => m.clientTime
  | .groupMsg m => m.clientTime

def msgTime : SaveRequest → Int
  | .privateMsg m => m.msgTime
  | .groupMsg m => m.msgTime

def senderMsgId : SaveRequest → Int
  | .privateMsg m => m.senderMsgId
  | .groupMsg m => m.senderMsgId

def statements : SaveRequest → List (List Row)
  | .privateMsg m => privateStatements chooseDatabase m
  | .groupMsg m => groupStatements m

/-- The record handed to `SetUserLastSendData_` after the inserts. -/
def lastSend (r : SaveRequest) : UserLastSendData where
  userId := r.sender
  msgId := r.senderMsgId
  clientTime := r.clientTime
  msgTime := r.msgTime

end SaveRequest

def insertFailed : RpcError := ⟨EINVAL, "Fail to insert into messages.".toList⟩

def selectFailed : RpcError := ⟨EINVAL, "Fail to select from messages.".toList⟩

/-- The rows that the sender keeps of its own messages. -/
def ownRows (messages : List Row) (userId : Int) : List Row :=
  messages.filter fun row => row.userId = userId ∧ row.sender = userId

/-- `SELECT MAX(client_time)` over the own rows; NULL when there are none. -/
def maxClientTime (messages : List Row) (userId : Int) : Option Int :=
  ((ownRows messages userId).map Row.clientTime).max?

/-- The MySQL part of `GetUserLastSendData`: the targets stay zero without a row. -/
def selectLastSend (messages : List Row) (userId : Int) : UserLastSendData :=
  match (ownRows messages userId).find?
      (fun row => maxClientTime messages userId = some row.clientTime) with
  | some row => { msgId := row.msgId, clientTime := row.clientTime, msgTime := row.msgTime }
  | none => {}

theorem mem_ownRows : row ∈ ownRows messages userId ↔
    row ∈ messages ∧ row.userId = userId ∧ row.sender = userId := by
  simp [ownRows]

theorem selectLastSend_cases (messages : List Row) (userId : Int) :
    (ownRows messages userId = [] ∧ selectLastSend messages userId = {}) ∨
    ∃ row ∈ ownRows messages userId,
      (∀ other ∈ ownRows messages userId, other.clientTime ≤ row.clientTime) ∧
      selectLastSend messages userId =
        { msgId := row.msgId, clientTime := row.clientTime, msgTime := row.msgTime } := by
  cases newest : maxClientTime messages userId with
  | none =>
      have empty : ownRows messages userId = [] := by
        simpa [maxClientTime, List.max?_eq_none_iff] using newest
      exact .inl ⟨empty, by simp [selectLastSend, empty]⟩
  | some time =>
      have largest := List.max?_eq_some_iff.mp newest
      obtain ⟨witness, owned, timed⟩ := List.mem_map.mp largest.1
      cases found : (ownRows messages userId).find?
          (fun row => maxClientTime messages userId = some row.clientTime) with
      | none =>
          have missed := List.find?_eq_none.mp found witness owned
          simp [newest, timed] at missed
      | some row =>
          have matched := List.find?_some found
          simp only [newest, Option.some.injEq, decide_eq_true_eq] at matched
          refine .inr ⟨row, List.mem_of_find?_eq_some found, ?_,
            by simp only [selectLastSend, found]⟩
          intro other present
          rw [← matched]
          exact largest.2 _ (List.mem_map_of_mem present)

theorem maxClientTime_of_ownRow (owned : row ∈ ownRows messages userId) :
    (∃ newest, maxClientTime messages userId = some newest ∧ row.clientTime ≤ newest) ∧
      row.clientTime ≤ (selectLastSend messages userId).clientTime := by
  constructor
  · cases newest : maxClientTime messages userId with
    | none =>
        have empty : ownRows messages userId = [] := by
          simpa [maxClientTime, List.max?_eq_none_iff] using newest
        rw [empty] at owned
        exact absurd owned List.not_mem_nil
    | some time =>
        exact ⟨time, rfl, (List.max?_eq_some_iff.mp newest).2 _ (List.mem_map_of_mem owned)⟩
  · obtain ⟨empty, -⟩ | ⟨other, -, largest, answered⟩ := selectLastSend_cases messages userId
    · rw [empty] at owned
      exact absurd owned List.not_mem_nil
    · rw [answered]
      exact largest row owned

/-- The message that the loop of `GetMsgs` makes of a row. -/
def Row.pulled (row : Row) : Msg where
  userId := row.userId
  msgId := row.msgId
  sender := row.sender
  receiver := row.receiver
  message := row.message
  groupId := row.groupId
  clientTime := row.clientTime
  msgTime := row.msgTime

/-- The query of `GetMsgs`; MySQL leaves the order of the rows open. -/
def getMsgs (messages : List Row) (userId startMsgId endMsgId : Int) : List Msg :=
  (messages.filter fun row => row.userId = userId ∧ startMsgId ≤ row.msgId ∧
      row.msgId ≤ endMsgId ∧ row.deleted = 0).map fun row =>
    { userId, msgId := row.msgId, sender := row.sender, receiver := row.receiver,
      message := row.message, groupId := row.groupId, clientTime := row.clientTime,
      msgTime := row.msgTime }

theorem mem_getMsgs : msg ∈ getMsgs messages userId startMsgId endMsgId ↔
    ∃ row ∈ messages, row.userId = userId ∧ startMsgId ≤ row.msgId ∧ row.msgId ≤ endMsgId ∧
      row.deleted = 0 ∧ msg = row.pulled := by
  simp only [getMsgs, List.mem_map, List.mem_filter, decide_eq_true_eq]
  constructor
  · rintro ⟨row, ⟨present, rfl, first, last, visible⟩, rfl⟩
    exact ⟨row, present, rfl, first, last, visible, rfl⟩
  · rintro ⟨row, present, rfl, first, last, visible, rfl⟩
    exact ⟨row, ⟨present, rfl, first, last, visible⟩, rfl⟩

end Tinyim.Dbproxy
