import Mathlib.Data.List.TakeWhile

/-! The records that the services exchange, with the fields the modelled
functions read or write. Proto defaults are zero and the empty text. -/
namespace Tinyim

abbrev Text := List Char

def nul : Char := Char.ofNat 0

/-- What a text keeps on its way through `c_str()`: everything before the first NUL. -/
def cStr (text : Text) : Text := text.takeWhile (· ≠ nul)

theorem cStr_eq_self_iff : cStr text = text ↔ nul ∉ text := by
  simp only [cStr, List.takeWhile_eq_self_iff, decide_eq_true_eq]
  constructor
  · intro plain member
    exact plain nul member rfl
  · rintro absent c member rfl
    exact absent member

/-- The code tests `== PRIVATE` and treats every other value as a group message. -/
inductive MsgType where
  | PRIVATE
  | GROUP
  deriving DecidableEq, Repr

structure UserLastSendData where
  userId : Int := 0
  msgId : Int := 0
  clientTime : Int := 0
  msgTime : Int := 0
  deriving DecidableEq, Repr

structure NewMsg where
  userId : Int
  peerId : Int
  msgType : MsgType
  message : Text
  clientTime : Int
  msgTime : Int := 0
  deriving DecidableEq, Repr

structure UserAndMsgId where
  userId : Int
  msgId : Int
  deriving DecidableEq, Repr

structure NewPrivateMsg where
  sender : Int
  senderMsgId : Int
  receiver : Int
  receiverMsgId : Int
  message : Text
  msgTime : Int
  clientTime : Int
  deriving DecidableEq, Repr

structure NewGroupMsg where
  groupId : Int
  userAndMsgids : List UserAndMsgId
  senderUserId : Int
  senderMsgId : Int
  message : Text
  msgTime : Int
  clientTime : Int
  deriving DecidableEq, Repr

structure Msg where
  userId : Int
  msgId : Int
  sender : Int
  receiver : Int
  message : Text
  groupId : Int
  clientTime : Int
  msgTime : Int
  deriving DecidableEq, Repr

structure MsgReply where
  msgId : Int := 0
  lastMsgId : Int := 0
  msgTime : Int := 0
  deriving DecidableEq, Repr

structure UserAndIdNum where
  userId : Int
  needMsgidNum : Int
  deriving DecidableEq, Repr

structure MsgIds where
  userId : Int
  startMsgId : Int
  msgIdNum : Int
  deriving DecidableEq, Repr

/-- The error code and text of a failed controller. -/
structure RpcError where
  code : Int
  text : Text
  deriving DecidableEq, Repr

abbrev Rpc (α : Type) := Except RpcError α

def EINVAL : Int := 22

end Tinyim
